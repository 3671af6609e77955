import YangBinding.Text.CaseTable

namespace YangBinding.Text

-- The full case mapping of one code point: the run that covers it, else its expansion,
-- else itself. Neighbouring characters play no part.
def caseImage (runs : List CaseRun) (expansions : List (Nat × List Nat)) (n : Nat) : List Nat :=
  match runs.findSome? (fun run => run.image? n) with
  | some image => [image]
  | none => (expansions.lookup n).getD [n]

-- Upper case of one character, which may be several: `ß` gives `SS`.
def upper (c : Char) : List Char :=
  (caseImage upperRuns upperExpansions c.toNat).map Char.ofNat

-- Lower case of one character, which may be several.
def lower (c : Char) : List Char :=
  (caseImage lowerRuns lowerExpansions c.toNat).map Char.ofNat

def upperFirst : List Char → List Char
  | [] => []
  | c :: cs => upper c ++ cs

def lowerFirst : List Char → List Char
  | [] => []
  | c :: cs => lower c ++ cs

end YangBinding.Text
