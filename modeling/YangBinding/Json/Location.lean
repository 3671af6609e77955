namespace YangBinding.Json

-- A place in a text: its line from 1, and the bytes before it on that line.
structure Position where
  line : Nat
  column : Nat
deriving Repr, DecidableEq, Inhabited

def Position.start : Position := ⟨1, 0⟩

-- The place after the whole character `c`.
def Position.past (c : Char) (p : Position) : Position :=
  if c = '\n' then ⟨p.line + 1, 0⟩ else ⟨p.line, p.column + c.utf8Size⟩

-- The place after the first byte of `c`.
def Position.pastByte (c : Char) (p : Position) : Position :=
  if c = '\n' then ⟨p.line + 1, 0⟩ else ⟨p.line, p.column + 1⟩

-- The place `count` bytes into a text, which may lie inside a character.
def Position.pastBytes (p : Position) : Nat → List Char → Position
  | 0, _ => p
  | _, [] => p
  | count + 1, c :: cs =>
    if c.utf8Size ≤ count + 1 then (p.past c).pastBytes (count + 1 - c.utf8Size) cs
    else ⟨p.line, p.column + (count + 1)⟩

def Position.pastAll (p : Position) (cs : List Char) : Position :=
  cs.foldl (fun q c => q.past c) p

def Position.text (p : Position) : String :=
  " at line " ++ toString p.line ++ " column " ++ toString p.column

-- A step from a value to one inside it. `unknown` stands for a field whose name was not read.
inductive Segment where
  | index (i : Nat)
  | field (name : String)
  | unknown
deriving Repr, DecidableEq

-- The way from the root to a value, the last step first.
abbrev Trail := List Segment

def Segment.text : Segment → String
  | .index i => "[" ++ toString i ++ "]"
  | .field name => name
  | .unknown => "?"

-- A point divides two steps, except before an index.
def Segment.joined : Segment → String
  | .index i => Segment.text (.index i)
  | other => "." ++ other.text

def Trail.text (trail : Trail) : String :=
  match trail.reverse with
  | [] => "."
  | first :: rest => first.text ++ String.join (rest.map Segment.joined)

end YangBinding.Json
