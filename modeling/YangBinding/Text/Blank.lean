namespace YangBinding.Text

-- The characters of the White_Space property. The separators U+001C to U+001F and the
-- zero-width space U+200B are not among them.
def isBlank (c : Char) : Bool :=
  let n := c.toNat
  (0x09 ≤ n && n ≤ 0x0D) || n == 0x20 || n == 0x85 || n == 0xA0 || n == 0x1680 ||
    (0x2000 ≤ n && n ≤ 0x200A) || n == 0x2028 || n == 0x2029 || n == 0x202F ||
    n == 0x205F || n == 0x3000

-- Pieces of a list of characters between those that satisfy `stop`, empty ones included.
def pieces (stop : Char → Bool) : List Char → List (List Char)
  | [] => [[]]
  | c :: cs =>
    if stop c then [] :: pieces stop cs
    else match pieces stop cs with
      | [] => [[c]]
      | piece :: rest => (c :: piece) :: rest

-- Maximal runs of characters that are not blank, in order.
def words (s : String) : List String :=
  ((pieces isBlank s.toList).filter (fun piece => !piece.isEmpty)).map String.ofList

end YangBinding.Text
