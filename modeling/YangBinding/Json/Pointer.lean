import YangBinding.Json.Value
import YangBinding.Text.Blank

namespace YangBinding.Json

-- Replaces each `~` followed by `mark`.
def unescapeTilde (mark image : Char) : List Char → List Char
  | [] => []
  | [c] => [c]
  | c :: d :: cs =>
    if c == '~' && d == mark then image :: unescapeTilde mark image cs
    else c :: unescapeTilde mark image (d :: cs)

def pointerToken (token : List Char) : List Char :=
  unescapeTilde '0' '~' (unescapeTilde '1' '/' token)

-- An array index: decimal, without sign and without a leading zero.
def pointerIndex? (token : List Char) : Option Nat :=
  if token.isEmpty || !token.all Char.isDigit then none
  else if token.head? == some '0' && token.length != 1 then none
  else some (token.foldl (fun n c => n * 10 + (c.toNat - 48)) 0)

def step? (value : Json) (token : List Char) : Option Json :=
  match value with
  | .obj fields => fields.lookup (String.ofList token)
  | .arr items => (pointerIndex? token).bind fun i => items[i]?
  | _ => none

-- The value that a pointer selects. The empty pointer selects the whole, any other starts
-- with a slash.
def pointer? (pointer : String) (value : Json) : Option Json :=
  match pointer.toList with
  | [] => some value
  | c :: cs =>
    if c == '/' then
      (Text.pieces (· == '/') cs).foldlM (fun v token => step? v (pointerToken token)) value
    else none

end YangBinding.Json
