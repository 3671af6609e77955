import YangBinding.Json.Reader

namespace YangBinding.Json

-- A container that is being passed over.
inductive Bracket where
  | list
  | object
deriving DecidableEq

def Bracket.closing : Bracket → Char
  | .list => ']'
  | .object => '\x7d'

-- Passes over a value that is no container.
def skipScalar (c : Char) (k : Cursor) : Except Fault Cursor :=
  if c == '-' then skipNumber k.advance
  else if c.isDigit then skipNumber k
  else if c == '"' then skipString k.advance.rest k.advance.position
  else (readScalar c k).map Prod.snd

-- Passes over a key and its colon.
def skipKey (k : Cursor) : Except Fault Cursor := do
  let k := k.skipGaps
  match k.rest with
  | [] => .error (k.next .endInObject)
  | c :: _ =>
    if c == '"' then
      let k := (← skipString k.advance.rest k.advance.position).skipGaps
      match k.rest with
      | [] => .error (k.next .endInObject)
      | d :: _ => if d == ':' then .ok k.advance else .error (k.next .expectedColon)
    else .error (k.next .keyNotString)

-- Closes what ends here and goes on to the next value inside `opened`, the innermost container
-- first. Nothing stays open when the value is complete.
def nextSkipped : List Bracket → Bool → Cursor → Except Fault (List Bracket × Cursor)
  | [], _, k => .ok ([], k)
  | bracket :: outer, afterValue, k =>
    let k := k.skipGaps
    match k.rest with
    | [] => .error (k.next (if bracket = .list then .endInList else .endInObject))
    | c :: _ =>
      if c == ',' && afterValue then
        if bracket = .object then (skipKey k.advance).map fun k => (bracket :: outer, k)
        else .ok (bracket :: outer, k.advance)
      else if c == bracket.closing then nextSkipped outer true k.advance
      else if afterValue then
        .error (k.next (if bracket = .list then .expectedListEnd else .expectedObjectEnd))
      else if bracket = .object then (skipKey k).map fun k => (bracket :: outer, k)
      else .ok (bracket :: outer, k)

-- Passes over the value at `k` and the rest of the containers around it. No depth is too deep.
def skipInside : Nat → List Bracket → Cursor → Except Fault Cursor
  | 0, _, k => .error (k.next .endInValue)
  | fuel + 1, opened, k => do
    let k := k.skipGaps
    match k.rest with
    | [] => .error (k.next .endInValue)
    | c :: _ =>
      let (opened, k) ←
        if c == '[' then nextSkipped (.list :: opened) false k.advance
        else if c == '\x7b' then nextSkipped (.object :: opened) false k.advance
        else do nextSkipped opened true (← skipScalar c k)
      if opened.isEmpty then .ok k else skipInside fuel opened k

-- Passes over one value.
def skipValue (fuel : Nat) (k : Cursor) : Except Fault Cursor := skipInside fuel [] k

end YangBinding.Json
