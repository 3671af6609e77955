import YangBinding.Json.Number
import YangBinding.Json.StringLiteral

namespace YangBinding.Json

def onTrail {α : Type} (trail : Trail) (result : Except Fault α) : Except Refusal α :=
  result.mapError fun fault => fault.on trail

-- Looks for the next element of a list, at `k` after its bracket or after an element. Nothing
-- means that the closing bracket is next.
def nextElement? (trail : Trail) (first : Bool) (k : Cursor) : Except Refusal (Option Cursor) :=
  let k := k.skipGaps
  match k.rest with
  | [] => .error ((k.next .endInList).on trail)
  | c :: _ =>
    if c == ']' then .ok none
    else if first then .ok (some k)
    else if c == ',' then
      let k := k.advance.skipGaps
      match k.rest with
      | [] => .error ((k.next .endInValue).on trail)
      | d :: _ => if d == ']' then .error ((k.next .trailingComma).on trail) else .ok (some k)
    else .error ((k.next .expectedListEnd).on trail)

-- Looks for the next key of an object and reads it. Nothing means that the closing brace is next.
def nextKey? (trail : Trail) (first : Bool) (k : Cursor) :
    Except Refusal (Option (String × Cursor)) :=
  let trail := .unknown :: trail
  let k := k.skipGaps
  match k.rest with
  | [] => .error ((k.next .endInObject).on trail)
  | c :: _ =>
    if c == '\x7d' then .ok none
    else if first then
      if c == '"' then onTrail trail (k.string.map some)
      else .error ((k.next .keyNotString).on trail)
    else if c == ',' then
      let k := k.advance.skipGaps
      match k.rest with
      | [] => .error ((k.next .endInValue).on trail)
      | d :: _ =>
        if d == '"' then onTrail trail (k.string.map some)
        else if d == '\x7d' then .error ((k.next .trailingComma).on trail)
        else .error ((k.next .keyNotString).on trail)
    else .error ((k.next .expectedObjectEnd).on trail)

-- Passes the colon between a key and its value.
def passColon (trail : Trail) (k : Cursor) : Except Refusal Cursor :=
  let k := k.skipGaps
  match k.rest with
  | [] => .error ((k.next .endInObject).on trail)
  | c :: _ => if c == ':' then .ok k.advance else .error ((k.next .expectedColon).on trail)

-- Reads the elements of a list after its opening bracket, and the closing one. `fuel` bounds
-- their number: the length of the text is enough, since each takes a character or more.
def readElements {α : Type} (read : Trail → Cursor → Except Refusal (α × Cursor)) (trail : Trail) :
    Nat → Nat → Cursor → Except Refusal (List α × Cursor)
  | 0, _, k => .error ((k.next .endInList).on trail)
  | fuel + 1, index, k => do
    match ← nextElement? trail (index == 0) k with
    | none => return ([], k.skipGaps.advance)
    | some k =>
      let (item, k) ← read (.index index :: trail) k
      let (items, k) ← readElements read trail fuel (index + 1) k
      return (item :: items, k)

-- Reads the fields of an object after its opening brace, and the closing one.
def readFields (read : Trail → Cursor → Except Refusal (Json × Cursor)) (trail : Trail) :
    Nat → Bool → Cursor → Except Refusal (List (String × Json) × Cursor)
  | 0, _, k => .error ((k.next .endInObject).on trail)
  | fuel + 1, first, k => do
    match ← nextKey? trail first k with
    | none => return ([], k.skipGaps.advance)
    | some (name, k) =>
      let k ← passColon trail k
      let (value, k) ← read (.field name :: trail) k
      let (fields, k) ← readFields read trail fuel false k
      return ((name, value) :: fields, k)

-- Reads a value that is no container, which starts with `c`.
def readScalar (c : Char) (k : Cursor) : Except Fault (Json × Cursor) :=
  if c == 'n' then (readWord ['u', 'l', 'l'] k.advance).map fun k => (.null, k)
  else if c == 't' then (readWord ['r', 'u', 'e'] k.advance).map fun k => (.bool true, k)
  else if c == 'f' then (readWord ['a', 'l', 's', 'e'] k.advance).map fun k => (.bool false, k)
  else if c == '-' then readNumber true k.advance
  else if c.isDigit then readNumber false k
  else if c == '"' then k.string.map fun (s, k) => (.str s, k)
  else .error (k.next .expectedValue)

-- Reads a value. `fuel` bounds the number of elements of a container, the other number how many
-- containers may still be entered.
def readValue (fuel : Nat) : Nat → Trail → Cursor → Except Refusal (Json × Cursor)
  | depth, trail, k =>
    let k := k.skipGaps
    match k.rest with
    | [] => .error ((k.next .endInValue).on trail)
    | c :: _ =>
      if c == '[' then
        match depth with
        | 0 => .error ((k.next .depthExceeded).on trail)
        | depth + 1 => do
          let (items, k) ← readElements (readValue fuel depth) trail fuel 0 k.advance
          return (.arr items, k)
      else if c == '\x7b' then
        match depth with
        | 0 => .error ((k.next .depthExceeded).on trail)
        | depth + 1 => do
          let (fields, k) ← readFields (readValue fuel depth) trail fuel true k.advance
          return (.obj fields, k)
      else onTrail trail (readScalar c k)

-- Containers may be nested this deep.
def depthLimit : Nat := 127

-- The first value of a text. What follows it is not looked at.
def parse (text : String) : Except Refusal Json :=
  (readValue (text.length + 1) depthLimit [] (.ofText text)).map Prod.fst

end YangBinding.Json
