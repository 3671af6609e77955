import YangBinding.Json.Skip
import YangBinding.Statement.Document

namespace YangBinding.Statement

open Json (Cursor Trail Refusal Cause Fault)

-- Refuses the value at `k` for its type. A scalar is read before that, so its own faults come
-- first and the place is after it; a container is left where it is.
def refuseType {α : Type} (trail : Trail) (expected : String) (k : Cursor) :
    Except Refusal α :=
  match k.rest with
  | [] => .error ((k.next .endInValue).on trail)
  | c :: _ =>
    if c == '[' then .error ((k.here (.wrongType (.arr []) expected)).on trail)
    else if c == '\x7b' then .error ((k.here (.wrongType (.obj []) expected)).on trail)
    else
      match Json.readScalar c k with
      | .ok (found, k) => .error ((k.here (.wrongType found expected)).on trail)
      | .error fault => .error (fault.on trail)

-- Reads a string.
def readText (trail : Trail) (k : Cursor) : Except Refusal (String × Cursor) :=
  let k := k.skipGaps
  match k.rest with
  | c :: _ => if c == '"' then Json.onTrail trail k.string else refuseType trail "a string" k
  | [] => refuseType trail "a string" k

-- Passes the bracket that closes a statement given as a list.
def closeList (trail : Trail) (k : Cursor) : Except Refusal Cursor :=
  let k := k.skipGaps
  match k.rest with
  | [] => .error ((k.next .endInList).on trail)
  | c :: _ =>
    if c == ']' then .ok k.advance
    else if c == ',' then
      let k := k.advance.skipGaps
      .error ((k.next (if k.rest.head? == some ']' then .trailingComma else .trailingCharacters)).on
        trail)
    else .error ((k.next .trailingCharacters).on trail)

-- The place of a repeated field: after the blanks behind its name, and after a brace there.
def afterName (k : Cursor) : Cursor :=
  let k := k.skipGaps
  if k.rest.head? == some '\x7d' then k.advance else k

-- Reads a block, whose statements `read` reads.
def readBlock (fuel : Nat) (read : Trail → Cursor → Except Refusal (Statement × Cursor))
    (enter : Bool) (trail : Trail) (k : Cursor) : Except Refusal (List Statement × Cursor) :=
  let k := k.skipGaps
  match k.rest with
  | c :: _ =>
    if c == '[' then
      if enter then Json.readElements read trail fuel 0 k.advance
      else .error ((k.next .depthExceeded).on trail)
    else refuseType trail "a sequence" k
  | [] => refuseType trail "a sequence" k

-- Reads the fields of a statement after its opening brace. `block` reads a block.
def readMembers (fuel : Nat) (block : Trail → Cursor → Except Refusal (List Statement × Cursor))
    (trail : Trail) : Nat → Bool → Draft → Cursor → Except Refusal (Statement × Cursor)
  | 0, _, _, k => .error ((k.next .endInObject).on trail)
  | left + 1, first, draft, k => do
    match ← Json.nextKey? trail first k with
    | none =>
      let k := k.skipGaps.advance
      match draft.finish? with
      | some s => return (s, k)
      | none => .error ((k.here (.missingField "keyword")).on trail)
    | some (name, k) =>
      let inner := .field name :: trail
      if name = "keyword" then
        if draft.keyword.isSome then .error (((afterName k).here (.repeatedField name)).on trail)
        else
          let k ← Json.passColon trail k
          let (keyword, k) ← readText inner k
          readMembers fuel block trail left false { draft with keyword := some keyword } k
      else if name = "arg" then
        if draft.arg.isSome then .error (((afterName k).here (.repeatedField name)).on trail)
        else
          let k ← Json.passColon trail k
          let (arg, k) ← readText inner k
          readMembers fuel block trail left false { draft with arg := some arg } k
      else if name = "substmts" then
        if draft.substatements.isSome then
          .error (((afterName k).here (.repeatedField name)).on trail)
        else
          let k ← Json.passColon trail k
          let (statements, k) ← block inner k
          readMembers fuel block trail left false { draft with substatements := some statements } k
      else
        let k ← Json.passColon trail k
        let k ← Json.onTrail inner (Json.skipValue fuel k)
        readMembers fuel block trail left false draft k

-- Reads a statement given as a list, after its opening bracket.
def readItems (block : Trail → Cursor → Except Refusal (List Statement × Cursor))
    (trail : Trail) (k : Cursor) : Except Refusal (Statement × Cursor) := do
  match ← Json.nextElement? trail true k with
  | none => .error ((k.skipGaps.advance.here (.noElements listShape)).on trail)
  | some k =>
    let (keyword, k) ← readText (.index 0 :: trail) k
    match ← Json.nextElement? trail false k with
    | none => return (.mk (.ofText keyword) "" [], ← closeList trail k)
    | some k =>
      let (arg, k) ← readText (.index 1 :: trail) k
      match ← Json.nextElement? trail false k with
      | none => return (.mk (.ofText keyword) arg [], ← closeList trail k)
      | some k =>
        let (statements, k) ← block (.index 2 :: trail) k
        return (.mk (.ofText keyword) arg statements, ← closeList trail k)

-- Reads a statement. Its block is a container too, so it takes two of the `depth` that are left.
def readStatement (fuel : Nat) : Nat → Trail → Cursor → Except Refusal (Statement × Cursor)
  | depth, trail, k =>
    let k := k.skipGaps
    match k.rest with
    | [] => refuseType trail shape k
    | c :: _ =>
      if c == '[' || c == '\x7b' then
        match depth with
        | 0 => .error ((k.next .depthExceeded).on trail)
        | 1 =>
          let block := readBlock fuel (fun trail k => refuseType trail shape k) false
          if c == '[' then readItems block trail k.advance
          else readMembers fuel block trail fuel true .empty k.advance
        | depth + 2 =>
          let block := readBlock fuel (readStatement fuel depth) true
          if c == '[' then readItems block trail k.advance
          else readMembers fuel block trail fuel true .empty k.advance
      else refuseType trail shape k

-- The statement at the start of a text.
def parse (text : String) : Except Refusal Statement :=
  (readStatement (text.length + 1) Json.depthLimit [] (.ofText text)).map Prod.fst

-- The document at the start of a text.
def parseDocument (text : String) : Except Refusal (List Statement) := do
  documentOfJson (← Json.parse text)

end YangBinding.Statement
