import YangBinding.Json.Fault
import YangBinding.Statement.Basic

namespace YangBinding.Statement

-- How messages name the shape of a statement, of one given as a list, and of a document.
def shape : String := "struct RawStatement"

def listShape : String := "struct RawStatement with 3 elements"

def documentShape : String := "RawDocument"

-- The fields of a statement that have been seen so far.
structure Draft where
  keyword : Option String
  arg : Option String
  substatements : Option (List Statement)

def Draft.empty : Draft := ⟨none, none, none⟩

-- A statement needs a keyword; its argument and block default to nothing.
def Draft.finish? (draft : Draft) : Option Statement :=
  draft.keyword.map fun keyword =>
    .mk (.ofText keyword) (draft.arg.getD "") (draft.substatements.getD [])

def refuse {α : Type} (trail : Json.Trail) (cause : Json.Cause) : Except Json.Refusal α :=
  .error ⟨trail, cause, none⟩

def textOfJson (trail : Json.Trail) : Json → Except Json.Refusal String
  | .str s => .ok s
  | other => refuse trail (.wrongType other "a string")

mutual

-- A statement is an object with a `keyword`, an `arg` and `substmts`, where other fields are
-- passed over, or a list of those three of which the last two may be left out.
def ofJson (trail : Json.Trail) : Json → Except Json.Refusal Statement
  | .obj fields => ofFields trail .empty fields
  | .arr items => ofItems trail items
  | other => refuse trail (.wrongType other shape)

def ofFields (trail : Json.Trail) (draft : Draft) :
    List (String × Json) → Except Json.Refusal Statement
  | [] =>
    match draft.finish? with
    | some s => .ok s
    | none => refuse trail (.missingField "keyword")
  | (name, value) :: rest =>
    if name = "keyword" then
      if draft.keyword.isSome then refuse trail (.repeatedField name)
      else do
        let keyword ← textOfJson (.field name :: trail) value
        ofFields trail { draft with keyword := some keyword } rest
    else if name = "arg" then
      if draft.arg.isSome then refuse trail (.repeatedField name)
      else do
        let arg ← textOfJson (.field name :: trail) value
        ofFields trail { draft with arg := some arg } rest
    else if name = "substmts" then
      if draft.substatements.isSome then refuse trail (.repeatedField name)
      else do
        let substatements ← listOfJson (.field name :: trail) value
        ofFields trail { draft with substatements := some substatements } rest
    else ofFields trail draft rest

def ofItems (trail : Json.Trail) : List Json → Except Json.Refusal Statement
  | [] => refuse trail (.noElements listShape)
  | keyword :: rest => do
    let keyword ← textOfJson (.index 0 :: trail) keyword
    match rest with
    | [] => return .mk (.ofText keyword) "" []
    | arg :: rest =>
      let arg ← textOfJson (.index 1 :: trail) arg
      match rest with
      | [] => return .mk (.ofText keyword) arg []
      | substatements :: surplus =>
        let substatements ← listOfJson (.index 2 :: trail) substatements
        if surplus.isEmpty then return .mk (.ofText keyword) arg substatements
        else refuse trail (.surplusElements (surplus.length + 3))

-- The statements of a block.
def listOfJson (trail : Json.Trail) : Json → Except Json.Refusal (List Statement)
  | .arr items => allOfJson trail 0 items
  | other => refuse trail (.wrongType other "a sequence")

def allOfJson (trail : Json.Trail) (index : Nat) :
    List Json → Except Json.Refusal (List Statement)
  | [] => .ok []
  | item :: rest => do
    let s ← ofJson (.index index :: trail) item
    let more ← allOfJson trail (index + 1) rest
    return s :: more

end

-- A document is a list of statements or one statement. A list that can be read as either is a
-- list of statements, and a value that is neither is refused as a whole.
def documentOfJson (value : Json) : Except Json.Refusal (List Statement) :=
  match listOfJson [] value with
  | .ok statements => .ok statements
  | .error _ =>
    match ofJson [] value with
    | .ok s => .ok [s]
    | .error _ => refuse [] (.noShape documentShape)

-- What is said of a document that was refused, with the file it came from.
def refusalMessage (origin : String) (refusal : Json.Refusal) : String :=
  "invalid statement tree in " ++ origin ++ ": at JSON path " ++ Json.Trail.text refusal.trail ++
    " → " ++ refusal.message

mutual

-- The object that reads back as a statement.
def toJson : Statement → Json
  | .mk keyword arg substatements =>
    .obj [("keyword", .str keyword.text), ("arg", .str arg),
      ("substmts", .arr (allToJson substatements))]

def allToJson : List Statement → List Json
  | [] => []
  | s :: rest => toJson s :: allToJson rest

end

end YangBinding.Statement
