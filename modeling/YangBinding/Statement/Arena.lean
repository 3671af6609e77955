import YangBinding.Statement.Document
import YangBinding.Statement.Node

namespace YangBinding

-- A statement in an arena. What is inside it and what is around it are given by their numbers.
structure Entry where
  keyword : Keyword
  arg : String
  children : List Nat
  parent : Option Nat
deriving Repr, DecidableEq, Inhabited

-- Statements in one table, where the number of a statement is its place, and the numbers of those
-- at the top.
structure Arena where
  entries : Array Entry
  roots : List Nat
deriving Repr, DecidableEq

namespace Arena

def empty : Arena := ⟨#[], []⟩

def size (arena : Arena) : Nat := arena.entries.size

def get? (arena : Arena) (id : Nat) : Option Entry := arena.entries[id]?

def parent? (arena : Arena) (id : Nat) : Option Nat := (arena.get? id).bind Entry.parent

def children (arena : Arena) (id : Nat) : List Nat :=
  ((arena.get? id).map Entry.children).getD []

-- Notes a child in the entry of `id`.
def adopt (id child : Nat) (entries : Array Entry) : Array Entry :=
  entries.modify id fun entry => { entry with children := entry.children ++ [child] }

mutual

-- Adds a statement and all that is inside it, and gives its number. Its entry comes first and has
-- no children yet: each of them is noted after it was added with all that is inside it.
def insert (parent : Option Nat) : Statement → Array Entry → Nat × Array Entry
  | .mk keyword arg substatements, entries =>
    let id := entries.size
    (id, insertAll id substatements (entries.push ⟨keyword, arg, [], parent⟩))

def insertAll (id : Nat) : List Statement → Array Entry → Array Entry
  | [], entries => entries
  | s :: rest, entries =>
    let (child, entries) := insert (some id) s entries
    insertAll id rest (adopt id child entries)

end

-- Adds a statement at the top, and gives its number.
def pushRoot (arena : Arena) (s : Statement) : Nat × Arena :=
  let (id, entries) := insert none s arena.entries
  (id, ⟨entries, arena.roots ++ [id]⟩)

-- Adds the statements of a document one after the other.
def pushAll (arena : Arena) (document : Forest) : Arena :=
  document.foldl (fun arena s => (arena.pushRoot s).2) arena

def ofForest (forest : Forest) : Arena := empty.pushAll forest

-- Merges documents, in order.
def ofDocuments (documents : List Forest) : Arena := documents.foldl pushAll empty

def ofJson (value : Json) : Except Json.Refusal Arena :=
  (Statement.documentOfJson value).map ofForest

-- The statement that has a number, with all that is inside it. The numbers of children are greater
-- than that of the statement around them; one that is not leads nowhere.
def statement? (arena : Arena) (id : Nat) : Option Statement :=
  if _ : id < arena.entries.size then do
    let entry := arena.entries[id]
    let substatements ← entry.children.mapM fun child =>
      if id < child then arena.statement? child else none
    return .mk entry.keyword entry.arg substatements
  else none
termination_by arena.entries.size - id

-- The statements at the top.
def statements? (arena : Arena) : Option Forest := arena.roots.mapM arena.statement?

end Arena

end YangBinding
