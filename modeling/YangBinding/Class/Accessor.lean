import YangBinding.Class.KeyLeaf

namespace YangBinding

-- The kinds of child that a class has methods for.
inductive MemberKind where
  | leaf
  | keyLeaf
  | leafList
  | container
  | list
deriving Repr, DecidableEq

-- The operations that a leaf can be marked with.
inductive EditOperation where
  | replace
  | merge
  | create
  | delete
deriving Repr, DecidableEq

def EditOperation.all : List EditOperation := [.replace, .merge, .create, .delete]

def EditOperation.text : EditOperation → String
  | .replace => "replace"
  | .merge => "merge"
  | .create => "create"
  | .delete => "delete"

-- How a method is told its target: not at all, by the child object, by the keys of a list
-- entry, or by a value of a leaf-list.
inductive Lookup where
  | none
  | childObject
  | keys (keys : List KeyLeaf) (form : ValueForm)
  | value (form : ValueForm)
deriving Repr, DecidableEq

inductive Operation where
  | get (lookup : Lookup)
  | set (form : ValueForm)
  | unset
  | addEmpty
  | addChild (lookup : Lookup)
  | delete (lookup : Lookup)
  | mark (edit : EditOperation) (form : Option ValueForm)
  | iterate
deriving Repr, DecidableEq

-- A method of a class that reads or changes one of its children. `hasField` says that the class
-- keeps the child in a field of its own.
structure Accessor where
  kind : MemberKind
  name : String
  type : Option ValueType
  operation : Operation
  optional : Bool
  hasField : Bool
deriving Repr, DecidableEq

namespace Lookup

def isString : Lookup → Bool
  | .keys _ .string => true
  | .value .string => true
  | _ => false

end Lookup

namespace Accessor

-- Whether the method takes its keys or its value as strings.
def stringKeyed (a : Accessor) : Bool :=
  match a.operation with
  | .get lookup | .addChild lookup | .delete lookup => lookup.isString
  | .set form => form = .string
  | .mark _ form => form = some .string
  | _ => false

-- A setter for each form; a string has no primitive form of its own.
def setForms (type : ValueType) : List ValueForm :=
  if type.isString then [.wrapped, .string] else [.wrapped, .string, .primitive]

-- A key is only read back: the constructors set it.
def ofKeyLeaf (name : String) (type : ValueType) : List Accessor :=
  [⟨.keyLeaf, name, some type, .get .none, false, false⟩]

def ofPlainLeaf (name : String) (type : ValueType) : List Accessor :=
  let operations := [.get .none] ++ (setForms type).map .set ++ [.unset, .addEmpty] ++
    EditOperation.all.map fun edit => .mark edit none
  operations.map fun operation => ⟨.leaf, name, some type, operation, true, false⟩

def ofLeaf (name : String) (type : ValueType) (isKey : Bool) : List Accessor :=
  if isKey then ofKeyLeaf name type else ofPlainLeaf name type

def ofLeafList (name : String) (type : ValueType) : List Accessor :=
  let operations := [.iterate] ++ (setForms type).map .set ++
    [.delete (.value .wrapped), .delete (.value .string), .addEmpty] ++
    EditOperation.all.flatMap fun edit => [.mark edit (some .wrapped), .mark edit (some .string)]
  operations.map fun operation => ⟨.leafList, name, some type, operation, false, false⟩

def ofContainer (name : String) : List Accessor :=
  let operations := [.addChild .childObject, .addChild .none, .delete .none]
  operations.map fun operation => ⟨.container, name, none, operation, false, true⟩

def ofList (name : String) (keys : List KeyLeaf) : List Accessor :=
  let operations := [
    .get (.keys keys .wrapped), .get (.keys keys .string), .iterate,
    .addChild .childObject, .addChild (.keys keys .wrapped), .addChild (.keys keys .string),
    .addChild .none, .delete (.keys keys .wrapped), .delete (.keys keys .string)]
  operations.map fun operation => ⟨.list, name, none, operation, false, false⟩

end Accessor

end YangBinding
