import YangBinding.Class.Accessor

namespace YangBinding

inductive ClassKind where
  | module
  | container
  | list
deriving Repr, DecidableEq, Inhabited

-- A constructor without arguments, or one that takes the keys in some form.
inductive ConstructorMode where
  | noArgs
  | keyed (form : ValueForm)
deriving Repr, DecidableEq

structure Constructor where
  mode : ConstructorMode
  args : List KeyLeaf
  setsPrefix : Bool
deriving Repr, DecidableEq

-- A copying method, which builds the copy from the keys.
structure CopyMethod where
  shallow : Bool
  keys : List String
deriving Repr, DecidableEq

-- A statement that adds nothing to its class.
structure Skipped where
  keyword : Keyword
  arg : String
deriving Repr, DecidableEq

-- All that a class holds apart from the classes nested in it. `rootClass` is the class of the
-- module, and only that one has a `modulePrefix`.
structure ClassSpec where
  name : String
  tag : String
  kind : ClassKind
  namespaceUri : String
  rootClass : String
  modulePrefix : Option String
  path : String
  fields : List String
  keys : Option (List KeyLeaf)
  constructors : List Constructor
  copies : List CopyMethod
  keyNames : List String
  childrenNames : List String
  accessors : List Accessor
  addChildSupport : Bool
  skipped : List Skipped
deriving Repr, DecidableEq, Inhabited

def ClassSpec.fileName (c : ClassSpec) : String := c.name ++ ".java"

-- A class and the classes of the statements inside its own.
inductive ClassTree where
  | mk (spec : ClassSpec) (children : List ClassTree)
deriving Inhabited

namespace ClassTree

def spec : ClassTree → ClassSpec
  | .mk spec _ => spec

def children : ClassTree → List ClassTree
  | .mk _ children => children

mutual

-- The classes of a tree, an outer class before those inside it.
def walk : ClassTree → List ClassSpec
  | .mk spec children => spec :: walkAll children

def walkAll : List ClassTree → List ClassSpec
  | [] => []
  | tree :: rest => walk tree ++ walkAll rest

end

end ClassTree

-- The classes of a module, and what is told about their origin.
structure ModuleModel where
  module : String
  revision : Option String
  root : ClassTree

def ModuleModel.provenance (m : ModuleModel) : String :=
  "module \"" ++ m.module ++ "\", revision: \"" ++ m.revision.getD "unknown" ++ "\"."

end YangBinding
