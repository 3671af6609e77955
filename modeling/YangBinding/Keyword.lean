namespace YangBinding

-- The keywords that the compiler tells apart; any other is kept as it is spelled.
inductive Keyword where
  | module
  | submodule
  | container
  | list
  | leaf
  | leafList
  | key
  | type
  | namespaceUri
  | modulePrefix
  | belongsTo
  | revision
  | mandatory
  | unique
  | uses
  | grouping
  | other (name : String)
deriving Repr, DecidableEq, Inhabited

namespace Keyword

-- The keywords that have a constructor of their own.
def known : List Keyword :=
  [.module, .submodule, .container, .list, .leaf, .leafList, .key, .type, .namespaceUri,
    .modulePrefix, .belongsTo, .revision, .mandatory, .unique, .uses, .grouping]

def text : Keyword → String
  | .module => "module"
  | .submodule => "submodule"
  | .container => "container"
  | .list => "list"
  | .leaf => "leaf"
  | .leafList => "leaf-list"
  | .key => "key"
  | .type => "type"
  | .namespaceUri => "namespace"
  | .modulePrefix => "prefix"
  | .belongsTo => "belongs-to"
  | .revision => "revision"
  | .mandatory => "mandatory"
  | .unique => "unique"
  | .uses => "uses"
  | .grouping => "grouping"
  | .other name => name

def ofText (word : String) : Keyword :=
  (known.find? fun keyword => keyword.text = word).getD (.other word)

def isOther : Keyword → Bool
  | .other _ => true
  | _ => false

def isModule : Keyword → Bool
  | .module | .submodule => true
  | _ => false

-- The keywords whose statements become classes.
def hasClass : Keyword → Bool
  | .container | .list => true
  | _ => false

-- The keywords whose statements carry instance data.
def isData : Keyword → Bool
  | .container | .list | .leaf | .leafList => true
  | _ => false

-- The keywords whose statements have a schema record. A leaf-list has none.
def inSchema : Keyword → Bool
  | .module | .submodule | .container | .list | .leaf => true
  | _ => false

end Keyword

end YangBinding
