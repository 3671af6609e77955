import YangBinding.Statement.Node

namespace YangBinding

-- How often a node may occur. No greatest number means that there is no bound.
structure Occurs where
  least : Nat
  greatest : Option Nat
deriving Repr, DecidableEq

def Occurs.greatestText (o : Occurs) : String :=
  match o.greatest with
  | some n => toString n
  | none => "-1"

-- What the schema says about the node at a tag path.
structure SchemaRecord where
  tagPath : String
  namespaceUri : String
  occurs : Occurs
  children : List String
deriving Repr, DecidableEq

namespace Node

-- Whether a node stands directly inside a container or list.
def insideClass (parent : Option Node) : Bool := parent.any fun p => p.keyword.hasClass

-- Nodes that occur exactly once: modules, keys, and containers inside a class.
def isSingle (n : Node) (parent : Option Node) : Bool :=
  n.keyword.isModule || n.isKeyLeaf parent || (insideClass parent && n.keyword = .container)

-- Any number, unless a rule tightens it: single nodes occur once, `mandatory` raises the least
-- number, and the greatest is one for `unique`, for a container, and for all but lists inside
-- a class.
def occurs (n : Node) (parent : Option Node) : Occurs :=
  let single := n.isSingle parent
  let once := n.flag .unique || (insideClass parent && n.keyword ≠ .list) || n.keyword = .container
  { least := if single || n.flag .mandatory then 1 else 0
    greatest := if single || once then some 1 else none }

-- The arguments of the children that carry data.
def dataNames (n : Node) : List String :=
  (n.children.filter fun child => child.keyword.isData).map arg

def schemaRecord (n : Node) (parent : Option Node) (namespaceUri tagPath : String) :
    SchemaRecord :=
  ⟨tagPath, namespaceUri, n.occurs parent, n.dataNames⟩

end Node

end YangBinding
