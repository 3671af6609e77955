import YangBinding.Statement.Basic
import YangBinding.Text.Blank

namespace YangBinding

-- A statement together with its number. Numbers are given in the order of the text, a
-- statement before those inside it.
inductive Node where
  | mk (id : Nat) (keyword : Keyword) (arg : String) (children : List Node)
deriving Inhabited

namespace Node

def id : Node → Nat
  | .mk id _ _ _ => id

def keyword : Node → Keyword
  | .mk _ keyword _ _ => keyword

def arg : Node → String
  | .mk _ _ arg _ => arg

def children : Node → List Node
  | .mk _ _ _ children => children

mutual

-- Numbers a tree from `id` on.
def number (id : Nat) : Statement → Node
  | .mk keyword arg substatements => .mk id keyword arg (numberAll (id + 1) substatements)

def numberAll (id : Nat) : List Statement → List Node
  | [] => []
  | s :: rest => number id s :: numberAll (id + s.size) rest

end

mutual

-- The nodes of a tree in the order of their numbers.
def preorder : Node → List Node
  | .mk id keyword arg children => .mk id keyword arg children :: preorderAll children

def preorderAll : List Node → List Node
  | [] => []
  | n :: rest => preorder n ++ preorderAll rest

end

mutual

-- Forgets the numbers.
def statement : Node → Statement
  | .mk _ keyword arg children => .mk keyword arg (statementAll children)

def statementAll : List Node → List Statement
  | [] => []
  | n :: rest => statement n :: statementAll rest

end

-- The children with a keyword, in order.
def search (n : Node) (keyword : Keyword) : List Node :=
  n.children.filter fun child => child.keyword = keyword

-- The first child with a keyword.
def find? (n : Node) (keyword : Keyword) : Option Node :=
  n.children.find? fun child => child.keyword = keyword

-- The first child with a keyword and an argument.
def findNamed? (n : Node) (keyword : Keyword) (arg : String) : Option Node :=
  n.children.find? fun child => child.keyword = keyword ∧ child.arg = arg

-- Whether the first child with a keyword, such as `mandatory`, says `true`.
def flag (n : Node) (keyword : Keyword) : Bool :=
  (n.find? keyword).any fun child => child.arg = "true"

-- The identifiers in the arguments of all `key` children, in order.
def keyNames (n : Node) : List String :=
  (n.search .key).flatMap fun child => Text.words child.arg

-- Whether a leaf is named by a `key` statement of the node around it.
def isKeyLeaf (n : Node) (parent : Option Node) : Bool :=
  n.keyword = .leaf && parent.any fun p => p.keyNames.contains n.arg

-- The greatest text of a list, by code points.
def greatest? : List String → Option String
  | [] => none
  | s :: rest =>
    match greatest? rest with
    | some best => some (if s < best then best else s)
    | none => some s

-- The greatest `revision` argument. Dates are written so that their text orders them.
def latestRevision? (n : Node) : Option String :=
  greatest? ((n.search .revision).map arg)

end Node

-- The statements at the top of a document, or of several documents one after the other.
abbrev Forest := List Statement

namespace Forest

-- The top statements, numbered from 0.
def roots (forest : Forest) : List Node := Node.numberAll 0 forest

-- Every node, in the order of the numbers: the node numbered `i` stands at place `i`.
def nodes (forest : Forest) : List Node := Node.preorderAll forest.roots

def node? (forest : Forest) (id : Nat) : Option Node := forest.nodes[id]?

-- The node that has the node numbered `id` among its children.
def parent? (forest : Forest) (id : Nat) : Option Node :=
  forest.nodes.find? fun n => n.children.any fun child => child.id == id

end Forest

end YangBinding
