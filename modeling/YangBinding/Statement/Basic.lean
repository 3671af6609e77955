import YangBinding.Keyword

namespace YangBinding

-- A parsed statement: its keyword, its argument, and the statements inside its block.
inductive Statement where
  | mk (keyword : Keyword) (arg : String) (substatements : List Statement)
deriving Inhabited

namespace Statement

def keyword : Statement → Keyword
  | .mk keyword _ _ => keyword

def arg : Statement → String
  | .mk _ arg _ => arg

def substatements : Statement → List Statement
  | .mk _ _ substatements => substatements

mutual

-- The number of statements in a tree.
def size : Statement → Nat
  | .mk _ _ substatements => sizeAll substatements + 1

def sizeAll : List Statement → Nat
  | [] => 0
  | s :: rest => size s + sizeAll rest

end

end Statement

end YangBinding
