import YangBinding.Statement.Node

namespace YangBinding

-- How values of a type look in the generated classes: the class that wraps them, and the plain
-- type. A type that is not built in is treated as a string and marked as defaulted.
structure ValueType where
  yangType : String
  wrapper : String
  primitive : String
  defaulted : Bool
deriving Repr, DecidableEq, Inhabited

namespace ValueType

def string : ValueType := ⟨"string", "com.tailf.confm.xs.String", "String", false⟩

-- The built-in types.
def builtins : List ValueType := [
  string,
  ⟨"boolean", "com.tailf.confm.xs.Boolean", "boolean", false⟩,
  ⟨"int8", "com.tailf.confm.xs.Byte", "byte", false⟩,
  ⟨"int16", "com.tailf.confm.xs.Short", "short", false⟩,
  ⟨"int32", "com.tailf.confm.xs.Int", "int", false⟩,
  ⟨"int64", "com.tailf.confm.xs.Long", "long", false⟩,
  ⟨"uint8", "com.tailf.confm.xs.UnsignedByte", "short", false⟩,
  ⟨"uint16", "com.tailf.confm.xs.UnsignedShort", "int", false⟩,
  ⟨"uint32", "com.tailf.confm.xs.UnsignedInt", "long", false⟩,
  ⟨"uint64", "com.tailf.confm.xs.UnsignedLong", "java.math.BigInteger", false⟩]

def resolve (name : String) : ValueType :=
  (builtins.find? fun t => t.yangType = name).getD
    { string with yangType := name, defaulted := true }

def isString (t : ValueType) : Bool := t.primitive == "String"

end ValueType

-- The type of a leaf or leaf-list. One without a `type` has the unknown type "".
def Node.valueType (leaf : Node) : ValueType :=
  ValueType.resolve (((leaf.find? .type).map Node.arg).getD "")

-- Which form of a value a method takes.
inductive ValueForm where
  | wrapped
  | string
  | primitive
deriving Repr, DecidableEq

def ValueType.inForm (t : ValueType) : ValueForm → String
  | .wrapped => t.wrapper
  | .string => "String"
  | .primitive => t.primitive

end YangBinding
