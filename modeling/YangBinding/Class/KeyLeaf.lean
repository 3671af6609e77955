import YangBinding.Class.ValueType
import YangBinding.Compile.Error

namespace YangBinding

-- A leaf that a list names as one of its keys.
structure KeyLeaf where
  identifier : String
  type : ValueType
deriving Repr, DecidableEq

def allStrings (keys : List KeyLeaf) : Bool := keys.all fun key => key.type.isString

-- The leaf of a list that defines one of its keys.
def Node.keyLeaf (list : Node) (identifier : String) : Except CompileError KeyLeaf :=
  match list.findNamed? .leaf identifier with
  | some leaf => .ok ⟨identifier, leaf.valueType⟩
  | none => .error (.missingKeyDefinition list.arg identifier)

-- The keys of a list in the order of its first `key` statement. A list needs at least one.
def Node.keys (list : Node) : Except CompileError (List KeyLeaf) := do
  match list.find? .key with
  | none => .error (.missingKeyStatement list.arg)
  | some key =>
    let keys ← (Text.words key.arg).mapM list.keyLeaf
    if keys.isEmpty then .error (.missingKeyStatement list.arg) else return keys

end YangBinding
