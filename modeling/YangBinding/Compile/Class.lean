import YangBinding.Class.Spec
import YangBinding.Compile.Event
import YangBinding.Java.Name
import YangBinding.Schema.Record

namespace YangBinding

-- What the classes of a module have in common.
structure ModuleContext where
  namespaceUri : String
  rootClass : String

namespace Node

-- The methods that a child adds to its class. Statements without data add none.
def accessors (keyNames : List String) (child : Node) : Except CompileError (List Accessor) := do
  match child.keyword with
  | .list => return Accessor.ofList child.arg (← child.keys)
  | .container => return Accessor.ofContainer child.arg
  | .leaf => return Accessor.ofLeaf child.arg child.valueType (keyNames.contains child.arg)
  | .leafList => return Accessor.ofLeafList child.arg child.valueType
  | _ => return []

-- Children that add nothing to a class. A `key` statement is used up by the keys.
def isSkipped (child : Node) : Bool := !child.keyword.isData && child.keyword ≠ .key

def skippedIn (n : Node) (skips : Node → Bool) : List Skipped :=
  (n.children.filter skips).map fun child => ⟨child.keyword, child.arg⟩

-- The keys of a list, which are what sets its class apart from that of a container.
def classKeys (n : Node) : Except CompileError (Option (List KeyLeaf)) :=
  if n.keyword = .list then n.keys.map some else .ok none

def constructorModes (keys : Option (List KeyLeaf)) : List ConstructorMode :=
  match keys with
  | none => [.noArgs]
  | some keys =>
    [.noArgs, .keyed .wrapped, .keyed .string] ++
      if allStrings keys then [] else [.keyed .primitive]

def constructors (topLevel : Bool) (keys : Option (List KeyLeaf)) : List Constructor :=
  (constructorModes keys).map fun mode =>
    ⟨mode, if mode = .noArgs then [] else keys.getD [], topLevel⟩

def copies (keys : Option (List KeyLeaf)) : List CopyMethod :=
  let names := (keys.getD []).map KeyLeaf.identifier
  [⟨false, names⟩, ⟨true, names⟩]

-- The class of a container or list, once the classes inside it are known to exist.
def classSpec (n : Node) (context : ModuleContext) (topLevel : Bool) (path : String) :
    Except CompileError ClassSpec := do
  let accessors ← n.children.mapM (accessors n.keyNames)
  let keys ← n.classKeys
  return {
    name := Java.className n.arg
    tag := n.arg
    kind := if keys.isSome then .list else .container
    namespaceUri := context.namespaceUri
    rootClass := context.rootClass
    modulePrefix := none
    path := path ++ n.arg ++ "/"
    fields := (n.search .container).map arg
    keys := keys
    constructors := constructors topLevel keys
    copies := copies keys
    keyNames := n.keyNames
    childrenNames := n.dataNames
    accessors := accessors.flatten
    addChildSupport := n.children.any fun child => child.keyword.hasClass
    skipped := n.skippedIn isSkipped }

mutual

-- The class of a container or list and those inside it. A fault inside comes before one of its
-- own.
def classTree (context : ModuleContext) (topLevel : Bool) (path : String) :
    Node → Except CompileError ClassTree
  | .mk id keyword arg children => do
    let nested ← classTrees context false (path ++ arg ++ "/") children
    let spec ← (Node.mk id keyword arg children).classSpec context topLevel path
    return .mk spec nested

-- The classes of those among some nodes that have one.
def classTrees (context : ModuleContext) (topLevel : Bool) (path : String) :
    List Node → Except CompileError (List ClassTree)
  | [] => .ok []
  | n :: rest =>
    if n.keyword.hasClass then do
      let tree ← classTree context topLevel path n
      let trees ← classTrees context topLevel path rest
      return tree :: trees
    else classTrees context topLevel path rest

end

-- A report about a leaf or leaf-list whose type is not built in.
def typeEvents (path : String) (leaf : Node) : List Event :=
  let type := leaf.valueType
  if type.defaulted then
    [.report ⟨leaf.id, ⟨path ++ leaf.arg ++ "/", .unsupportedType type.yangType⟩⟩]
  else []

-- A report about a statement that would have to be expanded.
def unsupportedEvent (path : String) (n : Node) : Event :=
  .report ⟨n.id, ⟨path, .unsupportedStatement n.keyword.text n.arg⟩⟩

mutual

-- The events of building a class, in the order of the statements.
def classEvents (path : String) : Node → List Event
  | .mk id _ arg children =>
    let inner := path ++ arg ++ "/"
    .claim id (Java.className arg) inner :: memberEvents inner children

def memberEvents (path : String) : List Node → List Event
  | [] => []
  | n :: rest =>
    (match n.keyword with
      | .list | .container => classEvents path n
      | .leaf | .leafList => typeEvents path n
      | .uses | .grouping => [unsupportedEvent path n]
      | _ => []) ++ memberEvents path rest

end

end Node

end YangBinding
