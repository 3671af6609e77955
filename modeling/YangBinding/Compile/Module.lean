import YangBinding.Compile.Class
import YangBinding.Schema.Table

namespace YangBinding

structure CompiledModule where
  model : ModuleModel
  schema : Option SchemaTable

structure Compilation where
  modules : List CompiledModule
  diagnostics : List Diagnostic

namespace Node

-- The argument of a statement that a module must have.
def requiredArg (n : Node) (keyword : Keyword) : Except CompileError String :=
  match n.find? keyword with
  | some child => .ok child.arg
  | none => .error (.missingStatement n.keyword.text n.arg keyword.text)

-- Statements of a module that would have to be expanded.
def needsExpansion (child : Node) : Bool := child.keyword = .uses || child.keyword = .grouping

-- The class of a module itself, which holds its namespace and prefix and nothing else.
def rootSpec (n : Node) (namespaceUri modulePrefix : String) : ClassSpec where
  name := Java.className modulePrefix
  tag := n.arg
  kind := .module
  namespaceUri := namespaceUri
  rootClass := Java.className modulePrefix
  modulePrefix := some modulePrefix
  path := "/"
  fields := []
  keys := none
  constructors := []
  copies := []
  keyNames := []
  childrenNames := []
  accessors := []
  addChildSupport := false
  skipped := n.skippedIn needsExpansion

-- Compiles a module; `withSchema` asks for its schema too.
def compileModule (n : Node) (withSchema : Bool) (parent : Option Node) :
    Except CompileError CompiledModule := do
  let namespaceUri ← n.requiredArg .namespaceUri
  let modulePrefix ← n.requiredArg .modulePrefix
  let context : ModuleContext := ⟨namespaceUri, Java.className modulePrefix⟩
  let children ← classTrees context true "/" n.children
  return {
    model := ⟨n.arg, n.latestRevision?, .mk (n.rootSpec namespaceUri modulePrefix) children⟩
    schema := if withSchema then some (n.schema parent namespaceUri "/").table else none }

-- The events of compiling a module: its own claim, those of its classes, then the tag paths that
-- were taken.
def moduleEvents (n : Node) (withSchema : Bool) : List Event :=
  let modulePrefix := ((n.find? .modulePrefix).map arg).getD ""
  .claim n.id (Java.className modulePrefix) "/" ::
    n.children.flatMap (fun child =>
      if child.keyword.hasClass then classEvents "/" child
      else if child.needsExpansion then [unsupportedEvent "/" child]
      else []) ++
    if withSchema then (n.schema none "" "/").reports.map .report else []

-- A module is compiled, a submodule is passed over, and nothing else may stand at the top.
def compileRoot (root : Node) (withSchema : Bool) :
    Except CompileError (Option CompiledModule) :=
  match root.keyword with
  | .module => (root.compileModule withSchema none).map some
  | .submodule => .ok none
  | other => .error (.unexpectedTopLevel other.text)

def rootEvents (root : Node) (withSchema : Bool) : List Event :=
  match root.keyword with
  | .module => root.moduleEvents withSchema
  | .submodule => [.report ⟨root.id, ⟨"/", .submoduleSkipped root.arg⟩⟩]
  | _ => []

end Node

-- Compiles all modules of a forest.
def Forest.compile (forest : Forest) (withSchema : Bool) : Except CompileError Compilation := do
  let modules ← forest.roots.mapM fun root => root.compileRoot withSchema
  return {
    modules := modules.filterMap id
    diagnostics := diagnosticsOf (forest.roots.flatMap fun root => root.rootEvents withSchema) }

end YangBinding
