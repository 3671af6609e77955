import YangBinding.Compile.Module
import YangBinding.Files.Directories
import YangBinding.Java.AccessMethod
import YangBinding.Java.PackageInfo
import YangBinding.Java.PackageName
import YangBinding.Schema.Xml

namespace YangBinding

open Files (Host OsError)

-- Where generated files go, and where their documentation goes if it is wanted.
structure OutputPlan where
  root : String
  package : String
  javadocDir : Option String
deriving Repr, DecidableEq

-- The directory of the package: the root, then a directory for each segment of its name.
def OutputPlan.packageDir (plan : OutputPlan) : String :=
  (Java.packageSegments plan.package).foldl
    (fun dir segment => Files.join dir (String.ofList segment)) plan.root

-- Why generated files could not be written.
inductive EmitError where
  | createDir (path : String) (error : OsError)
  | write (path : String) (error : OsError)
deriving Repr, DecidableEq

def EmitError.message : EmitError → String
  | .createDir path error => "failed to create " ++ path ++ ": " ++ error.message
  | .write path error => "failed to write " ++ path ++ ": " ++ error.message

-- The error of the operating system behind it.
def EmitError.cause : EmitError → OsError
  | .createDir _ error => error
  | .write _ error => error

-- The files of one module: its schema, if it was compiled, and its classes.
def CompiledModule.artifacts (options : RenderOptions) (m : CompiledModule) :
    List Java.SourceFile :=
  (m.schema.map fun table => (⟨m.model.root.spec.name ++ ".schema", table.xml⟩ :
      Java.SourceFile)).toList ++
    Java.moduleSources options m.model

-- All files of a compilation in the order they are written. Of two with the same name the later
-- one stays.
def Compilation.artifacts (options : RenderOptions) (c : Compilation) : List Java.SourceFile :=
  c.modules.flatMap (CompiledModule.artifacts options) ++
    [⟨"package-info.java",
      Java.packageInfo options.package (c.modules.map CompiledModule.model)⟩]

-- What was written, and where.
structure WriteReport where
  dir : String
  written : List String
  diagnostics : List Diagnostic
deriving Repr, DecidableEq

-- The ending of a file name after its last point. A point at the front ends nothing.
def fileExtension? (name : String) : Option String :=
  let ending := (name.toList.reverse.takeWhile (· != '.')).reverse
  let before := name.toList.length - ending.length
  if before ≤ 1 || name = ".." then none else some (String.ofList ending)

variable {m : Type → Type} [Monad m]

-- Those of some paths that lead to files.
def onlyFiles (host : Host m) : List String → m (List String)
  | [] => return []
  | path :: rest => do
    let isFile := (← host.kind? path) = some .file
    let files ← onlyFiles host rest
    return if isFile then path :: files else files

-- The sources directly inside a directory, by name.
def javaSources (host : Host m) (dir : String) : ExceptT OsError m (List String) := do
  let names ← ExceptT.mk (host.list dir)
  let sources := (names.filter fun name => fileExtension? name = some "java").mergeSort
    fun a b => a ≤ b
  ExceptT.lift (onlyFiles host (sources.map (Files.join dir)))

-- Runs the documentation tool over the sources of a directory. Nothing is undone if that fails:
-- the reason is given as a diagnostic.
def generateJavadoc (host : Host m) (dir javadocDir : String) : m (Option Diagnostic) := do
  let failed := fun reason => some (⟨javadocDir, .javadocFailed reason⟩ : Diagnostic)
  match ← (javaSources host dir).run with
  | .error e => return failed e.message
  | .ok [] => return failed ("no java sources in " ++ dir)
  | .ok sources =>
    let args := ["-d", javadocDir] ++ sources
    if args.any fun arg => arg.toList.contains (Char.ofNat 0) then
      return failed OsError.nulInArgument.message
    match ← host.javadoc args with
    | .error e => return failed e.message
    | .ok status =>
      return if status.isSuccess then none else failed ("javadoc exited with " ++ status.text)

-- Makes the directory of the package. Where a file is in the way, that is remarked on and the
-- root is used instead. The remark stands even if there is no root to use.
def chooseDir (host : Host m) (plan : OutputPlan) :
    m (Except EmitError String × List Diagnostic) := do
  let dir := plan.packageDir
  match ← Files.makeDirs host dir with
  | .ok () => return (.ok dir, [])
  | .error e =>
    match ← Files.blockingFile? host dir with
    | none => return (.error (.createDir dir e), [])
    | some file =>
      let conflict : Diagnostic := ⟨file, .outputDirConflict dir⟩
      match ← Files.makeDirs host plan.root with
      | .error e => return (.error (.createDir plan.root e), [conflict])
      | .ok () => return (.ok plan.root, [conflict])

-- The directory that files go to, with the remarks about it.
def prepareDir (host : Host m) (plan : OutputPlan) :
    ExceptT EmitError m (String × List Diagnostic) := do
  match ← ExceptT.lift (chooseDir host plan) with
  | (.ok dir, remarks) => return (dir, remarks)
  | (.error e, _) => throw e

-- Writes files into a directory until one fails.
def writeFiles (host : Host m) (dir : String) :
    List Java.SourceFile → ExceptT EmitError m (List String)
  | [] => return []
  | file :: rest => do
    let path := Files.join dir file.name
    match ← ExceptT.lift (host.write path file.text) with
    | .error e => throw (.write path e)
    | .ok () =>
      let written ← writeFiles host dir rest
      return path :: written

-- Writes all files of a compilation, and then documents them if that is wanted.
def writeArtifacts (host : Host m) (options : RenderOptions) (plan : OutputPlan)
    (c : Compilation) : ExceptT EmitError m WriteReport := do
  let (dir, diagnostics) ← prepareDir host plan
  let written ← writeFiles host dir (c.artifacts options)
  match plan.javadocDir with
  | none => return ⟨dir, written, diagnostics⟩
  | some javadocDir =>
    let failure ← ExceptT.lift (generateJavadoc host dir javadocDir)
    return ⟨dir, written, diagnostics ++ failure.toList⟩

end YangBinding
