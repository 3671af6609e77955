import YangBinding.Artifacts
import YangBinding.CommandLine.Input
import YangBinding.Json.Printer

namespace YangBinding

open Files (Host)

-- A record as it is printed.
def SchemaRecord.toJson (record : SchemaRecord) : Json :=
  .obj [
    ("tag_path", .str record.tagPath),
    ("namespace", .str record.namespaceUri),
    ("min_occurs", .int record.occurs.least),
    ("max_occurs", .str record.occurs.greatestText),
    ("children", .arr (record.children.map .str))]

-- The records of a table by their tag paths.
def SchemaTable.toJson (table : SchemaTable) : Json :=
  .obj (table.records.map fun record => (record.tagPath, record.toJson))

-- The schemas of a compilation by the names of their modules. Of two modules with the same name
-- the later one counts, at the place of the earlier.
def Compilation.schemaJson (c : Compilation) : Json :=
  .obj (c.modules.foldl (fun fields m =>
    match m.schema with
    | some table => Json.setField m.model.module table.toJson fields
    | none => fields) [])

-- The schemas of a compilation one after the other.
def Compilation.schemaXml (c : Compilation) : String :=
  String.join (c.modules.map fun m => (m.schema.map SchemaTable.xml).getD "")

namespace CommandLine

-- What a command printed, and why it failed: the error, then what is behind it, or nothing.
structure RunReport where
  errors : List String
  output : String
  remarks : List String
deriving Repr, DecidableEq

def RunReport.failed (errors : List String) : RunReport := ⟨errors, "", []⟩

def RunReport.exitCode (report : RunReport) : Nat := if report.errors.isEmpty then 0 else 1

def warning (d : Diagnostic) : String := "warning: " ++ d.text

-- The version that generated classes carry.
def classVersion : String := "1.0"

variable {m : Type → Type} [Monad m]

-- Loads and compiles what a command was given.
def compileInput (host : Host m) (input : InputSettings) (withSchema : Bool) :
    m (Except (List String) Compilation) := do
  match ← (load host input).run with
  | .error e => return .error ("failed to load statement trees" :: e.chain)
  | .ok forest => return (forest.compile withSchema).mapError fun e => [e.message]

-- Compiles, writes all files, and then tells what was remarkable.
def runGenerate (host : Host m) (today : Date) (settings : GenerateSettings) : m RunReport := do
  match settings.package with
  | none => return .failed ["missing mandatory option -d/--java-package"]
  | some package =>
    if !Java.isPackageName package then return .failed [Java.invalidPackageMessage package]
    match ← compileInput host settings.input settings.withSchema with
    | .error errors => return .failed errors
    | .ok compilation =>
      let options : RenderOptions := ⟨package, classVersion, today⟩
      let plan : OutputPlan := ⟨settings.outputRoot, package, settings.javadocDir⟩
      match ← (writeArtifacts host options plan compilation).run with
      | .error e =>
        return .failed ["failed to write generated files", e.message, e.cause.message]
      | .ok report =>
        let summary := "generated " ++ toString report.written.length ++ " files in " ++ report.dir
        return ⟨[], "",
          (compilation.diagnostics ++ report.diagnostics).map warning ++ [summary]⟩

-- Writes a text into a file after making the directory it is in.
def writeOutput (host : Host m) (out text : String) : m (List String) := do
  let parent := (Files.parent? out).getD ""
  let made ← if parent.isEmpty then pure (.ok ()) else Files.makeDirs host parent
  match made with
  | .error e => return ["failed to create " ++ parent, e.message]
  | .ok () =>
    match ← host.write out text with
    | .error e => return ["failed to write " ++ out, e.message]
    | .ok () => return []

-- Compiles and prints the schema, or writes it into a file.
def runSchema (host : Host m) (settings : SchemaSettings) : m RunReport := do
  match ← compileInput host settings.input true with
  | .error errors => return .failed errors
  | .ok compilation =>
    let remarks := compilation.diagnostics.map warning
    let text :=
      if settings.asJson then Json.pretty "" compilation.schemaJson else compilation.schemaXml
    match settings.out with
    | none => return ⟨[], text, remarks⟩
    | some out => return ⟨← writeOutput host out text, "", remarks⟩

def Command.run (host : Host m) (today : Date) : Command → m RunReport
  | .generate settings => runGenerate host today settings
  | .schema settings => runSchema host settings

end CommandLine

end YangBinding
