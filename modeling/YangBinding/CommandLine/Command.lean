import YangBinding.CommandLine.Switch

namespace YangBinding.CommandLine

-- Which documents are read: paths or patterns, and a pointer to the part that is wanted.
structure InputSettings where
  patterns : List String
  pointer : Option String
deriving Repr, DecidableEq

structure GenerateSettings where
  input : InputSettings
  package : Option String
  outputRoot : String
  withSchema : Bool
  javadocDir : Option String
deriving Repr, DecidableEq

structure SchemaSettings where
  input : InputSettings
  asJson : Bool
  out : Option String
deriving Repr, DecidableEq

inductive Command where
  | generate (settings : GenerateSettings)
  | schema (settings : SchemaSettings)
deriving Repr, DecidableEq

-- The switches of every command.
def commonSwitches : List Switch := [
  ⟨"help", some 'h', .help⟩,
  ⟨"json-pointer", none, .text⟩,
  ⟨"input", some 'i', .texts⟩,
  ⟨"debug", none, .nothing⟩,
  ⟨"verbose", none, .nothing⟩]

def generateSwitches : List Switch := commonSwitches ++ [
  ⟨"java-package", some 'd', .text⟩,
  ⟨"output-root", none, .path⟩,
  ⟨"no-schema", none, .nothing⟩,
  ⟨"javadoc", none, .path⟩]

def schemaSwitches : List Switch := commonSwitches ++ [
  ⟨"json", none, .nothing⟩,
  ⟨"out", some 'o', .path⟩]

-- There must be something to read.
def inputSettings (given : Given) : Except Usage InputSettings :=
  if given.has "input" then .ok ⟨given.values "input", given.value? "json-pointer"⟩
  else .error .missingArgument

def parseGenerate (words : List String) : Except Usage Command := do
  let given ← Scan.words generateSwitches .start words
  return .generate {
    input := ← inputSettings given
    package := given.value? "java-package"
    outputRoot := (given.value? "output-root").getD "."
    withSchema := !given.has "no-schema"
    javadocDir := given.value? "javadoc" }

def parseSchema (words : List String) : Except Usage Command := do
  let given ← Scan.words schemaSwitches .start words
  return .schema {
    input := ← inputSettings given
    asJson := given.has "json"
    out := given.value? "out" }

def commandNames : List String := ["generate", "schema", "help"]

-- Help can be asked for about one command.
def helpAbout : List String → Usage
  | [] => .help
  | [name] => if commandNames.contains name then .help else .unknownCommand
  | _ => .unknownCommand

-- The first word decides: it is a command, or it asks for a text, or it is wrong.
def parse : List String → Except Usage Command
  | [] => .error .missingCommand
  | word :: rest =>
    if word = "generate" then parseGenerate rest
    else if word = "schema" then parseSchema rest
    else if word = "help" then .error (helpAbout rest)
    else
      match Word.ofText word with
      | .bare => .error .unknownCommand
      | .stop =>
        match rest with
        | [] => .error .missingCommand
        | next :: _ =>
          .error (if commandNames.contains next then .unknownArgument else .unknownCommand)
      | .long name value =>
        if name ≠ "help" && name ≠ "version" then .error .unknownArgument
        else if value.isSome then .error .surplusValue
        else .error (if name = "help" then .help else .version)
      | .short letters =>
        .error (if letters.head? = some 'h' then .help
          else if letters.head? = some 'V' then .version
          else .unknownArgument)

end YangBinding.CommandLine
