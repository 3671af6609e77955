import Std.Time.Zoned
import YangBinding.CommandLine.Run

namespace YangBinding.Terminal

open Files (Host OsError)

-- The number and the text that the system gives with an error.
def systemError : IO.Error → UInt32 × String
  | .alreadyExists _ code text => (code, text)
  | .otherError code text => (code, text)
  | .resourceBusy code text => (code, text)
  | .resourceVanished code text => (code, text)
  | .unsupportedOperation code text => (code, text)
  | .hardwareFault code text => (code, text)
  | .unsatisfiedConstraints code text => (code, text)
  | .illegalOperation code text => (code, text)
  | .protocolError code text => (code, text)
  | .timeExpired code text => (code, text)
  | .interrupted _ code text => (code, text)
  | .noFileOrDirectory _ code text => (code, text)
  | .invalidArgument _ code text => (code, text)
  | .permissionDenied _ code text => (code, text)
  | .resourceExhausted _ code text => (code, text)
  | .inappropriateType _ code text => (code, text)
  | .noSuchThing _ code text => (code, text)
  | .unexpectedEof => (0, "end of file")
  | .userError text => (0, text)

-- Some calls give the number of an error negated.
def osError (error : IO.Error) : OsError :=
  let (number, text) := systemError error
  let code := if number < 0x80000000 then number else 0 - number
  if code = 2 then .notFound
  else if code = 17 then .alreadyExists
  else if code = 20 then .notDirectory
  else if code = 21 then .isDirectory
  else if code = 36 then .nameTooLong
  else .other (text ++ " (os error " ++ toString code ++ ")")

def attempt {α : Type} (action : IO α) : IO (Except OsError α) :=
  try return .ok (← action) catch e => return .error (osError e)

def readText (path : String) : IO (Except OsError String) := do
  match ← attempt (IO.FS.readBinFile path) with
  | .error e => return .error e
  | .ok bytes =>
    match String.fromUTF8? bytes with
    | some text => return .ok text
    | none => return .error .notText

def entryKind? (path : String) : IO (Option Files.EntryKind) := do
  try
    let found ← (← IO.FS.realPath path).metadata
    return some (if found.type == .dir then .directory else .file)
  catch _ => return none

def entryNames (path : String) : IO (List String) := do
  let entries ← (← IO.FS.realPath path).readDir
  return entries.toList.map fun entry => entry.fileName

-- The files of this machine. Programs are not started from here, so there is no documentation
-- tool to be found.
def host : Host IO where
  read := readText
  write path text := attempt (IO.FS.writeFile path text)
  makeDir path := attempt (IO.FS.createDir path)
  kind? := entryKind?
  list path := attempt (entryNames path)
  javadoc _ := return .error .notFound

def today : IO Date := do
  let day ← Std.Time.PlainDate.now
  return ⟨day.year, day.month.val.toNat, day.day.val.toNat⟩

def usageText : String :=
  "usage: yang-binding generate -i FILE... -d PACKAGE [--output-root DIR] [--no-schema]\n" ++
  "         [--javadoc DIR] [--json-pointer POINTER] [--debug] [--verbose]\n" ++
  "       yang-binding schema -i FILE... [--json] [-o FILE] [--json-pointer POINTER]\n" ++
  "         [--debug] [--verbose]\n"

def versionText : String := "yang-binding 0.1.0\n"

-- Shows a text that was asked for, or how a wrong command line should look.
def explain : CommandLine.Usage → IO Unit
  | .help => IO.print usageText
  | .version => IO.print versionText
  | _ => IO.eprint usageText

-- An error, and below it what is behind it.
def errorText : List String → String
  | [] => ""
  | [error] => "Error: " ++ error ++ "\n"
  | error :: causes =>
    "Error: " ++ error ++ "\n\nCaused by:\n" ++
      String.join (causes.map fun cause => "    " ++ cause ++ "\n")

end YangBinding.Terminal

open YangBinding in
def main (args : List String) : IO UInt32 := do
  match CommandLine.parse args with
  | .error usage =>
    Terminal.explain usage
    return usage.exitCode.toUInt32
  | .ok command =>
    let report ← command.run Terminal.host (← Terminal.today)
    for remark in report.remarks do IO.eprintln remark
    IO.print report.output
    IO.eprint (Terminal.errorText report.errors)
    return report.exitCode.toUInt32
