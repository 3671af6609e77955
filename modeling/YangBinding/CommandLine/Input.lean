import YangBinding.CommandLine.Command
import YangBinding.Glob.Expand
import YangBinding.Json.Pointer
import YangBinding.Statement.Node
import YangBinding.Statement.Reader

namespace YangBinding.CommandLine

open Files (Host OsError)

-- Why the documents could not be loaded.
inductive InputError where
  | unreadable (path : String) (error : OsError)
  | malformed (path : String) (refusal : Json.Refusal)
  | pointerMiss (path pointer : String)
  | badPattern (error : Glob.PatternError)
  | expansion (error : Glob.ExpandError)
  | noMatches (pattern : String)

def InputError.message : InputError → String
  | .unreadable path error => "failed to read " ++ path ++ ": " ++ error.message
  | .malformed path refusal => Statement.refusalMessage path refusal
  | .pointerMiss path pointer => "JSON pointer " ++ pointer ++ " selects nothing in " ++ path
  | .badPattern error => "invalid input pattern: " ++ error.message
  | .expansion error => "failed to expand input pattern: " ++ error.message
  | .noMatches pattern => "glob pattern matched no files: " ++ pattern

-- The message, and that of what is behind the error.
def InputError.chain (e : InputError) : List String :=
  e.message :: (match e with
    | .unreadable _ error => [error.message]
    | .badPattern error => [error.message]
    | .expansion error => [error.message]
    | _ => [])

-- Whether a path is meant as a pattern.
def isPattern (path : String) : Bool := path.toList.any fun c => c == '*' || c == '?' || c == '['

-- The part of a document that a pointer selects, or all of it.
def selectPart (path : String) (pointer : Option String) (value : Json) :
    Except InputError Json :=
  match pointer with
  | none => .ok value
  | some pointer =>
    match Json.pointer? pointer value with
    | some part => .ok part
    | none => .error (.pointerMiss path pointer)

-- The statements in the text of a document. Of fields with the same name the last one counts.
def readDocument (path : String) (pointer : Option String) (text : String) :
    Except InputError Forest := do
  let value ← (Json.parse text).mapError (.malformed path)
  let part ← selectPart path pointer value.distinct
  (Statement.documentOfJson part).mapError (.malformed path)

variable {m : Type → Type} [Monad m]

-- The paths that a pattern stands for. One that stands for nothing is an error.
def resolvePattern (host : Host m) (pattern : String) : ExceptT InputError m (List String) := do
  if isPattern pattern then
    match Glob.parsePath pattern with
    | .error e => throw (.badPattern e)
    | .ok parsed =>
      match ← ExceptT.lift (Glob.expand host parsed).run with
      | .error e => throw (.expansion e)
      | .ok [] => throw (.noMatches pattern)
      | .ok paths => return paths
  else return [pattern]

def loadFile (host : Host m) (pointer : Option String) (path : String) :
    ExceptT InputError m Forest := do
  match ← ExceptT.lift (host.read path) with
  | .error e => throw (.unreadable path e)
  | .ok text => ExceptT.mk (pure (readDocument path pointer text))

-- Reads all documents, in order, into one forest. Nothing is read before all patterns are
-- resolved.
def load (host : Host m) (settings : InputSettings) : ExceptT InputError m Forest := do
  let paths ← settings.patterns.mapM (resolvePattern host)
  let forests ← paths.flatten.mapM (loadFile host settings.pointer)
  return forests.flatten

end YangBinding.CommandLine
