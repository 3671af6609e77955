import YangBinding.Files.Host
import YangBinding.Files.Path

namespace YangBinding.Files

-- A path and the paths above it, the path itself first. Each is shorter than the one before, so
-- `fuel` need not exceed the length of the path.
def ancestorsFrom : Nat → String → List String
  | 0, path => [path]
  | fuel + 1, path =>
    match parent? path with
    | some parent => path :: ancestorsFrom fuel parent
    | none => [path]

def ancestors (path : String) : List String := ancestorsFrom path.length path

-- No path goes deeper: each step takes a name and a slash of the 4096 bytes that a path may have.
def depthLimit : Nat := 4096

variable {m : Type → Type} [Monad m]

def isDirectory (host : Host m) (path : String) : m Bool := do
  return (← host.kind? path) = some .directory

-- Makes the first of some ancestors, after those that are missing above it. A directory that is
-- there already is as good as a new one.
def makeChain (host : Host m) : List String → m (Except OsError Unit)
  | [] => return .error (.other "failed to create whole tree")
  | path :: above => do
    if path.isEmpty then return .ok ()
    match ← host.makeDir path with
    | .ok () => return .ok ()
    | .error .notFound =>
      match ← makeChain host above with
      | .error e => return .error e
      | .ok () =>
        match ← host.makeDir path with
        | .ok () => return .ok ()
        | .error e => if ← isDirectory host path then return .ok () else return .error e
    | .error e => if ← isDirectory host path then return .ok () else return .error e

-- Makes a directory and all that are missing above it.
def makeDirs (host : Host m) (path : String) : m (Except OsError Unit) :=
  makeChain host (ancestors path)

-- The first of some paths that leads to something other than a directory.
def firstFile? (host : Host m) : List String → m (Option String)
  | [] => return none
  | path :: rest => do
    match ← host.kind? path with
    | some .file => return some path
    | _ => firstFile? host rest

-- The outermost path on the way to a directory where a file stands.
def blockingFile? (host : Host m) (dir : String) : m (Option String) :=
  firstFile? host (ancestors dir).reverse

end YangBinding.Files
