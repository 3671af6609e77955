import YangBinding.Files.Directories
import YangBinding.Glob.Pattern

namespace YangBinding.Glob

open Files (Host OsError)

-- A pattern cut at its slashes, the directory it starts from, and whether it asks for
-- directories only.
structure PathPattern where
  start : String
  components : List (List Token)
  directoriesOnly : Bool

-- Cuts a pattern at its slashes. One at the end asks for directories and adds no component.
def slashComponents (cs : List Char) : List (List Char) :=
  let pieces := Text.pieces (· == '/') cs
  if pieces.getLast? = some [] then pieces.dropLast else pieces

-- A pattern as a whole and each of its components must be well formed.
def parsePath (pattern : String) : Except PatternError PathPattern := do
  let cs := pattern.toList
  let _ ← parse cs
  let absolute := cs.head? = some '/'
  let components ← (slashComponents (if absolute then cs.drop 1 else cs)).mapM parse
  return {
    start := if absolute then "/" else "."
    components := if absolute && cs.length = 1 then [[]] else components
    directoriesOnly := cs.getLast? = some '/' }

-- A path that is still to be matched: against the components given, or none if it is a match.
structure Pending where
  path : String
  isDirectory : Bool
  components : List (List Token)

structure ExpandError where
  path : String
  error : OsError
deriving Repr, DecidableEq

def ExpandError.message (e : ExpandError) : String :=
  "attempting to read `" ++ e.path ++ "` resulted in an error: " ++ e.error.message

def byName (a b : String) : Bool := a ≤ b

-- Whether a path is the starting directory: a point, and after it nothing but points and slashes
-- that stay there.
def isStart (path : String) : Bool :=
  match Text.pieces (· == '/') path.toList with
  | first :: rest => first == ['.'] && rest.all fun piece => piece.isEmpty || piece == ['.']
  | [] => false

-- Names inside the starting directory are written without it.
def below (directory name : String) : String :=
  if isStart directory then name else Files.join directory name

variable {m : Type → Type} [Monad m]

-- What is to be matched inside a directory, in order. A component without wildcards is looked up
-- and not searched for; one that starts with a point also reaches the directory itself and the
-- one above it, which are never listed.
def fill (host : Host m) (directory : String) (isDirectory : Bool) :
    List (List Token) → ExceptT ExpandError m (List Pending)
  | [] => return [⟨directory, isDirectory, []⟩]
  | component :: rest =>
    match literal? component with
    | some name => do
      let name := String.ofList name
      let path := below directory name
      let kind ← host.kind? path
      let reached := if name = "." || name = ".." then isDirectory else kind.isSome
      if reached then fill host path (kind = some .directory) rest else return []
    | none => do
      if !isDirectory then return []
      match ← host.list directory with
      | .error e => throw ⟨directory, e⟩
      | .ok names =>
        let children ← (names.mergeSort byName).mapM fun name => do
          let path := below directory name
          return (⟨path, (← host.kind? path) = some .directory, component :: rest⟩ : Pending)
        let special := fun name : String => do
          if component.head? = some (.char '.') && matchesName component name.toList then
            let path := Files.join directory name
            fill host path (← ExceptT.lift (Files.isDirectory host path)) rest
          else return []
        return (← special "..") ++ (← special ".") ++ children

-- The last name in a path.
def lastName (path : String) : List Char :=
  (Text.pieces (· == '/') path.toList).getLast?.getD []

-- The components after a run of recursive wildcards.
def afterRecursive (components : List (List Token)) : List (List Token) :=
  components.dropWhile isRecursive

-- The matches that a pending path leads to. A recursive wildcard takes the path, if it is a
-- directory, and then all that is inside it, so a directory comes before its contents. `depth`
-- bounds how far below the path matches are looked for.
def search (host : Host m) (directoriesOnly : Bool) :
    Nat → Pending → ExceptT ExpandError m (List String)
  | 0, _ => return []
  | depth + 1, pending => do
    let keep := if directoriesOnly && !pending.isDirectory then [] else [pending.path]
    match pending.components with
    | [] => return keep
    | component :: rest =>
      let recursive := isRecursive component
      let following := if recursive then afterRecursive rest else component :: rest
      let deeper ←
        if recursive && pending.isDirectory then
          fill host pending.path true (component :: following)
        else pure []
      let own ← match following with
        | [] => pure (if pending.isDirectory then [pending.path] else [])
        | component :: rest =>
          if matchesName component (lastName pending.path) then
            if rest.isEmpty then pure keep
            else do
              let inside ← fill host pending.path pending.isDirectory rest
              return (← inside.mapM (search host directoriesOnly depth)).flatten
          else pure []
      return own ++ (← deeper.mapM (search host directoriesOnly depth)).flatten

-- All paths that match a pattern.
def expand (host : Host m) (pattern : PathPattern) : ExceptT ExpandError m (List String) := do
  if pattern.components.isEmpty then return []
  let isDirectory ← ExceptT.lift (Files.isDirectory host pattern.start)
  let pending ← fill host pattern.start isDirectory pattern.components
  return (← pending.mapM (search host pattern.directoriesOnly Files.depthLimit)).flatten

end YangBinding.Glob
