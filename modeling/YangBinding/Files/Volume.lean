import YangBinding.Files.Host
import YangBinding.Files.Path

namespace YangBinding.Files

-- A file holds a text, or bytes that are not the encoding of one.
inductive Content where
  | text (s : String)
  | binary (bytes : List UInt8)
deriving Repr, DecidableEq

inductive Entry where
  | file (content : Content)
  | directory
deriving Repr, DecidableEq

-- The names from the root to an entry.
abbrev Location := List String

-- The entries of a file system below its root, which is always there.
structure Volume where
  entries : List (Location × Entry)
deriving Repr, DecidableEq

namespace Volume

def empty : Volume := ⟨[]⟩

def entry? (v : Volume) (location : Location) : Option Entry :=
  if location.isEmpty then some .directory else v.entries.lookup location

-- Puts an entry at a location, in place of what was there.
def put (v : Volume) (location : Location) (entry : Entry) : Volume :=
  if (v.entries.lookup location).isSome then
    ⟨v.entries.map fun (other, old) =>
      if other = location then (other, entry) else (other, old)⟩
  else ⟨v.entries ++ [(location, entry)]⟩

-- The names of the entries directly inside a directory.
def names (v : Volume) (directory : Location) : List String :=
  v.entries.filterMap fun (location, _) =>
    match location.getLast? with
    | some name => if location.dropLast = directory then some name else none
    | none => none

end Volume

-- The longest name of an entry, and the longest path that can be asked for, in bytes.
def nameLimit : Nat := 255

def pathLimit : Nat := 4095

def checkName (name : String) : Except OsError Unit :=
  if nameLimit < name.utf8ByteSize then .error .nameTooLong else .ok ()

-- Where a path leads, as far as that is settled by its last component: to a directory that is
-- there, or to a name inside one. A slash at the end asks for a directory.
inductive Target where
  | directory (location : Location)
  | name (parent : Location) (name : String) (slash : Bool)

namespace Volume

-- Goes from a directory to one inside it or above it.
def enter (v : Volume) (here : Location) (name : String) : Except OsError Location :=
  if name = "." then .ok here
  else if name = ".." then .ok here.dropLast
  else do
    checkName name
    match v.entry? (here ++ [name]) with
    | none => throw .notFound
    | some (.file _) => throw .notDirectory
    | some .directory => return here ++ [name]

-- The directory that a path starts from.
def start (cwd : Location) (path : String) : Location :=
  if path.toList.head? = some '/' then [] else cwd

-- Follows a path from the directory `cwd`, up to its last component.
def resolve (v : Volume) (cwd : Location) (path : String) : Except OsError Target := do
  let chars := path.toList
  if chars.contains (Char.ofNat 0) then throw .nulInPath
  if chars.isEmpty then throw .notFound
  if pathLimit < path.utf8ByteSize then throw .nameTooLong
  let names := pathNames chars
  match names.getLast? with
  | none => return .directory (start cwd path)
  | some last =>
    let parent ← names.dropLast.foldlM v.enter (start cwd path)
    if last = "." then return .directory parent
    else if last = ".." then return .directory parent.dropLast
    else return .name parent last (chars.getLast? = some '/')

-- What a path leads to.
def find (v : Volume) (cwd : Location) (path : String) : Except OsError (Location × Entry) := do
  match ← v.resolve cwd path with
  | .directory location => return (location, .directory)
  | .name parent name slash =>
    checkName name
    match v.entry? (parent ++ [name]) with
    | none => throw .notFound
    | some (.file content) =>
      if slash then throw .notDirectory else return (parent ++ [name], .file content)
    | some .directory => return (parent ++ [name], .directory)

def read (v : Volume) (cwd : Location) (path : String) : Except OsError String := do
  match ← v.find cwd path with
  | (_, .file (.text s)) => return s
  | (_, .file (.binary _)) => throw .notText
  | (_, .directory) => throw .isDirectory

-- Writes a text to a file, which is made if it is not there. No path with a slash at its end
-- is a file.
def write (v : Volume) (cwd : Location) (path text : String) : Except OsError Volume := do
  match ← v.resolve cwd path with
  | .directory _ => throw .isDirectory
  | .name parent name slash =>
    if slash then throw .isDirectory
    checkName name
    if v.entry? (parent ++ [name]) = some .directory then throw .isDirectory
    return v.put (parent ++ [name]) (.file (.text text))

-- Makes one directory where nothing is.
def makeDir (v : Volume) (cwd : Location) (path : String) : Except OsError Volume := do
  match ← v.resolve cwd path with
  | .directory _ => throw .alreadyExists
  | .name parent name _ =>
    checkName name
    if (v.entry? (parent ++ [name])).isSome then throw .alreadyExists
    return v.put (parent ++ [name]) .directory

def kind? (v : Volume) (cwd : Location) (path : String) : Option EntryKind :=
  match v.find cwd path with
  | .ok (_, .file _) => some .file
  | .ok (_, .directory) => some .directory
  | .error _ => none

def list (v : Volume) (cwd : Location) (path : String) : Except OsError (List String) := do
  match ← v.find cwd path with
  | (location, .directory) => return v.names location
  | (_, .file _) => throw .notDirectory

end Volume

-- A machine in memory: its files, the directory that paths start from, and the documentation
-- tool, of which the last call is kept. Without a tool nothing can be called.
structure Machine where
  volume : Volume
  cwd : Location
  tool : Option ExitStatus
  call : Option (List String)
deriving Repr, DecidableEq

namespace Machine

-- Runs a step that may change the files.
def change (step : Volume → Location → Except OsError Volume) :
    StateM Machine (Except OsError Unit) := fun machine =>
  match step machine.volume machine.cwd with
  | .ok volume => (.ok (), { machine with volume := volume })
  | .error e => (.error e, machine)

def host : Host (StateM Machine) where
  read path := fun machine => (machine.volume.read machine.cwd path, machine)
  write path text := change fun volume cwd => volume.write cwd path text
  makeDir path := change fun volume cwd => volume.makeDir cwd path
  kind? path := fun machine => (machine.volume.kind? machine.cwd path, machine)
  list path := fun machine => (machine.volume.list machine.cwd path, machine)
  javadoc args := fun machine =>
    match machine.tool with
    | some status => (.ok status, { machine with call := some args })
    | none => (.error .notFound, machine)

end Machine

end YangBinding.Files
