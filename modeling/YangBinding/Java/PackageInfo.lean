import YangBinding.Java.Source

namespace YangBinding.Java

-- A class in the index of a package, and the classes inside it.
inductive IndexEntry where
  | mk (className : String) (children : List IndexEntry)

mutual

-- Lists a class and those inside it. A name that has been listed is left out, along with all
-- that is inside it.
def indexClass (seen : List String) : ClassTree → List String × Option IndexEntry
  | .mk spec children =>
    if seen.contains spec.name then (seen, none)
    else
      let inner := indexClasses (spec.name :: seen) children
      (inner.1, some (.mk spec.name inner.2))

def indexClasses (seen : List String) : List ClassTree → List String × List IndexEntry
  | [] => (seen, [])
  | tree :: rest =>
    let first := indexClass seen tree
    let others := indexClasses first.1 rest
    (others.1, first.2.toList ++ others.2)

end

-- The index of some modules. Each class name stands in it once.
def index (roots : List ClassTree) : List IndexEntry := (indexClasses [] roots).2

def pad (depth : Nat) : String := String.ofList (List.replicate (8 * depth) ' ')

def link (name : String) : String := "<a href=\"" ++ name ++ ".html\">" ++ name ++ "</a>"

mutual

-- The lines of one entry: a single line, or a list of its own inside it.
def entryLines (depth : Nat) : IndexEntry → List String
  | .mk name [] => [pad depth ++ "    <li>" ++ link name ++ "</li>"]
  | .mk name (child :: more) =>
    [pad depth ++ "    <li>" ++ link name] ++
      ([pad (depth + 1) ++ "<ul>"] ++ entriesLines (depth + 1) (child :: more) ++
        [pad (depth + 1) ++ "</ul>"]) ++
      [pad depth ++ "    </li>"]

def entriesLines (depth : Nat) : List IndexEntry → List String
  | [] => []
  | entry :: rest => entryLines depth entry ++ entriesLines depth rest

end

-- The nested list that shows an index.
def htmlList (depth : Nat) (entries : List IndexEntry) : List String :=
  [pad depth ++ "<ul>"] ++ entriesLines depth entries ++ [pad depth ++ "</ul>"]

-- Documents that the package points to.
def seeAlso : List (String × String) := [
  ("https://www.rfc-editor.org/rfc/rfc6020",
    "RFC 6020: YANG - A Data Modeling Language for the Network Configuration Protocol (NETCONF)"),
  ("https://www.rfc-editor.org/rfc/rfc6241",
    "RFC 6241: Network Configuration Protocol (NETCONF)"),
  ("https://www.rfc-editor.org/rfc/rfc6242",
    "RFC 6242: Using the NETCONF Protocol over Secure Shell (SSH)")]

def originText (m : ModuleModel) : String :=
  "module \"" ++ m.module ++ "\" (rev \"" ++ m.revision.getD "unknown" ++ "\")"

-- The comment of the package, line by line.
def packageComment (modules : List ModuleModel) : List String :=
  ["",
    "This class hierarchy was generated from the YANG module" ++
      (if 1 < modules.length then "s" else ""),
    String.intercalate ", " (modules.map originText) ++ ".",
    "The generated classes may be used to manipulate pieces of configuration data",
    "with NETCONF operations such as edit-config, delete-config and lock.",
    ""] ++
  htmlList 0 (index (modules.map ModuleModel.root))

def commentLine (line : String) : String := if line.isEmpty then " *" else " * " ++ line

-- The file that documents the package of some modules.
def packageInfo (package : String) (modules : List ModuleModel) : String :=
  joinLines (["/**"] ++ (packageComment modules).map commentLine ++ [" *"] ++
    (seeAlso.map fun (href, title) =>
      " * @see <a target=\"_top\" href=\"" ++ href ++ "\">" ++ title ++ "</a>") ++
    [" */", "package " ++ package ++ ";"])

end YangBinding.Java
