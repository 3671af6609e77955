namespace YangBinding

-- What can be remarked on without giving up.
inductive Remark where
  | unsupportedType (typeName : String)
  | unsupportedStatement (keyword arg : String)
  | submoduleSkipped (name : String)
  | duplicateClassName (className : String)
  | duplicateTagPath
  | outputDirConflict (dir : String)
  | javadocFailed (reason : String)
deriving Repr, DecidableEq

-- The kinds of remark, regardless of their details.
inductive RemarkKind where
  | unsupportedType
  | unsupportedStatement
  | submoduleSkipped
  | duplicateClassName
  | duplicateTagPath
  | outputDirConflict
  | javadocFailed
deriving Repr, DecidableEq

def Remark.kind : Remark → RemarkKind
  | .unsupportedType _ => .unsupportedType
  | .unsupportedStatement _ _ => .unsupportedStatement
  | .submoduleSkipped _ => .submoduleSkipped
  | .duplicateClassName _ => .duplicateClassName
  | .duplicateTagPath => .duplicateTagPath
  | .outputDirConflict _ => .outputDirConflict
  | .javadocFailed _ => .javadocFailed

-- A remark about a tag path, or about a path in the file system.
structure Diagnostic where
  path : String
  remark : Remark
deriving Repr, DecidableEq

def Remark.text : Remark → String
  | .unsupportedType typeName =>
    "no support for type \"" ++ typeName ++ "\", defaulting to string"
  | .unsupportedStatement keyword arg =>
    keyword ++ " \"" ++ arg ++ "\" is not expanded and contributes no class members"
  | .submoduleSkipped name => "no support for submodule \"" ++ name ++ "\", skipped"
  | .duplicateClassName className =>
    "class " ++ className ++ " was already generated and will be overwritten"
  | .duplicateTagPath => "tag-path already has a schema record, duplicate left out"
  | .outputDirConflict dir =>
    "unable to use directory " ++ dir ++
      ", probably a non-directory file with the same name exists"
  | .javadocFailed reason => "javadoc generation failed: " ++ reason

def Diagnostic.text (d : Diagnostic) : String := d.path ++ ": " ++ d.remark.text

-- A diagnostic about the statement numbered `node`.
structure Report where
  node : Nat
  diagnostic : Diagnostic
deriving Repr, DecidableEq

def Report.sameSubject (a b : Report) : Bool :=
  a.node == b.node && a.diagnostic.remark.kind == b.diagnostic.remark.kind

-- The reports made so far, in order. There is at most one of a kind about a statement.
abbrev Reports := List Report

namespace Reports

-- Adds a report unless there is one of its kind about the same statement.
def add (reports : Reports) (report : Report) : Reports :=
  if reports.any report.sameSubject then reports else reports ++ [report]

def addAll (reports : Reports) (more : List Report) : Reports := more.foldl add reports

def diagnostics (reports : Reports) : List Diagnostic := reports.map Report.diagnostic

end Reports

end YangBinding
