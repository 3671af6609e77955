namespace YangBinding

-- Why a forest cannot be compiled.
inductive CompileError where
  | missingKeyDefinition (list key : String)
  | missingKeyStatement (list : String)
  | missingStatement (parentKeyword parent keyword : String)
  | unexpectedTopLevel (keyword : String)
deriving Repr, DecidableEq

def CompileError.message : CompileError → String
  | .missingKeyDefinition list key =>
    "list \"" ++ list ++ "\" names key \"" ++ key ++ "\" but has no leaf with that name"
  | .missingKeyStatement list => "list \"" ++ list ++ "\" has no key statement"
  | .missingStatement parentKeyword parent keyword =>
    parentKeyword ++ " \"" ++ parent ++ "\" is missing its " ++ keyword ++ " statement"
  | .unexpectedTopLevel keyword =>
    "unrecognized keyword: " ++ keyword ++
      ", top-level element should be module or submodule"

end YangBinding
