import YangBinding.Text.Blank
import YangBinding.Text.Case

namespace YangBinding.Java

-- A hyphen or a point divides an identifier into segments.
def isDivider (c : Char) : Bool := c == '-' || c == '.'

-- The segments of an identifier that are not empty.
def segments (ident : String) : List (List Char) :=
  (Text.pieces isDivider ident.toList).filter fun segment => !segment.isEmpty

-- The class named after an identifier: its segments one after the other, each with its first
-- letter in upper case.
def className (ident : String) : String :=
  String.ofList ((segments ident).flatMap Text.upperFirst)

-- The class name with its first letter in lower case.
def lowerCamel (ident : String) : String :=
  String.ofList (Text.lowerFirst (className ident).toList)

-- Words that cannot name a variable.
def reserved : List String := [
  "abstract", "assert", "boolean", "break", "byte", "case", "catch", "char", "class", "const",
  "continue", "default", "do", "double", "else", "enum", "extends", "false", "final", "finally",
  "float", "for", "goto", "if", "implements", "import", "instanceof", "int", "interface", "long",
  "native", "new", "null", "package", "private", "protected", "public", "return", "short",
  "static", "strictfp", "super", "switch", "synchronized", "this", "throw", "throws",
  "transient", "true", "try", "void", "volatile", "while"]

-- The field or variable named after an identifier. An underscore sets it apart from a
-- reserved word.
def memberName (ident : String) : String :=
  let name := lowerCamel ident
  if reserved.contains name then name ++ "_" else name

-- The parameter that carries a value of the node named `ident`.
def valueParam (ident : String) : String := lowerCamel ident ++ "Value"

end YangBinding.Java
