import YangBinding.Text.Blank

namespace YangBinding.Java

def isNameStart (c : Char) : Bool := c.isAlpha || c == '_' || c == '$'

def isNamePart (c : Char) : Bool := isNameStart c || c.isDigit

def isPackageSegment : List Char → Bool
  | [] => false
  | c :: cs => isNameStart c && cs.all isNamePart

-- The segments of a package name, which points divide.
def packageSegments (package : String) : List (List Char) :=
  Text.pieces (· == '.') package.toList

-- A package name is made of plain segments: ASCII letters, digits, `_` and `$`, and no digit first.
def isPackageName (package : String) : Bool := (packageSegments package).all isPackageSegment

def invalidPackageMessage (package : String) : String :=
  "\"" ++ package ++ "\" is not a valid Java package name"

end YangBinding.Java
