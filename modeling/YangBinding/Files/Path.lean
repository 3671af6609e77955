import YangBinding.Text.Blank

namespace YangBinding.Files

-- Path texts. A slash at the front makes a path absolute, and a single point at the front is
-- kept; any other empty piece or single point between slashes counts for nothing.

def isSlash (c : Char) : Bool := c == '/'

-- The names between the slashes of a path.
def pathNames (path : List Char) : List String :=
  ((Text.pieces isSlash path).filter (!·.isEmpty)).map String.ofList

-- Appends a path to another: a slash comes between them if it is needed, and an absolute path
-- stands by itself.
def join (base piece : String) : String :=
  if piece.toList.head? == some '/' then piece
  else if base.isEmpty || base.toList.getLast? == some '/' then base ++ piece
  else base ++ "/" ++ piece

-- The slash or point at the front of a path, and the rest.
def splitLead (path : List Char) : List Char × List Char :=
  match path with
  | '/' :: rest => (['/'], rest)
  | ['.'] => (['.'], [])
  | '.' :: '/' :: rest => (['.'], '/' :: rest)
  | other => ([], other)

-- Whether a piece between slashes counts for nothing.
def isNothing (piece : List Char) : Bool := piece.isEmpty || piece == ['.']

-- Joins pieces by slashes.
def slashed (pieces : List (List Char)) : List Char := [ '/' ].intercalate pieces

-- Removes the pieces at the end that count for nothing.
def trimPieces (pieces : List (List Char)) : List (List Char) :=
  (pieces.reverse.dropWhile isNothing).reverse

-- The path without its last component. The root and the empty path have none.
def parent? (path : String) : Option String :=
  let (lead, rest) := splitLead path.toList
  match (trimPieces (Text.pieces isSlash rest)).reverse with
  | [] => if lead == ['.'] then some "" else none
  | _ :: before =>
    some (String.ofList (lead ++ slashed (trimPieces before.reverse)))

end YangBinding.Files
