import YangBinding.Decimal.Shortest
import YangBinding.Json.Value

namespace YangBinding.Json

-- One character inside a JSON string: only quotes, backslashes and controls are escaped.
def escapeChar (c : Char) : List Char :=
  if c == '"' then ['\\', '"']
  else if c == '\\' then ['\\', '\\']
  else if c == '\x08' then ['\\', 'b']
  else if c == '\x0c' then ['\\', 'f']
  else if c == '\n' then ['\\', 'n']
  else if c == '\r' then ['\\', 'r']
  else if c == '\t' then ['\\', 't']
  else if c.toNat < 0x20 then
    ['\\', 'u', '0', '0', Nat.digitChar (c.toNat / 16), Nat.digitChar (c.toNat % 16)]
  else [c]

def literal (s : String) : String :=
  String.ofList (['"'] ++ s.toList.flatMap escapeChar ++ ['"'])

mutual

-- The text of a value without any blanks.
def compact : Json → String
  | .null => "null"
  | .bool b => if b then "true" else "false"
  | .int n => toString n
  | .float x => x.text
  | .str s => literal s
  | .arr items => "[" ++ String.intercalate "," (compactItems items) ++ "]"
  | .obj fields => "\x7b" ++ String.intercalate "," (compactFields fields) ++ "\x7d"

def compactItems : List Json → List String
  | [] => []
  | item :: rest => compact item :: compactItems rest

def compactFields : List (String × Json) → List String
  | [] => []
  | (name, value) :: rest => (literal name ++ ":" ++ compact value) :: compactFields rest

end

-- A container over several lines, or on one if it is empty.
def block (opening closing indent : String) (lines : List String) : String :=
  if lines.isEmpty then opening ++ closing
  else
    opening ++ "\n" ++ String.intercalate ",\n" lines ++ "\n" ++ indent ++ closing

mutual

-- The text of a value with a line for each element, two spaces deeper than its container.
def pretty (indent : String) : Json → String
  | .arr items => block "[" "]" indent (prettyItems (indent ++ "  ") items)
  | .obj fields => block "\x7b" "\x7d" indent (prettyFields (indent ++ "  ") fields)
  | scalar => compact scalar

def prettyItems (indent : String) : List Json → List String
  | [] => []
  | item :: rest => (indent ++ pretty indent item) :: prettyItems indent rest

def prettyFields (indent : String) : List (String × Json) → List String
  | [] => []
  | (name, value) :: rest =>
    (indent ++ literal name ++ ": " ++ pretty indent value) :: prettyFields indent rest

end

end YangBinding.Json
