import YangBinding.Json.Fault

namespace YangBinding.Json

-- What is left of a text, and where it starts.
structure Cursor where
  rest : List Char
  position : Position

namespace Cursor

def ofText (s : String) : Cursor := ⟨s.toList, .start⟩

-- The four characters that JSON allows between tokens.
def isGap (c : Char) : Bool := c == ' ' || c == '\n' || c == '\t' || c == '\r'

def skipGapsFrom : List Char → Position → Cursor
  | [], p => ⟨[], p⟩
  | c :: cs, p => if isGap c then skipGapsFrom cs (p.past c) else ⟨c :: cs, p⟩

def skipGaps (k : Cursor) : Cursor := skipGapsFrom k.rest k.position

-- The cursor after the first character.
def advance (k : Cursor) : Cursor :=
  match k.rest with
  | [] => k
  | c :: cs => ⟨cs, k.position.past c⟩

-- A fault about what has been read so far.
def here (k : Cursor) (cause : Cause) : Fault := ⟨cause, k.position⟩

-- A fault about the next byte, which the place includes if there is one.
def next (k : Cursor) (cause : Cause) : Fault :=
  ⟨cause, match k.rest with
    | [] => k.position
    | c :: _ => k.position.pastByte c⟩

end Cursor

-- Reads the rest of `null`, `true` or `false`.
def readWord : List Char → Cursor → Except Fault Cursor
  | [], k => .ok k
  | expected :: more, k =>
    match k.rest with
    | [] => .error (k.here .endInValue)
    | c :: cs =>
      if c = expected then readWord more ⟨cs, k.position.past c⟩
      else .error (k.next .expectedWord)

end YangBinding.Json
