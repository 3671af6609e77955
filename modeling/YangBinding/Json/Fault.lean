import YangBinding.Decimal.Shortest
import YangBinding.Json.Location
import YangBinding.Json.Value
import YangBinding.Text.Quoted

namespace YangBinding.Json

-- Why a text or a value was refused. Those up to `depthExceeded` concern the text itself, the
-- others a value that does not have the wanted shape.
inductive Cause where
  | endInValue
  | endInList
  | endInObject
  | endInString
  | expectedValue
  | expectedColon
  | expectedListEnd
  | expectedObjectEnd
  | expectedWord
  | keyNotString
  | trailingComma
  | trailingCharacters
  | invalidNumber
  | numberTooLarge
  | invalidEscape
  | loneSurrogate
  | unpairedSurrogate
  | controlCharacter
  | depthExceeded
  | wrongType (found : Json) (expected : String)
  | missingField (name : String)
  | repeatedField (name : String)
  | noElements (expected : String)
  | surplusElements (count : Nat)
  | noShape (name : String)

-- A value of the wrong type, as the message shows it. Of a container only its kind is told.
def describe : Json → String
  | .null => "null"
  | .bool b => "boolean `" ++ (if b then "true" else "false") ++ "`"
  | .int n => "integer `" ++ toString n ++ "`"
  | .float x => "floating point `" ++ x.text ++ "`"
  | .str s => "string " ++ Text.quoted s
  | .arr _ => "sequence"
  | .obj _ => "map"

def Cause.message : Cause → String
  | .endInValue => "EOF while parsing a value"
  | .endInList => "EOF while parsing a list"
  | .endInObject => "EOF while parsing an object"
  | .endInString => "EOF while parsing a string"
  | .expectedValue => "expected value"
  | .expectedColon => "expected `:`"
  | .expectedListEnd => "expected `,` or `]`"
  | .expectedObjectEnd => "expected `,` or `\x7d`"
  | .expectedWord => "expected ident"
  | .keyNotString => "key must be a string"
  | .trailingComma => "trailing comma"
  | .trailingCharacters => "trailing characters"
  | .invalidNumber => "invalid number"
  | .numberTooLarge => "number out of range"
  | .invalidEscape => "invalid escape"
  | .loneSurrogate => "lone leading surrogate in hex escape"
  | .unpairedSurrogate => "unexpected end of hex escape"
  | .controlCharacter => "control character (\\u0000-\\u001F) found while parsing a string"
  | .depthExceeded => "recursion limit exceeded"
  | .wrongType found expected => "invalid type: " ++ describe found ++ ", expected " ++ expected
  | .missingField name => "missing field `" ++ name ++ "`"
  | .repeatedField name => "duplicate field `" ++ name ++ "`"
  | .noElements expected => "invalid length 0, expected " ++ expected
  | .surplusElements count =>
    "invalid length " ++ toString count ++ ", expected fewer elements in array"
  | .noShape name => "data did not match any variant of untagged enum " ++ name

-- A cause, and the place in the text where it came up.
structure Fault where
  cause : Cause
  position : Position

-- A refusal: the value it concerns, the cause, and the place if a text was read.
structure Refusal where
  trail : Trail
  cause : Cause
  position : Option Position

def Refusal.message (r : Refusal) : String :=
  r.cause.message ++ (match r.position with
    | some p => p.text
    | none => "")

def Fault.on (fault : Fault) (trail : Trail) : Refusal :=
  ⟨trail, fault.cause, some fault.position⟩

end YangBinding.Json
