import YangBinding.Json.Cursor

namespace YangBinding.Json

def hexDigit? (c : Char) : Option Nat :=
  let n := c.toNat
  if 48 ≤ n ∧ n ≤ 57 then some (n - 48)
  else if 97 ≤ n ∧ n ≤ 102 then some (n - 87)
  else if 65 ≤ n ∧ n ≤ 70 then some (n - 55)
  else none

def hexUnit? (a b c d : Char) : Option Nat := do
  let a ← hexDigit? a
  let b ← hexDigit? b
  let c ← hexDigit? c
  let d ← hexDigit? d
  return a * 4096 + b * 256 + c * 16 + d

-- The fault of a `\u` whose next four bytes, from `p` on, are not four hexadecimal digits.
def hexFault (cs : List Char) (p : Position) : Fault :=
  let bytes := (cs.take 4).foldl (fun bytes c => bytes + c.utf8Size) 0
  if 4 ≤ bytes then ⟨.invalidEscape, p.pastBytes 4 cs⟩
  else ⟨.endInString, p.pastAll cs⟩

-- The character behind a one-letter escape.
def shortEscape? (c : Char) : Option Char :=
  if c == '"' || c == '\\' || c == '/' then some c
  else if c == 'b' then some '\x08'
  else if c == 'f' then some '\x0c'
  else if c == 'n' then some '\n'
  else if c == 'r' then some '\r'
  else if c == 't' then some '\t'
  else none

def isHighSurrogate (n : Nat) : Bool := 0xD800 ≤ n && n ≤ 0xDBFF

def isLowSurrogate (n : Nat) : Bool := 0xDC00 ≤ n && n ≤ 0xDFFF

def joinSurrogates (high low : Nat) : Char :=
  Char.ofNat ((high - 0xD800) * 0x400 + (low - 0xDC00) + 0x10000)

-- Reads a string after its opening quote, up to and including the closing one.
def readString : List Char → Position → Except Fault (List Char × Cursor)
  | [], p => .error ⟨.endInString, p⟩
  | c :: cs, p =>
    if c == '"' then .ok ([], ⟨cs, p.past c⟩)
    else if c == '\\' then
      let p := p.past c
      match cs with
      | [] => .error ⟨.endInString, p⟩
      | e :: cs =>
        if e == 'u' then
          let p := p.past e
          match cs with
          | h₁ :: h₂ :: h₃ :: h₄ :: cs' =>
            match hexUnit? h₁ h₂ h₃ h₄ with
            | none => .error (hexFault cs p)
            | some unit =>
              let p := p.pastAll [h₁, h₂, h₃, h₄]
              if isLowSurrogate unit then .error ⟨.loneSurrogate, p⟩
              else if isHighSurrogate unit then
                match cs' with
                | [] => .error ⟨.endInString, p⟩
                | [b] =>
                  if b == '\\' then .error ⟨.endInString, p.past b⟩
                  else .error ⟨.unpairedSurrogate, p.pastByte b⟩
                | b :: u :: cs'' =>
                  if b != '\\' then .error ⟨.unpairedSurrogate, p.pastByte b⟩
                  else if u != 'u' then .error ⟨.unpairedSurrogate, (p.past b).pastByte u⟩
                  else
                    let p := (p.past b).past u
                    match cs'' with
                    | l₁ :: l₂ :: l₃ :: l₄ :: rest =>
                      match hexUnit? l₁ l₂ l₃ l₄ with
                      | none => .error (hexFault cs'' p)
                      | some low =>
                        let p := p.pastAll [l₁, l₂, l₃, l₄]
                        if isLowSurrogate low then
                          (readString rest p).map fun (text, k) =>
                            (joinSurrogates unit low :: text, k)
                        else .error ⟨.loneSurrogate, p⟩
                    | short => .error (hexFault short p)
              else (readString cs' p).map fun (text, k) => (Char.ofNat unit :: text, k)
          | short => .error (hexFault short p)
        else
          match shortEscape? e with
          | some image => (readString cs (p.past e)).map fun (text, k) => (image :: text, k)
          | none => .error ⟨.invalidEscape, p.pastByte e⟩
    else if c.toNat < 0x20 then .error ⟨.controlCharacter, p.pastByte c⟩
    else (readString cs (p.past c)).map fun (text, k) => (c :: text, k)

-- Passes over a string after its opening quote. Its escapes need only be well formed: half a
-- surrogate pair is no fault where the text is not wanted. A control character is not consumed.
def skipString : List Char → Position → Except Fault Cursor
  | [], p => .error ⟨.endInString, p⟩
  | c :: cs, p =>
    if c == '"' then .ok ⟨cs, p.past c⟩
    else if c == '\\' then
      let p := p.past c
      match cs with
      | [] => .error ⟨.endInString, p⟩
      | e :: cs =>
        if e == 'u' then
          let p := p.past e
          match cs with
          | h₁ :: h₂ :: h₃ :: h₄ :: cs' =>
            match hexUnit? h₁ h₂ h₃ h₄ with
            | none => .error (hexFault cs p)
            | some _ => skipString cs' (p.pastAll [h₁, h₂, h₃, h₄])
          | short => .error (hexFault short p)
        else
          match shortEscape? e with
          | some _ => skipString cs (p.past e)
          | none => .error ⟨.invalidEscape, p.pastByte e⟩
    else if c.toNat < 0x20 then .error ⟨.controlCharacter, p⟩
    else skipString cs (p.past c)

-- Reads a string whose opening quote is the next character.
def Cursor.string (k : Cursor) : Except Fault (String × Cursor) :=
  let k := k.advance
  (readString k.rest k.position).map fun (text, k) => (String.ofList text, k)

end YangBinding.Json
