import YangBinding.Json.Cursor

namespace YangBinding.Json

def digitValue (c : Char) : Nat := c.toNat - 48

-- Takes the digits that are next.
def Cursor.digits (k : Cursor) : List Char × Cursor :=
  let taken := k.rest.takeWhile Char.isDigit
  (taken, ⟨k.rest.dropWhile Char.isDigit, ⟨k.position.line, k.position.column + taken.length⟩⟩)

-- Appends digits to a number as long as it stays below `bound`; the others are left.
def appendDigits (bound : Nat) : Nat → List Char → Nat × List Char
  | n, [] => (n, [])
  | n, c :: cs =>
    if n * 10 + digitValue c < bound then appendDigits bound (n * 10 + digitValue c) cs
    else (n, c :: cs)

-- Significant digits fit 64 bits, the digits of an exponent 31.
def significandBound : Nat := Nat.pow 2 64

def exponentBound : Nat := Nat.pow 2 31

def signed (negative : Bool) (x : Binary64) : Json :=
  .float (if negative then x.negate else x)

def readScaled (negative : Bool) (significand : Nat) (exponent : Int) (k : Cursor) :
    Except Fault (Json × Cursor) :=
  match Binary64.ofDigits? significand exponent with
  | some x => .ok (signed negative x, k)
  | none => .error (k.here .numberTooLarge)

-- The sign of an exponent, which may be left out.
def Cursor.exponentSign (k : Cursor) : Bool × Cursor :=
  match k.rest with
  | c :: _ => if c == '+' then (false, k.advance) else if c == '-' then (true, k.advance) else (false, k)
  | [] => (false, k)

-- Reads an exponent after its `e`. Its digits count up to the first that leaves 31 bits, where the
-- value is settled: too large, or zero.
def readExponent (negative : Bool) (significand : Nat) (start : Int) (k : Cursor) :
    Except Fault (Json × Cursor) :=
  let (below, k) := k.exponentSign
  match k.rest with
  | [] => .error (k.here .endInValue)
  | c :: _ =>
    if !c.isDigit then .error (k.next .invalidNumber)
    else
      let (digits, after) := k.digits
      match appendDigits exponentBound 0 digits with
      | (exponent, []) =>
        readScaled negative significand (if below then start - exponent else start + exponent) after
      | (_, left) =>
        if significand ≠ 0 ∧ !below then
          let read := digits.length - left.length + 1
          .error ⟨.numberTooLarge, ⟨k.position.line, k.position.column + read⟩⟩
        else .ok (signed negative .zero, after)

-- Reads a fraction after its point. `before` counts the digits of the whole part that were not
-- taken into the significand.
def readFraction (negative : Bool) (significand : Nat) (before : Nat) (k : Cursor) :
    Except Fault (Json × Cursor) :=
  let (digits, after) := k.digits
  if digits.isEmpty then
    .error (k.next (if k.rest.isEmpty then .endInValue else .invalidNumber))
  else
    let (significand, left) := appendDigits significandBound significand digits
    let exponent : Int := (before : Int) - ((digits.length - left.length : Nat) : Int)
    match after.rest with
    | c :: _ =>
      if c == 'e' || c == 'E' then readExponent negative significand exponent after.advance
      else readScaled negative significand exponent after
    | [] => readScaled negative significand exponent after

-- A whole number: exact in 64 bits, of which one is the sign below zero, else a double. The
-- negative zero is a double too.
def wholeNumber (negative : Bool) (n : Nat) : Json :=
  if !negative then .int n
  else if 0 < n ∧ n ≤ Nat.pow 2 63 then .int (-(n : Int))
  else signed true ((Binary64.ofQuotient? n 1).getD .zero)

-- Reads a number whose sign, if any, has been passed.
def readNumber (negative : Bool) (k : Cursor) : Except Fault (Json × Cursor) :=
  match k.rest with
  | [] => .error (k.here .endInValue)
  | c :: cs =>
    if !c.isDigit then .error (k.next .invalidNumber)
    else if c == '0' && (cs.head?.any Char.isDigit) then
      .error (k.advance.next .invalidNumber)
    else
      let (digits, after) := k.digits
      let (significand, left) := appendDigits significandBound 0 digits
      match after.rest.head? with
      | some '.' => readFraction negative significand left.length after.advance
      | some 'e' => readExponent negative significand left.length after.advance
      | some 'E' => readExponent negative significand left.length after.advance
      | _ =>
        if left.isEmpty then .ok (wholeNumber negative significand, after)
        else readScaled negative significand left.length after

-- Passes over an exponent after its `e`.
def skipExponent (k : Cursor) : Except Fault Cursor :=
  let (_, k) := k.exponentSign
  match k.rest with
  | c :: _ => if c.isDigit then .ok k.digits.2 else .error (k.next .invalidNumber)
  | [] => .error (k.next .invalidNumber)

-- Passes over a number whose sign has been passed. Only its form counts, so there is no number
-- too large, and a text that ends early is no number.
def skipNumber (k : Cursor) : Except Fault Cursor :=
  match k.rest with
  | [] => .error (k.next .invalidNumber)
  | c :: cs =>
    if !c.isDigit then .error (k.next .invalidNumber)
    else if c == '0' && (cs.head?.any Char.isDigit) then
      .error (k.advance.next .invalidNumber)
    else
      let after := k.digits.2
      match after.rest.head? with
      | some '.' =>
        let (digits, last) := after.advance.digits
        if digits.isEmpty then .error (after.advance.next .invalidNumber)
        else match last.rest.head? with
          | some 'e' => skipExponent last.advance
          | some 'E' => skipExponent last.advance
          | _ => .ok last
      | some 'e' => skipExponent after.advance
      | some 'E' => skipExponent after.advance
      | _ => .ok after

end YangBinding.Json
