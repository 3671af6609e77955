import YangBinding.Decimal.Binary64

namespace YangBinding.Binary64

-- The position of the first digit of `num / den`: the greatest `p` with `10 ^ p ≤ num / den`.
def leadingPower (num den : Nat) : Int :=
  if den ≤ num then ((Nat.toDigits 10 (num / den)).length : Int) - 1
  else
    match (List.range 400).find? (fun k => den ≤ num * Nat.pow 10 k) with
    | some k => -(k : Int)
    | none => 0

-- The reals that round to a double, in units of a quarter of its last place: the ends, the
-- value between them, and whether the ends belong to it.
structure Basin where
  low : Nat
  value : Nat
  high : Nat
  closed : Bool

def basin (x : Binary64) : Basin :=
  let narrow := x.mantissa == Nat.pow 2 52 && leastExponent < x.exponent
  ⟨4 * x.mantissa - (if narrow then 1 else 2), 4 * x.mantissa, 4 * x.mantissa + 2,
    x.mantissa % 2 == 0⟩

-- A decimal `digits * 10 ^ power`.
structure DecimalText where
  digits : Nat
  power : Int

-- Compares `digits * 10 ^ power` with `quarters * 2 ^ (e - 2)`, both brought to whole numbers.
def sides (digits : Nat) (power : Int) (quarters : Nat) (e : Int) : Nat × Nat :=
  let two := e - 2
  let left := digits * (if power < 0 then 1 else Nat.pow 10 power.natAbs) *
    (if two < 0 then Nat.pow 2 two.natAbs else 1)
  let right := quarters * (if power < 0 then Nat.pow 10 power.natAbs else 1) *
    (if two < 0 then 1 else Nat.pow 2 two.natAbs)
  (left, right)

def insideBasin (b : Basin) (e : Int) (digits : Nat) (power : Int) : Bool :=
  let (dl, l) := sides digits power b.low e
  let (dh, h) := sides digits power b.high e
  if b.closed then l ≤ dl && dh ≤ h else l < dl && dh < h

-- The decimals with `count` digits on either side of the value, and the nearer of those that
-- round to it.
def candidate? (x : Binary64) (lead : Int) (count : Nat) : Option DecimalText :=
  let power := lead - (count : Int) + 1
  let b := x.basin
  let (unit, target) := sides 1 power b.value x.exponent
  let below := target / unit
  let twice := 2 * (target % unit)
  let lower := insideBasin b x.exponent below power
  let upper := insideBasin b x.exponent (below + 1) power
  if lower && (!upper || twice ≤ unit) then some ⟨below, power⟩
  else if upper then some ⟨below + 1, power⟩
  else none

-- The decimal with the fewest digits that rounds to `x`.
def shortest (x : Binary64) : DecimalText :=
  if x.isZero then ⟨0, 0⟩
  else
    let (num, den) := x.magnitude
    let lead := leadingPower num den
    ((List.range 18).findSome? (fun k => candidate? x lead (k + 1))).getD ⟨0, 0⟩

-- Removes the zeros at the end of a digit string, and counts them.
def trimZeros (digits : List Char) : List Char × Nat :=
  let kept := (digits.reverse.dropWhile (· == '0')).reverse
  (kept, digits.length - kept.length)

-- The text of a double: positional from 1e-5 up to 1e16 with a point in it, else one digit, the
-- others after a point, and the exponent.
def text (x : Binary64) : String :=
  let sign := if x.negative then "-" else ""
  if x.isZero then sign ++ "0.0"
  else
    let s := x.shortest
    let (digits, zeros) := trimZeros (Nat.toDigits 10 s.digits)
    let power := s.power + (zeros : Int)
    let point := (digits.length : Int) + power
    let body : List Char :=
      if 0 ≤ power ∧ point ≤ 16 then
        digits ++ List.replicate power.toNat '0' ++ ['.', '0']
      else if 0 < point ∧ point ≤ 16 then
        digits.take point.toNat ++ ['.'] ++ digits.drop point.toNat
      else if -5 < point ∧ point ≤ 0 then
        ['0', '.'] ++ List.replicate (-point).toNat '0' ++ digits
      else
        digits.take 1 ++ (if digits.length ≤ 1 then [] else '.' :: digits.drop 1) ++
          ['e'] ++ (toString (point - 1)).toList
    sign ++ String.ofList body

end YangBinding.Binary64
