namespace YangBinding

-- A finite double: `mantissa * 2 ^ exponent` with a sign of its own, so that zero has two.
-- Normal numbers have `2 ^ 52 ≤ mantissa`, the others share the least exponent -1074.
structure Binary64 where
  negative : Bool
  mantissa : Nat
  exponent : Int
deriving Repr, DecidableEq, Inhabited

namespace Binary64

def leastExponent : Int := -1074

def greatestExponent : Int := 971

def zero : Binary64 := ⟨false, 0, leastExponent⟩

def isZero (x : Binary64) : Bool := x.mantissa == 0

def negate (x : Binary64) : Binary64 := { x with negative := !x.negative }

-- The quotient `num / den` counted in units of `2 ^ e`, as a fraction.
def inUnits (num den : Nat) (e : Int) : Nat × Nat :=
  if e < 0 then (num * Nat.pow 2 e.natAbs, den) else (num, den * Nat.pow 2 e.natAbs)

-- A quotient to the nearest natural number, a half to the even neighbour.
def roundDiv (num den : Nat) : Nat :=
  let q := num / den
  let twice := 2 * (num % den)
  if twice < den then q
  else if den < twice then q + 1
  else q + q % 2

-- The double nearest to `num / den`, a half to the even mantissa. Nothing if it lies beyond the
-- greatest double.
def ofQuotient? (num den : Nat) : Option Binary64 :=
  if num = 0 then some zero
  else
    let guess : Int := (num.log2 : Int) - (den.log2 : Int) - 53
    let (n, d) := inUnits num den guess
    let fitted := if n / d < Nat.pow 2 53 then guess else guess + 1
    let e := max fitted leastExponent
    let (n, d) := inUnits num den e
    let m := roundDiv n d
    let rounded : Binary64 :=
      if m = Nat.pow 2 53 then ⟨false, Nat.pow 2 52, e + 1⟩ else ⟨false, m, e⟩
    if greatestExponent < rounded.exponent then none else some rounded

-- The exact value of the magnitude as a fraction.
def magnitude (x : Binary64) : Nat × Nat :=
  if x.exponent < 0 then (x.mantissa, Nat.pow 2 x.exponent.natAbs)
  else (x.mantissa * Nat.pow 2 x.exponent.natAbs, 1)

-- Product and quotient of two magnitudes, each rounded once.
def mul? (x y : Binary64) : Option Binary64 :=
  let (a, b) := x.magnitude
  let (c, d) := y.magnitude
  ofQuotient? (a * c) (b * d)

def div? (x y : Binary64) : Option Binary64 :=
  let (a, b) := x.magnitude
  let (c, d) := y.magnitude
  ofQuotient? (a * d) (b * c)

-- The double nearest to a power of ten; `k` is at most 308 wherever this is used.
def powerOfTen (k : Nat) : Binary64 := (ofQuotient? (Nat.pow 10 k) 1).getD zero

-- Division by `10 ^ k` in steps of at most `10 ^ 308`, each of them rounded.
def scaleDown (x : Binary64) (k : Nat) : Binary64 :=
  if k ≤ 308 then (x.div? (powerOfTen k)).getD zero
  else if x.isZero then x
  else scaleDown ((x.div? (powerOfTen 308)).getD zero) (k - 308)
termination_by k

-- The value of `digits * 10 ^ exponent`: the digits are rounded first, then multiplied or
-- divided, so the result may be off by a unit in the last place. Nothing if it overflows.
def ofDigits? (digits : Nat) (exponent : Int) : Option Binary64 := do
  let x ← ofQuotient? digits 1
  if exponent < 0 then some (scaleDown x exponent.natAbs)
  else if exponent.natAbs ≤ 308 then x.mul? (powerOfTen exponent.natAbs)
  else if x.isZero then some x
  else none

end Binary64

end YangBinding
