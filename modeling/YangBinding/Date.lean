namespace YangBinding

-- A day of the proleptic Gregorian calendar.
structure Date where
  year : Int
  month : Nat
  day : Nat
deriving Repr, DecidableEq

namespace Date

def isLeap (year : Int) : Bool := year % 4 == 0 && (year % 100 != 0 || year % 400 == 0)

def daysInMonth (year : Int) (month : Nat) : Nat :=
  if month == 2 then if isLeap year then 29 else 28
  else if month == 4 || month == 6 || month == 9 || month == 11 then 30
  else 31

-- The years that a date can have.
def leastYear : Int := -262143

def greatestYear : Int := 262142

def isValid (d : Date) : Bool :=
  leastYear ≤ d.year && d.year ≤ greatestYear && 1 ≤ d.month && d.month ≤ 12 && 1 ≤ d.day &&
    d.day ≤ daysInMonth d.year d.month

def padded (width n : Nat) : String :=
  let digits := Nat.toDigits 10 n
  String.ofList (List.replicate (width - digits.length) '0' ++ digits)

-- Four digits or more, with a sign outside the years 0 to 9999.
def yearText (year : Int) : String :=
  (if year < 0 then "-" else if 9999 < year then "+" else "") ++ padded 4 year.natAbs

-- Day, month and the last two digits of the year.
def short (d : Date) : String :=
  toString d.day ++ "/" ++ toString d.month ++ "/" ++ padded 2 (d.year % 100).toNat

-- Year, month and day.
def long (d : Date) : String :=
  yearText d.year ++ "-" ++ toString d.month ++ "-" ++ toString d.day

end Date

end YangBinding
