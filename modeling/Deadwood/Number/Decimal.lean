import Deadwood.Number.Nearest

/-!
# Reading numbers

A decimal numeral stands for the float nearest to it.  A numeral in another base is summed digit by
digit in floating point.
-/

namespace Deadwood.Number

/-- The value of a digit in base sixteen or less. -/
def digitValue? (c : Char) : Option Nat :=
  if '0' ≤ c ∧ c ≤ '9' then some (c.toNat - '0'.toNat)
  else if 'a' ≤ c ∧ c ≤ 'f' then some (c.toNat - 'a'.toNat + 10)
  else if 'A' ≤ c ∧ c ≤ 'F' then some (c.toNat - 'A'.toNat + 10)
  else none

/-- Whether `c` is a digit in the given base. -/
def isDigitIn (base : Nat) (c : Char) : Bool := (digitValue? c).any (· < base)

/-- The number that a list of digits spells in the given base. -/
def ofDigits (base : Nat) (cs : List Char) : Nat :=
  cs.foldl (fun n c => n * base + (digitValue? c).getD 0) 0

/-- The float that a list of digits spells when each step is rounded. -/
def floatOfDigits (base : Nat) (cs : List Char) : Float :=
  cs.foldl (fun x c => x * base.toFloat + ((digitValue? c).getD 0).toFloat) 0

def infinity : Float := 1.0 / 0.0

def nan : Float := 0.0 / 0.0

/-- The float nearest to `mantissa * 10 ^ exponent`. -/
def ofDecimal (mantissa : Nat) (exponent : Int) : Float :=
  if mantissa = 0 then 0
  else
    let magnitude := (Nat.toDigits 10 mantissa).length + exponent
    if magnitude > 310 then infinity
    else if magnitude < -330 then 0
    else nearest (mantissa * Nat.pow 10 exponent.toNat) (Nat.pow 10 (-exponent).toNat)

/-- A decimal numeral without sign: integer part, fraction and exponent. -/
structure Numeral where
  whole : List Char
  fraction : List Char
  exponent : Int
deriving DecidableEq, Repr, Inhabited

/-- The float a numeral stands for. -/
def Numeral.toFloat (n : Numeral) : Float :=
  ofDecimal (ofDigits 10 (n.whole ++ n.fraction)) (n.exponent - n.fraction.length)

/-- An exponent from its sign and digits.  Beyond five digits every exponent is as good as the largest
one. -/
def exponentOf (negative : Bool) (digits : List Char) : Int :=
  let e : Int := ofDigits 10 ((digits.dropWhile (· = '0')).take 6)
  if negative then -e else e

end Deadwood.Number
