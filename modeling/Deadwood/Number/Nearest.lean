/-!
# The nearest float

A positive fraction is rounded to the float nearest to it, and a tie goes to the even one.  A float is
found by its bits: those of two neighbours are neighbours too, so a mantissa that is rounded up to a
power of two carries into the exponent.
-/

namespace Deadwood.Number

/-- The fraction `num / den` in units of `2 ^ e`. -/
def inUnits (num den : Nat) (e : Int) : Nat × Nat :=
  (num * Nat.pow 2 (-e).toNat, den * Nat.pow 2 e.toNat)

/-- The quotient of two numbers, rounded to the nearest; a tie goes to the even one. -/
def roundDiv (num den : Nat) : Nat :=
  let q := num / den
  let r := num % den
  if den < 2 * r ∨ 2 * r = den ∧ q % 2 = 1 then q + 1 else q

/-- The exponent of two of the last place of the float nearest to `num / den`. -/
def lastPlace (num den : Nat) : Int :=
  let e := max (-1074) ((num.log2 : Int) - den.log2 - 53)
  let (n, d) := inUnits num den e
  if Nat.pow 2 53 ≤ n / d then e + 1 else e

/-- The bits of positive infinity. -/
def infinityBits : Nat := 0x7FF0000000000000

/-- The bits of the float nearest to `num / den`. -/
def nearestBits (num den : Nat) : Nat :=
  let e := lastPlace num den
  let (n, d) := inUnits num den e
  min infinityBits ((e + 1074).toNat * Nat.pow 2 52 + roundDiv n d)

/-- The float nearest to `num / den`. -/
def nearest (num den : Nat) : Float := Float.ofBits (UInt64.ofNat (nearestBits num den))

end Deadwood.Number
