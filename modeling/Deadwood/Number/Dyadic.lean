import Deadwood.Number.Decimal

/-!
# Floats as dyadic rationals

A finite float is a sign, a natural number and a power of two.  Remainders and conversions to words
are computed exactly on that form.
-/

namespace Deadwood.Number

/-- The number `± mantissa * 2 ^ exponent`. -/
structure Dyadic where
  negative : Bool
  mantissa : Nat
  exponent : Int
deriving DecidableEq, Repr, Inhabited

namespace Dyadic

/-- The fields of a float: its sign, its biased exponent and its fraction. -/
def fields (x : Float) : Bool × Nat × Nat :=
  let bits := x.toBits.toNat
  (bits / Nat.pow 2 63 = 1, bits / Nat.pow 2 52 % Nat.pow 2 11, bits % Nat.pow 2 52)

/-- The value of a finite float. -/
def ofFloat? (x : Float) : Option Dyadic :=
  let (negative, exponent, fraction) := fields x
  if exponent = 2047 then none
  else if exponent = 0 then some ⟨negative, fraction, -1074⟩
  else some ⟨negative, fraction + Nat.pow 2 52, exponent - 1075⟩

/-- The float of a number that one can hold exactly. -/
def toFloat (d : Dyadic) : Float :=
  let x := d.mantissa.toFloat.scaleB d.exponent
  if d.negative then -x else x

/-- The number without its fraction. -/
def truncate (d : Dyadic) : Int :=
  let n : Nat :=
    if 0 ≤ d.exponent then d.mantissa * Nat.pow 2 d.exponent.toNat
    else d.mantissa / Nat.pow 2 (-d.exponent).toNat
  if d.negative then -n else n

/-- The remainder of a division that rounds toward zero; it has the sign of the dividend. -/
def remainder (a b : Dyadic) : Dyadic :=
  let e := min a.exponent b.exponent
  let m := a.mantissa * Nat.pow 2 (a.exponent - e).toNat
  let n := b.mantissa * Nat.pow 2 (b.exponent - e).toNat
  ⟨a.negative, m % n, e⟩

end Dyadic

/-- The remainder of a division of floats that rounds toward zero. -/
def remainder (x y : Float) : Float :=
  match Dyadic.ofFloat? x, Dyadic.ofFloat? y with
  | some a, some b => if b.mantissa = 0 then nan else (a.remainder b).toFloat
  | some _, none => if y.isNaN then nan else x
  | none, _ => nan

/-- The float without its fraction, modulo `2 ^ 32`; zero for what is not finite. -/
def toWord (x : Float) : UInt32 :=
  match Dyadic.ofFloat? x with
  | some d => UInt32.ofNat (d.truncate % Nat.pow 2 32).toNat
  | none => 0

/-- The power of two floats, where a power to no number, and a power of one to infinity, is no number. -/
def power (x y : Float) : Float :=
  if y.isNaN then nan
  else if x.abs == 1 && y.isInf then nan
  else x.pow y

end Deadwood.Number
