import Deadwood.Number.Dyadic

/-!
# The shortest decimal of a float

Of the decimals that read back as a given float, `shortest` gives one with the fewest digits, and of
those the nearest, or the even one if two are as near.  All comparisons are exact.
-/

namespace Deadwood.Number

/-- The decimal `digits * 10 ^ exponent`. -/
structure Decimal where
  digits : Nat
  exponent : Int
deriving DecidableEq, Repr, Inhabited

/-- The part of `base ^ e` that belongs into a numerator. -/
def scaleUp (base : Nat) (e : Int) : Nat := Nat.pow base e.toNat

/-- The part of `base ^ e` that belongs into a denominator. -/
def scaleDown (base : Nat) (e : Int) : Nat := Nat.pow base (-e).toNat

/-- A positive float in quarters of its last place, with the ends of the interval of reals that round
to it. -/
structure Interval where
  low : Nat
  value : Nat
  high : Nat
  /-- The exponent of two of one quarter. -/
  unit : Int
  /-- Whether the ends belong to the interval. -/
  closed : Bool
deriving DecidableEq, Repr

/-- The interval of a positive float.  Below a power of two the floats lie twice as dense. -/
def Interval.ofDyadic (d : Dyadic) : Interval :=
  let m := d.mantissa
  let narrow := m = Nat.pow 2 52 ∧ -1074 < d.exponent
  { low := if narrow then 4 * m - 1 else 4 * m - 2
    value := 4 * m
    high := 4 * m + 2
    unit := d.exponent - 2
    closed := m % 2 = 0 }

/-- Whether a decimal lies in the interval. -/
def Interval.contains (i : Interval) (d : Decimal) : Bool :=
  let x := d.digits * scaleUp 10 d.exponent * scaleDown 2 i.unit
  let one := scaleUp 2 i.unit * scaleDown 10 d.exponent
  if i.closed then i.low * one ≤ x && x ≤ i.high * one
  else i.low * one < x && x < i.high * one

/-- The number of decimal digits of a natural number. -/
def digitCount (n : Nat) : Nat := (Nat.toDigits 10 n).length

/-- The least `k` such that `num / den < 10 ^ k`. -/
def magnitude (num den : Nat) : Int :=
  if den ≤ num then digitCount (num / den)
  else 1 - (digitCount ((den + num - 1) / num - 1) : Int)

/-- The decimals next to the value on the grid of multiples of `10 ^ e`, below and above. -/
def Interval.neighbours (i : Interval) (e : Int) : Decimal × Decimal :=
  let num := i.value * scaleUp 2 i.unit * scaleDown 10 e
  let den := scaleUp 10 e * scaleDown 2 i.unit
  (⟨num / den, e⟩, ⟨num / den + 1, e⟩)

/-- Whether the lower of two neighbours is the nearer one; of two at the same distance, the one with an
even last digit is preferred. -/
def Interval.prefersLower (i : Interval) (e : Int) : Bool :=
  let num := i.value * scaleUp 2 i.unit * scaleDown 10 e
  let den := scaleUp 10 e * scaleDown 2 i.unit
  2 * (num % den) < den || (2 * (num % den) = den && num / den % 2 = 0)

/-- The decimal on a grid that reads back, if there is one; of two, the nearer. -/
def Interval.onGrid? (i : Interval) (e : Int) : Option Decimal :=
  let (below, above) := i.neighbours e
  match i.contains below, i.contains above with
  | true, true => some (if i.prefersLower e then below else above)
  | true, false => some below
  | false, true => some above
  | false, false => none

/-- Moves trailing zeros from the digits into the exponent, at most `fuel` of them. -/
def Decimal.strip : Nat → Decimal → Decimal
  | 0, d => d
  | fuel + 1, d =>
    if d.digits ≠ 0 ∧ d.digits % 10 = 0 then strip fuel ⟨d.digits / 10, d.exponent + 1⟩ else d

/-- The shortest decimal of a positive number; seventeen digits always suffice. -/
def shortest (d : Dyadic) : Decimal :=
  let i := Interval.ofDyadic d
  let k := magnitude (i.value * scaleUp 2 i.unit) (scaleDown 2 i.unit)
  let found := (List.range 17).findSome? fun n => i.onGrid? (k - (n + 1 : Nat))
  (found.getD (i.neighbours (k - 17)).1).strip 18

/-! ### Text -/

/-- The digits of a decimal and the place of its point: the decimal is `0.digits * 10 ^ point`. -/
def Decimal.layout (d : Decimal) : List Char × Int :=
  let ds := Nat.toDigits 10 d.digits
  (ds, d.exponent + ds.length)

/-- A decimal without an exponent. -/
def positional (ds : List Char) (point : Int) : List Char :=
  let n := point.toNat
  if point ≤ 0 then '0' :: '.' :: (List.replicate (-point).toNat '0' ++ ds)
  else if ds.length ≤ n then ds ++ List.replicate (n - ds.length) '0'
  else ds.take n ++ '.' :: ds.drop n

/-- A decimal with one digit before the point and a signed exponent. -/
def scientific (ds : List Char) (point : Int) : List Char :=
  let e := point - 1
  ds.take 1 ++ (if ds.length ≤ 1 then [] else '.' :: ds.drop 1) ++
    ['e', if e < 0 then '-' else '+'] ++ Nat.toDigits 10 e.natAbs

/-- The text of a number: the fewest digits that read back, with an exponent from `10 ^ 21` on and
below `10 ^ -6`.  Both zeros are `0`. -/
def toText (x : Float) : String :=
  match Dyadic.ofFloat? x with
  | none => if x.isNaN then "NaN" else if x < 0 then "-Infinity" else "Infinity"
  | some d =>
    if d.mantissa = 0 then "0"
    else
      let (ds, point) := (shortest d).layout
      let text := if 21 < point ∨ point < -5 then scientific ds point else positional ds point
      String.ofList (if d.negative then '-' :: text else text)

end Deadwood.Number
