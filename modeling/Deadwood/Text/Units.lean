/-!
# Texts as sequences of 16-bit units

Lengths and the order of texts are those of their encodings in units of 16 bits, where a character
beyond `0xFFFF` takes two units.
-/

namespace Deadwood.Text

/-- The units of a character. -/
def charUnits (c : Char) : List Nat :=
  let n := c.toNat
  if n < 0x10000 then [n] else [0xD800 + (n - 0x10000) / 0x400, 0xDC00 + (n - 0x10000) % 0x400]

/-- The units of a text. -/
def units (s : String) : List Nat := s.toList.flatMap charUnits

/-- Compares lists of units at the first place where they differ; where one is a beginning of the other, by their
lengths.  The result is negative if the first list comes before the second, and positive if it comes after it. -/
def compareUnits : List Nat → List Nat → Int
  | a :: as, b :: bs => if a ≠ b then (if a < b then -1 else 1) else compareUnits as bs
  | as, bs => as.length - bs.length

/-- Whether a text comes before another. -/
def before (s t : String) : Bool := compareUnits (units s) (units t) < 0

end Deadwood.Text
