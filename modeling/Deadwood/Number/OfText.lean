import Deadwood.Number.Decimal
import Deadwood.Text.Class

/-!
# Texts as numbers

A text read as a number is trimmed first.  The empty text is zero, a text with a base in front is a word
of 64 bits, and everything else is a signed decimal numeral or no number.  `ofText` reads the way
evaluation does; `foldText?` reads only where no environment would read differently.
-/

namespace Deadwood.Number

/-- The number that digits of a base spell, if there are any and they fit in 64 bits. -/
def wordOfDigits? (base : Nat) (cs : List Char) : Option Nat :=
  if cs.isEmpty || !cs.all (isDigitIn base) then none
  else
    let n := ofDigits base cs
    if n < Nat.pow 2 64 then some n else none

/-- The base that the first two characters of a text announce, with the text after them. -/
def splitBase? : List Char → Option (Nat × List Char)
  | '0' :: c :: cs =>
    if c = 'x' ∨ c = 'X' then some (16, cs)
    else if c = 'o' ∨ c = 'O' then some (8, cs)
    else if c = 'b' ∨ c = 'B' then some (2, cs)
    else none
  | _ => none

/-- Takes a sign off the front of a text; the flag tells a minus. -/
def splitSign : List Char → Bool × List Char
  | '-' :: cs => (true, cs)
  | '+' :: cs => (false, cs)
  | cs => (false, cs)

/-- The exponent at the end of a numeral; nothing counts as zero. -/
def exponentOf? : List Char → Option Int
  | [] => some 0
  | c :: cs =>
    if c = 'e' ∨ c = 'E' then
      let (negative, digits) := splitSign cs
      if digits.isEmpty || !digits.all Char.isDigit then none else some (exponentOf negative digits)
    else none

/-- The numeral that a text spells. -/
def Numeral.ofChars? (cs : List Char) : Option Numeral :=
  let whole := cs.takeWhile Char.isDigit
  let (fraction, rest) :=
    match cs.dropWhile Char.isDigit with
    | '.' :: cs => (cs.takeWhile Char.isDigit, cs.dropWhile Char.isDigit)
    | cs => ([], cs)
  if whole.isEmpty && fraction.isEmpty then none
  else (exponentOf? rest).map fun e => ⟨whole, fraction, e⟩

/-- The float nearest to a signed numeral, infinite beyond the largest float. -/
def ofSignedNumeral? (cs : List Char) : Option Float :=
  let (negative, cs) := splitSign cs
  (Numeral.ofChars? cs).map fun n => if negative then -n.toFloat else n.toFloat

def ofInfinity? (cs : List Char) : Option Float :=
  let (negative, cs) := splitSign cs
  if String.ofList cs = "Infinity" then some (if negative then -infinity else infinity) else none

def trim (p : Char → Bool) (cs : List Char) : List Char :=
  ((cs.dropWhile p).reverse.dropWhile p).reverse

/-- The characters around a number that evaluation skips. -/
def isPadding (c : Char) : Bool :=
  c = '\t' || c = '\n' || c.toNat = 0x0B || c.toNat = 0x0C || c = '\r' || c.toNat = 0x180E ||
    c.toNat = 0x2028 || c.toNat = 0x2029 || c.toNat = 0xFEFF || Text.isSpace c

/-- The number a text is converted to. -/
def ofText (s : String) : Float :=
  match trim isPadding s.toList with
  | [] => 0
  | cs =>
    match ofInfinity? cs, splitBase? cs with
    | some x, _ => x
    | none, some (base, digits) => ((wordOfDigits? base digits).map Nat.toFloat).getD nan
    | none, none => (ofSignedNumeral? cs).getD nan

/-- The number a text is converted to, unless it holds a vertical tab or a signed number in base
sixteen.  A decimal beyond the largest float counts as no number. -/
def foldText? (s : String) : Option Float :=
  if s.toList.any (·.toNat = 0x0B) then none
  else
    match trim Text.isWhite s.toList with
    | [] => some 0
    | cs =>
      match splitBase? cs with
      | some (base, digits) => some (((wordOfDigits? base digits).map Nat.toFloat).getD nan)
      | none =>
        if cs ≠ (splitSign cs).2 && (splitBase? (splitSign cs).2).any (·.1 = 16) then none
        else
          match ofInfinity? cs with
          | some x => some x
          | none => some (((ofSignedNumeral? cs).filter fun x => !x.isInf).getD nan)

end Deadwood.Number
