import Deadwood.Number.Decimal

/-!
# Documents

The values of JSON.  Reading takes the first value of a text and leaves what follows; members keep their
order, and numbers their spelling.
-/

namespace Deadwood

inductive Document
  | null
  | bool (b : Bool)
  | number (text : String)
  | string (s : String)
  | array (items : List Document)
  | object (members : List (String × Document))
deriving Inhabited

namespace Document

def isBlank (c : Char) : Bool := c = ' ' || c = '\t' || c = '\n' || c = '\r'

/-! ### Numbers -/

/-- One or more digits. -/
def readDigits (cs : List Char) : Option (List Char × List Char) :=
  match cs.takeWhile Char.isDigit with
  | [] => none
  | ds => some (ds, cs.dropWhile Char.isDigit)

/-- Digits without a needless zero in front. -/
def readWhole : List Char → Option (List Char × List Char)
  | '0' :: cs => some (['0'], cs)
  | cs => readDigits cs

/-- A point with digits, or nothing. -/
def readFraction : List Char → Option (List Char × List Char)
  | '.' :: cs => (readDigits cs).map fun (ds, rest) => ('.' :: ds, rest)
  | cs => some ([], cs)

/-- An exponent, or nothing. -/
def readExponent : List Char → Option (List Char × List Char)
  | c :: cs =>
    if c = 'e' || c = 'E' then
      let (sign, digits) :=
        match cs with
        | '+' :: cs => (['+'], cs)
        | '-' :: cs => (['-'], cs)
        | cs => ([], cs)
      (readDigits digits).map fun (ds, rest) => (c :: sign ++ ds, rest)
    else some ([], c :: cs)
  | [] => some ([], [])

/-- A number as it is spelled. -/
def readNumber (cs : List Char) : Option (String × List Char) := do
  let (sign, cs) := match cs with
    | '-' :: cs => (['-'], cs)
    | cs => ([], cs)
  let (whole, cs) ← readWhole cs
  let (fraction, cs) ← readFraction cs
  let (exponent, cs) ← readExponent cs
  return (String.ofList (sign ++ whole ++ fraction ++ exponent), cs)

/-! ### Strings -/

/-- The character of an escape of one letter. -/
def escaped? : Char → Option Char
  | '\x22' => some '\x22'
  | '\\' => some '\\'
  | '/' => some '/'
  | 'b' => some '\x08'
  | 'f' => some '\x0c'
  | 'n' => some '\n'
  | 'r' => some '\r'
  | 't' => some '\t'
  | _ => none

/-- The number that four hexadecimal digits spell. -/
def unit? (cs : List Char) : Option Nat :=
  if cs.length = 4 && cs.all (Number.isDigitIn 16) then some (Number.ofDigits 16 cs) else none

/-- The characters of a list of units, where two halves of a pair are one character and a half that
stands alone is replaced. -/
def joinUnits : List Nat → List Char
  | [] => []
  | [n] => [if n.isValidChar then Char.ofNat n else '\uFFFD']
  | m :: n :: ns =>
    if 0xD800 ≤ m && m < 0xDC00 && 0xDC00 ≤ n && n < 0xE000 then
      Char.ofNat (0x10000 + (m - 0xD800) * 0x400 + (n - 0xDC00)) :: joinUnits ns
    else (if m.isValidChar then Char.ofNat m else '\uFFFD') :: joinUnits (n :: ns)

/-- The units of a string after its opening quote, with the text behind it. -/
def readUnits : List Char → Option (List Nat × List Char)
  | [] => none
  | '\x22' :: cs => some ([], cs)
  | '\\' :: 'u' :: a :: b :: c :: d :: cs => do
    let n ← unit? [a, b, c, d]
    let (rest, after) ← readUnits cs
    return (n :: rest, after)
  | '\\' :: c :: cs => do
    let x ← escaped? c
    let (rest, after) ← readUnits cs
    return (x.toNat :: rest, after)
  | c :: cs =>
    if c.toNat < 0x20 || c = '\\' then none
    else do
      let (rest, after) ← readUnits cs
      return (c.toNat :: rest, after)

/-- A string after its opening quote, with the text behind it. -/
def readString (cs : List Char) : Option (List Char × List Char) :=
  (readUnits cs).map fun (ns, rest) => (joinUnits ns, rest)

/-! ### Values -/

/-- The text after a word. -/
def readWord (word : String) (d : Document) (cs : List Char) : Option (Document × List Char) :=
  if word.toList.isPrefixOf cs then some (d, cs.drop word.length) else none

mutual

/-- A value with blanks in front of it.  The bound is on the length of the reading, and `depth` on the
number of brackets around the value. -/
def readValue : Nat → Nat → List Char → Option (Document × List Char)
  | 0, _, _ => none
  | bound + 1, depth, cs =>
    match cs.dropWhile isBlank with
    | [] => none
    | '\x22' :: cs => (readString cs).map fun (s, rest) => (.string (String.ofList s), rest)
    | '[' :: cs =>
      match depth with
      | 0 => none
      | depth + 1 =>
        match cs.dropWhile isBlank with
        | ']' :: cs => some (.array [], cs)
        | cs => (readItems bound depth cs).map fun (items, rest) => (.array items, rest)
    | '\x7b' :: cs =>
      match depth with
      | 0 => none
      | depth + 1 =>
        match cs.dropWhile isBlank with
        | '\x7d' :: cs => some (.object [], cs)
        | cs => (readMembers bound depth cs).map fun (ms, rest) => (.object ms, rest)
    | 't' :: cs => readWord "true" (.bool true) ('t' :: cs)
    | 'f' :: cs => readWord "false" (.bool false) ('f' :: cs)
    | 'n' :: cs => readWord "null" .null ('n' :: cs)
    | cs => (readNumber cs).map fun (text, rest) => (.number text, rest)

/-- The items of an array up to its closing bracket. -/
def readItems : Nat → Nat → List Char → Option (List Document × List Char)
  | 0, _, _ => none
  | bound + 1, depth, cs => do
    let (item, cs) ← readValue bound depth cs
    match cs.dropWhile isBlank with
    | ',' :: cs =>
      let (items, rest) ← readItems bound depth cs
      return (item :: items, rest)
    | ']' :: cs => return ([item], cs)
    | _ => none

/-- The members of an object up to its closing bracket. -/
def readMembers : Nat → Nat → List Char → Option (List (String × Document) × List Char)
  | 0, _, _ => none
  | bound + 1, depth, cs => do
    let (key, cs) ← match cs.dropWhile isBlank with
      | '\x22' :: cs => readString cs
      | _ => none
    let cs ← match cs.dropWhile isBlank with
      | ':' :: cs => some cs
      | _ => none
    let (value, cs) ← readValue bound depth cs
    match cs.dropWhile isBlank with
    | ',' :: cs =>
      let (members, rest) ← readMembers bound depth cs
      return ((String.ofList key, value) :: members, rest)
    | '\x7d' :: cs => return ([(String.ofList key, value)], cs)
    | _ => none

end

/-- The deepest nesting of brackets that is read. -/
def maxDepth : Nat := 10000

/-- The first value of a text. -/
def read? (text : String) : Option Document :=
  (readValue (2 * text.length + 2) maxDepth text.toList).map Prod.fst

/-- The integer of 64 bits that a number spells. -/
def int? (text : String) : Option Int :=
  let (negative, ds) := match text.toList with
    | '-' :: ds => (true, ds)
    | ds => (false, ds)
  if ds.isEmpty || !ds.all Char.isDigit then none
  else
    let n : Int := Number.ofDigits 10 ds
    let n := if negative then -n else n
    if -(Nat.pow 2 63 : Int) ≤ n ∧ n < Nat.pow 2 63 then some n else none

end Document

end Deadwood
