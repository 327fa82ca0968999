import Deadwood.SyntaxError
import Deadwood.Number.Decimal

/-!
# Tokens

`Token.scan` reads the token at a cursor.  White space and comments before it are skipped; what is
wrong with its text is reported beside it.  A slash is always read as an operator and a closing brace
as a punctuator: `scanRegExp` and `Token.resumeTemplate` read them again where the grammar asks.
-/

namespace Deadwood

open Text Number

/-- A token of a source text. -/
structure Token where
  kind : TokenKind
  /-- The place of its first character. -/
  start : Cursor
  /-- The place after its last character. -/
  finish : Cursor
  /-- Its text. -/
  lexeme : String
  /-- The text of a name, string or template chunk with all escapes resolved. -/
  value : String
  /-- The value of a number. -/
  number : Float
  /-- Whether a line ended between this token and the one before. -/
  onNewLine : Bool
  /-- The text of a template chunk as it is written. -/
  raw : String
  /-- Whether a template chunk is the last of its template. -/
  isTail : Bool
deriving Inhabited

def Token.offset (t : Token) : Nat := t.start.offset

/-- The result of reading part of a token. -/
structure Scan (α : Type) where
  value : α
  cursor : Cursor
  faults : List Fault

/-! ### White space and comments -/

/-- The place after the end of a block comment whose inside is ahead, and whether a line ended on the
way. -/
def blockComment (c : Cursor) (newline : Bool) : Option (Cursor × Bool) :=
  go c.offset newline c.rest
where
  go (offset : Nat) (newline : Bool) : List Glyph → Option (Cursor × Bool)
    | [] => none
    | [_] => none
    | g :: h :: gs =>
      if g.char = '*' ∧ h.char = '/' then some (⟨offset + g.size + h.size, gs⟩, newline)
      else go (offset + g.size) (newline || isLineEnd g.char) (h :: gs)

/-- Skips white space and comments, and tells whether a line ended on the way.  Every step moves the
cursor, so the glyphs ahead at the start bound the number of steps. -/
def skipGap (bound : List Glyph) (c : Cursor) (newline : Bool) : Scan Bool :=
  match bound, c.peek? with
  | _ :: bound, some ch =>
    if isLineEnd ch then skipGap bound c.step true
    else if isBlank ch then skipGap bound c.step newline
    else if c.startsWith ['/', '/'] then
      skipGap bound (c.dropWhile fun ch => !isLineEnd ch) newline
    else if c.startsWith ['/', '*'] then
      match blockComment (c.skip 2) newline with
      | some (c, newline) => skipGap bound c newline
      | none => ⟨newline, c.toEnd, [⟨c.offset, .endOfInput⟩]⟩
    else ⟨newline, c, []⟩
  | _, _ => ⟨newline, c, []⟩

/-- Skips everything before a token; at the start of a text also a line that opens with `#!`. -/
def skipSpace (c : Cursor) : Scan Bool :=
  let c := if c.offset = 0 && c.startsWith ['#', '!'] then c.dropWhile fun ch => !isLineEnd ch else c
  skipGap c.rest c false

/-! ### Escapes -/

/-- The character with the given code point; a lone surrogate becomes the replacement character. -/
def scalar (n : Nat) : Char := if n.isValidChar then Char.ofNat n else '\uFFFD'

/-- The code point spelled by hexadecimal digits, if there is at least one and it is in range. -/
def codePoint? (cs : List Char) : Option Nat :=
  if cs ≠ [] ∧ cs.all (isDigitIn 16) ∧ ofDigits 16 cs ≤ 0x10FFFF then some (ofDigits 16 cs) else none

/-- Reads the rest of an escape after `\u`, which is four hexadecimal digits or any number of them in
braces.  The cursor moves also if there is no code point. -/
def scanCodePoint (c : Cursor) : Option Nat × Cursor :=
  if c.peek? = some '\x7b' then
    let close := c.dropWhile (· ≠ '\x7d')
    if close.rest.isEmpty then (none, c)
    else (codePoint? (c.step.takeWhile (· ≠ '\x7d')), close.step)
  else if byteCount (c.rest.take 4) < 4 then (none, c.toEnd)
  else
    let digits := (c.rest.take 4).map Glyph.char
    if digits.all (isDigitIn 16) then (some (ofDigits 16 digits), c.skip 4)
    else (none, c.skipBytes 4)

def isHighSurrogate (n : Nat) : Bool := 0xD800 ≤ n && n < 0xDC00

def isLowSurrogate (n : Nat) : Bool := 0xDC00 ≤ n && n < 0xE000

/-- Joins a high surrogate with a low one that is escaped right after it. -/
def joinSurrogate (high : Nat) (c : Cursor) : Nat × Cursor :=
  if isHighSurrogate high && c.startsWith ['\\', 'u'] then
    match scanCodePoint (c.skip 2) with
    | (some low, c') =>
      if isLowSurrogate low then ((high - 0xD800) * 0x400 + (low - 0xDC00) + 0x10000, c')
      else (high, c)
    | (none, _) => (high, c)
  else (high, c)

/-- Reads the octal digits of an escape while the value stays below 256. -/
def scanOctal : Nat → Nat → Cursor → Nat × Cursor
  | 0, v, c => (v, c)
  | n + 1, v, c =>
    match c.peek? with
    | some ch =>
      if isDigitIn 8 ch && v * 8 + (digitValue? ch).getD 0 ≤ 255 then
        scanOctal n (v * 8 + (digitValue? ch).getD 0) c.step
      else (v, c)
    | none => (v, c)

/-- Reads the escape after a backslash and gives the characters it stands for. -/
def scanEscape (inTemplate : Bool) (c : Cursor) : Scan (List Char) :=
  match c.peek? with
  | none => ⟨[], c, []⟩
  | some ch =>
    let c := c.step
    if ch = 'n' then ⟨['\n'], c, []⟩
    else if ch = 'r' then ⟨['\r'], c, []⟩
    else if ch = 't' then ⟨['\t'], c, []⟩
    else if ch = 'b' then ⟨['\x08'], c, []⟩
    else if ch = 'f' then ⟨['\x0c'], c, []⟩
    else if ch = 'v' then ⟨['\x0b'], c, []⟩
    else if ch = '\r' then ⟨[], if c.peek? = some '\n' then c.step else c, []⟩
    else if isLineEnd ch then ⟨[], c, []⟩
    else if ch = 'x' then
      let digits := (c.rest.take 2).map Glyph.char
      if digits.length = 2 ∧ digits.all (isDigitIn 16) then
        ⟨[scalar (ofDigits 16 digits)], c.skip 2, []⟩
      else ⟨[], c, [⟨c.offset, .hexEscape⟩]⟩
    else if ch = 'u' then
      match scanCodePoint c with
      | (some n, c) =>
        let (n, c) := joinSurrogate n c
        ⟨[scalar n], c, []⟩
      | (none, c) => ⟨['\uFFFD'], c, [⟨c.offset, .unicodeEscape⟩]⟩
    else if ch = '0' ∧ !c.ahead (isDigitIn 10) then ⟨['\x00'], c, []⟩
    else if isDigitIn 8 ch then
      let (v, c') := scanOctal 2 ((digitValue? ch).getD 0) c
      ⟨[scalar v], c', if inTemplate then [⟨c.offset, .octalInTemplate⟩] else []⟩
    else ⟨[ch], c, []⟩

/-! ### Names -/

/-- Reads the characters of a name; the flag tells whether one of them was escaped. -/
def scanNameFrom (bound : List Glyph) (c : Cursor) : Scan (List Char × Bool) :=
  match bound, c.peek? with
  | _ :: bound, some ch =>
    if ch = '\\' then
      if c.second? = some 'u' then
        let (n?, c') := scanCodePoint (c.skip 2)
        let r := scanNameFrom bound c'
        ⟨(scalar (n?.getD 0xFFFD) :: r.value.1, true), r.cursor,
          (if n?.isNone then [⟨c'.offset, .unicodeEscape⟩] else []) ++ r.faults⟩
      else
        let r := scanNameFrom bound c.step
        ⟨r.value, r.cursor, ⟨c.offset, .nameEscape⟩ :: r.faults⟩
    else if isNamePart ch then
      let r := scanNameFrom bound c.step
      ⟨(ch :: r.value.1, r.value.2), r.cursor, r.faults⟩
    else ⟨([], false), c, []⟩
  | _, _ => ⟨([], false), c, []⟩

def scanName (c : Cursor) : Scan (List Char × Bool) := scanNameFrom c.rest c

/-! ### Numbers -/

/-- The digits ahead in the given base without the underscores among them. -/
def scanDigits (base : Nat) (c : Cursor) : List Char × Cursor :=
  let p := fun ch => ch = '_' || isDigitIn base ch
  ((c.takeWhile p).filter (· ≠ '_'), c.dropWhile p)

/-- The base that the character after a leading zero announces. -/
def baseOf? (c : Char) : Option Nat :=
  if c = 'x' ∨ c = 'X' then some 16
  else if c = 'o' ∨ c = 'O' then some 8
  else if c = 'b' ∨ c = 'B' then some 2
  else none

/-- Reads an exponent; without digits there is none. -/
def scanExponent (c : Cursor) : Int × Cursor :=
  if c.ahead fun ch => ch = 'e' || ch = 'E' then
    let c' := c.step
    let negative := c'.peek? = some '-'
    let c' := if c'.ahead fun ch => ch = '+' || ch = '-' then c'.step else c'
    match scanDigits 10 c' with
    | ([], _) => (0, c)
    | (ds, c') => (exponentOf negative ds, c')
  else (0, c)

def scanDecimal (c : Cursor) : Float × Cursor :=
  let (whole, c) := scanDigits 10 c
  let (fraction, c) := if c.peek? = some '.' then scanDigits 10 c.step else ([], c)
  let (exponent, c) := scanExponent c
  ((Numeral.mk whole fraction exponent).toFloat, c)

/-- The digits of an octal number that is written with a leading zero only. -/
def legacyOctal? (c : Cursor) : Option (List Char) :=
  let digits := c.step.takeWhile (isDigitIn 10)
  if c.peek? = some '0' ∧ digits ≠ [] ∧ digits.all (isDigitIn 8) then some digits else none

/-- Reads the value of a number; the fault is that of a base without digits. -/
def scanMagnitude (c : Cursor) : Scan Float :=
  match (if c.peek? = some '0' then c.second?.bind baseOf? else none) with
  | some base =>
    let (digits, c') := scanDigits base (c.skip 2)
    ⟨floatOfDigits base digits, c', if digits = [] then [⟨c.offset, .invalidToken⟩] else []⟩
  | none =>
    match legacyOctal? c with
    | some digits => ⟨floatOfDigits 8 digits, c.skip (digits.length + 1), []⟩
    | none =>
      let (x, c) := scanDecimal c
      ⟨x, c, []⟩

/-- Reads a number.  Neither a name nor a digit may follow it at once. -/
def scanNumber (c : Cursor) : Scan Float :=
  let r := scanMagnitude c
  if r.cursor.peek? = some 'n' then
    ⟨r.value, r.cursor.step, r.faults ++ [⟨c.offset, .bigInt⟩]⟩
  else if r.cursor.ahead fun ch => isNameStart ch || isDigitIn 10 ch then
    ⟨r.value, r.cursor, r.faults ++ [⟨r.cursor.offset, .invalidToken⟩]⟩
  else r

/-! ### Strings, templates and regular expressions -/

/-- Reads the inside of a string that began at the offset `start`. -/
def scanStringFrom (start : Nat) (quote : Char) (bound : List Glyph) (c : Cursor) :
    Scan (List Char) :=
  match bound, c.peek? with
  | _ :: bound, some ch =>
    if ch = quote then ⟨[], c.step, []⟩
    else if ch = '\n' ∨ ch = '\r' then ⟨[], c, [⟨start, .invalidToken⟩]⟩
    else if ch = '\\' then
      let e := scanEscape false c.step
      let r := scanStringFrom start quote bound e.cursor
      ⟨e.value ++ r.value, r.cursor, e.faults ++ r.faults⟩
    else
      let r := scanStringFrom start quote bound c.step
      ⟨ch :: r.value, r.cursor, r.faults⟩
  | _, _ => ⟨[], c, [⟨start, .invalidToken⟩]⟩

/-- A chunk of a template: its value, its text as written, and whether the template ends with it. -/
structure Chunk where
  value : List Char
  raw : List Char
  isTail : Bool
deriving Inhabited

/-- Reads template text up to a substitution or the end of the template; the token began at the offset
`start`. -/
def scanChunkFrom (start : Nat) (bound : List Glyph) (c : Cursor) : Scan Chunk :=
  match bound, c.peek? with
  | _ :: bound, some ch =>
    if ch = '\x60' then ⟨⟨[], [], true⟩, c.step, []⟩
    else if ch = '$' ∧ c.second? = some '\x7b' then ⟨⟨[], [], false⟩, c.skip 2, []⟩
    else
      let e : Scan (List Char) :=
        if ch = '\\' then scanEscape true c.step
        else if ch = '\r' then
          ⟨['\n'], if c.second? = some '\n' then c.skip 2 else c.step, []⟩
        else ⟨[ch], c.step, []⟩
      let r := scanChunkFrom start bound e.cursor
      ⟨⟨e.value ++ r.value.value, c.textTo e.cursor.offset ++ r.value.raw, r.value.isTail⟩, r.cursor,
        e.faults ++ r.faults⟩
  | _, _ => ⟨⟨[], [], true⟩, c, [⟨start, .unterminatedTemplate⟩]⟩

/-- Reads the pattern of a regular expression up to the slash that closes it. -/
def scanPattern (start : Nat) (inClass : Bool) (bound : List Glyph) (c : Cursor) :
    Scan (List Char × Bool) :=
  match bound, c.peek? with
  | _ :: bound, some ch =>
    if isLineEnd ch then ⟨([], false), c, [⟨start, .unterminatedRegExp⟩]⟩
    else if ch = '/' ∧ !inClass then ⟨([], true), c.step, []⟩
    else
      let c' := if ch = '\\' then c.skip 2 else c.step
      let inClass := if ch = '[' then true else if ch = ']' then false else inClass
      let r := scanPattern start inClass bound c'
      ⟨(c.textTo c'.offset ++ r.value.1, r.value.2), r.cursor, r.faults⟩
  | _, _ => ⟨([], false), c, [⟨start, .unterminatedRegExp⟩]⟩

/-- Reads the regular expression whose first slash is ahead: its pattern and its flags. -/
def scanRegExp (c : Cursor) : Scan (List Char × List Char) :=
  let body := c.step
  let r := scanPattern c.offset false body.rest body
  if r.value.2 then
    ⟨(r.value.1, r.cursor.takeWhile isNamePart), r.cursor.dropWhile isNamePart, r.faults⟩
  else ⟨(r.value.1, []), r.cursor, r.faults⟩

/-! ### Punctuators -/

/-- The punctuators, longer ones before their beginnings; those with a question mark stand apart. -/
def punctuators : List (String × TokenKind) :=
  [(">>>=", .unsignedShiftRightAssign), ("...", .ellipsis), ("===", .strictEqual),
   ("!==", .strictNotEqual), ("**=", .exponentAssign), ("<<=", .shiftLeftAssign),
   (">>=", .shiftRightAssign), (">>>", .unsignedShiftRight), ("&&=", .logicalAndAssign),
   ("||=", .logicalOrAssign), ("=>", .arrow), ("==", .equal),
   ("!=", .notEqual), ("<=", .lessOrEqual), (">=", .greaterOrEqual), ("&&", .logicalAnd),
   ("||", .logicalOr), ("++", .increment), ("--", .decrement),
   ("+=", .addAssign), ("-=", .subtractAssign), ("*=", .multiplyAssign), ("/=", .divideAssign),
   ("%=", .remainderAssign), ("&=", .bitAndAssign), ("|=", .bitOrAssign), ("^=", .bitXorAssign),
   ("**", .exponent), ("<<", .shiftLeft), (">>", .shiftRight), ("\x7b", .leftBrace),
   ("\x7d", .rightBrace), ("(", .leftParen), (")", .rightParen), ("[", .leftBracket),
   ("]", .rightBracket), (";", .semicolon), (",", .comma), ("<", .less), (">", .greater),
   ("+", .plus), ("-", .minus), ("*", .multiply), ("/", .divide), ("%", .remainder),
   ("&", .bitAnd), ("|", .bitOr), ("^", .bitXor), ("!", .not), ("~", .bitNot), (":", .colon),
   ("=", .assign), (".", .dot), ("@", .at)]

/-- Reads a punctuator.  The mark `?.` is not read before a digit, where the dot belongs to a number. -/
def scanPunctuator (c : Cursor) : Option (TokenKind × Cursor) :=
  if c.startsWith ['?', '.'] && !(c.skip 2).ahead (isDigitIn 10) then some (.questionDot, c.skip 2)
  else if c.startsWith ['?', '?', '='] then some (.coalesceAssign, c.skip 3)
  else if c.startsWith ['?', '?'] then some (.coalesce, c.skip 2)
  else if c.startsWith ['?'] then some (.question, c.step)
  else
    (punctuators.find? fun p => c.startsWith p.1.toList).map fun p => (p.2, c.skip p.1.length)

/-! ### Tokens -/

namespace Token

/-- A token without a value. -/
def plain (kind : TokenKind) (onNewLine : Bool) (start finish : Cursor) : Token where
  kind := kind
  start := start
  finish := finish
  lexeme := String.ofList (start.textTo finish.offset)
  value := ""
  number := 0
  onNewLine := onNewLine
  raw := ""
  isTail := false

/-- A word is reserved only if none of its characters is escaped. -/
def nameKind (value : String) (escaped : Bool) : TokenKind :=
  if escaped then .name else (TokenKind.ofWord? value).getD .name

/-- Reads the template chunk inside `body` as a token that begins at `start`. -/
def ofChunk (onNewLine : Bool) (start body : Cursor) : Token × List Fault :=
  let r := scanChunkFrom start.offset body.rest body
  ({ plain .template onNewLine start r.cursor with
      value := String.ofList r.value.value
      raw := String.ofList r.value.raw
      isTail := r.value.isTail }, r.faults)

/-- Reads the token whose first character is ahead. -/
def scanAt (onNewLine : Bool) (c : Cursor) : Token × List Fault :=
  match c.peek? with
  | none => (plain .eof onNewLine c c, [])
  | some ch =>
    if isNameStart ch || ch = '\\' then
      let r := scanName c
      let value := String.ofList r.value.1
      ({ plain (nameKind value r.value.2) onNewLine c r.cursor with value := value }, r.faults)
    else if ch = '#' && c.second?.isSome then
      let r := scanName c.step
      ({ plain .name onNewLine c r.cursor with value := String.ofList ('#' :: r.value.1) }, r.faults)
    else if isDigitIn 10 ch || (ch = '.' && c.second?.any (isDigitIn 10)) then
      let r := scanNumber c
      ({ plain .number onNewLine c r.cursor with number := r.value }, r.faults)
    else if ch = '\x22' || ch = '\x27' then
      let r := scanStringFrom c.offset ch c.step.rest c.step
      ({ plain .string onNewLine c r.cursor with value := String.ofList r.value }, r.faults)
    else if ch = '\x60' then ofChunk onNewLine c c.step
    else
      match scanPunctuator c with
      | some (kind, c') => (plain kind onNewLine c c', [])
      | none => (plain .illegal onNewLine c c.step, [])

/-- Reads the next token. -/
def scan (c : Cursor) : Token × List Fault :=
  let gap := skipSpace c
  let (t, faults) := scanAt gap.value gap.cursor
  (t, gap.faults ++ faults)

/-- Reads the template text after a closing brace again as part of its template. -/
def resumeTemplate (t : Token) : Token × List Fault :=
  ofChunk t.onNewLine t.start t.start.step

end Token

end Deadwood
