import Deadwood.Text.Class

/-!
# Source positions

A source text is read as a list of glyphs, each a character with the number of bytes it takes up in
UTF-8.  Offsets count bytes.  A cursor holds the offset reached and the glyphs ahead of it.

A source text is a `String`, so it is valid UTF-8.  Sources with other bytes, each of which would read as
the replacement character, are left out.
-/

namespace Deadwood

/-- A decoded character together with the number of bytes that follow its first one. -/
structure Glyph where
  char : Char
  trail : Nat
deriving DecidableEq, Repr, Inhabited

namespace Glyph

/-- The number of bytes of a glyph. -/
def size (g : Glyph) : Nat := g.trail + 1

def ofChar (c : Char) : Glyph := ⟨c, c.utf8Size - 1⟩

/-- A byte left over when a character was cut; it reads as the replacement character. -/
def stray : Glyph := ⟨'\uFFFD', 0⟩

end Glyph

/-- The number of bytes of a list of glyphs. -/
def byteCount (gs : List Glyph) : Nat := gs.foldr (fun g n => g.size + n) 0

/-- A place in a source text. -/
structure Cursor where
  /-- The bytes before this place. -/
  offset : Nat
  /-- The glyphs after this place. -/
  rest : List Glyph
deriving DecidableEq, Repr, Inhabited

namespace Cursor

/-- The start of a text. -/
def ofString (s : String) : Cursor := ⟨0, s.toList.map Glyph.ofChar⟩

/-- The character ahead. -/
def peek? (c : Cursor) : Option Char := c.rest.head?.map Glyph.char

/-- The character after the one ahead. -/
def second? (c : Cursor) : Option Char := c.rest.tail.head?.map Glyph.char

/-- Whether the character ahead satisfies `p`. -/
def ahead (c : Cursor) (p : Char → Bool) : Bool := c.peek?.any p

/-- The place after the next glyph. -/
def step (c : Cursor) : Cursor :=
  match c.rest with
  | [] => c
  | g :: gs => ⟨c.offset + g.size, gs⟩

/-- The place after all characters ahead that satisfy `p`. -/
def dropWhile (p : Char → Bool) (c : Cursor) : Cursor :=
  go c.offset c.rest
where
  go (offset : Nat) : List Glyph → Cursor
    | [] => ⟨offset, []⟩
    | g :: gs => if p g.char then go (offset + g.size) gs else ⟨offset, g :: gs⟩

/-- The longest run of characters ahead that satisfy `p`. -/
def takeWhile (p : Char → Bool) (c : Cursor) : List Char :=
  (c.rest.map Glyph.char).takeWhile p

/-- The end of the text. -/
def toEnd (c : Cursor) : Cursor := c.dropWhile fun _ => true

/-- Whether the characters ahead begin with `s`. -/
def startsWith (c : Cursor) (s : List Char) : Bool :=
  (c.rest.take s.length).map Glyph.char == s

/-- The place `n` glyphs further. -/
def skip : Nat → Cursor → Cursor
  | 0, c => c
  | n + 1, c => skip n c.step

/-- The place `n` bytes further.  The bytes left over of a character that is cut become stray. -/
def skipBytes (n : Nat) (c : Cursor) : Cursor :=
  go n c.offset c.rest
where
  go (n offset : Nat) : List Glyph → Cursor
    | [] => ⟨offset, []⟩
    | g :: gs =>
      if n = 0 then ⟨offset, g :: gs⟩
      else if g.size ≤ n then go (n - g.size) (offset + g.size) gs
      else ⟨offset + n, List.replicate (g.size - n) .stray ++ gs⟩

/-- The characters from `c` up to the offset `stop`.  The bytes of a character that is cut there are
stray. -/
def textTo (c : Cursor) (stop : Nat) : List Char :=
  go (stop - c.offset) c.rest
where
  go (n : Nat) : List Glyph → List Char
    | [] => []
    | g :: gs =>
      if n = 0 then []
      else if g.size ≤ n then g.char :: go (n - g.size) gs
      else List.replicate n Glyph.stray.char

end Cursor

/-- A line and a column, both counted from one; columns count bytes. -/
structure Position where
  line : Nat
  column : Nat
deriving DecidableEq, Repr, Inhabited

/-- The position of an offset.  Only a line feed ends a line, and an offset beyond the text stands for
its end. -/
def Position.ofOffset (text : String) (offset : Nat) : Position :=
  go (min offset text.utf8ByteSize) 0 0 1 text.toList
where
  go (stop here lineStart line : Nat) : List Char → Position
    | [] => ⟨line, stop - lineStart + 1⟩
    | c :: cs =>
      if stop ≤ here then ⟨line, stop - lineStart + 1⟩
      else if c = '\n' then go stop (here + 1) (here + 1) (line + 1) cs
      else go stop (here + c.utf8Size) lineStart line cs

end Deadwood
