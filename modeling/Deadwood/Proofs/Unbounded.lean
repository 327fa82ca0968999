import Deadwood.Proofs.Scanning

/-!
# The loops of the lexer end

The loops of the lexer carry a bound on the number of their steps.  Here are the same loops without it.
They end because every step takes up a byte of the text.  A bound of as many steps as there are glyphs ahead
is never reached, so both read the same.
-/

namespace Deadwood

open Text Cursor

/-! ### Where a step leads -/

/-- A comment up to the end of its line. -/
theorem lineComment_leads {c : Cursor} {cs : List Char} (h : c.startsWith ('/' :: cs) = true) :
    c.step.Leads (c.dropWhile fun ch => !isLineEnd ch) :=
  (step_passes_dropWhile (startsWith_cons h).1 (by decide)).leads

theorem skip_blockComment_leads {c d : Cursor} {newline newline' : Bool}
    (h : blockComment (c.skip 2) newline = some (d, newline')) : c.step.Leads d :=
  ((skip_passes 1 c.step).trans (blockComment_passes h)).leads

theorem scanCodePoint_skip_leads {c : Cursor} (h : c.second? = some 'u') :
    c.step.Leads (scanCodePoint (c.skip 2)).2 := by
  refine scanCodePoint_leads fun hnil => ?_
  cases hc : c.rest with
  | nil => simp [second?, hc] at h
  | cons g gs =>
    have hstep : c.step.rest = gs := by simp only [step, hc]
    rw [hstep] at hnil
    simp [second?, hc, hnil] at h

theorem patternStep_leads (ch : Char) (c : Cursor) : c.step.Leads (if ch = '\\' then c.skip 2 else c.step) := by
  split
  · exact skip_leads 1 c.step
  · exact .refl _

/-! ### The loops -/

namespace Unbounded

/-- Skips white space and comments, and tells whether a line ended on the way. -/
def skipGap (c : Cursor) (newline : Bool) : Scan Bool :=
  match _h : c.peek? with
  | none => ⟨newline, c, []⟩
  | some ch =>
    if isLineEnd ch then skipGap c.step true
    else if isBlank ch then skipGap c.step newline
    else if _hline : c.startsWith ['/', '/'] then skipGap (c.dropWhile fun ch => !isLineEnd ch) newline
    else if c.startsWith ['/', '*'] then
      match _hblock : blockComment (c.skip 2) newline with
      | some (c', newline) => skipGap c' newline
      | none => ⟨newline, c.toEnd, [⟨c.offset, .endOfInput⟩]⟩
    else ⟨newline, c, []⟩
termination_by c.left
decreasing_by
  · exact (Leads.refl _).lt (rest_ne_nil ‹_›)
  · exact (Leads.refl _).lt (rest_ne_nil ‹_›)
  · exact (lineComment_leads ‹_›).lt (rest_ne_nil ‹_›)
  · exact (skip_blockComment_leads ‹_›).lt (rest_ne_nil ‹_›)

/-- Reads the characters of a name; the flag tells whether one of them was escaped. -/
def scanName (c : Cursor) : Scan (List Char × Bool) :=
  match _h : c.peek? with
  | none => ⟨([], false), c, []⟩
  | some ch =>
    if ch = '\\' then
      if _hu : c.second? = some 'u' then
        let p := scanCodePoint (c.skip 2)
        let r := scanName p.2
        ⟨(scalar (p.1.getD 0xFFFD) :: r.value.1, true), r.cursor,
          (if p.1.isNone then [⟨p.2.offset, .unicodeEscape⟩] else []) ++ r.faults⟩
      else
        let r := scanName c.step
        ⟨r.value, r.cursor, ⟨c.offset, .nameEscape⟩ :: r.faults⟩
    else if isNamePart ch then
      let r := scanName c.step
      ⟨(ch :: r.value.1, r.value.2), r.cursor, r.faults⟩
    else ⟨([], false), c, []⟩
termination_by c.left
decreasing_by
  · exact (scanCodePoint_skip_leads ‹_›).lt (rest_ne_nil ‹_›)
  · exact (Leads.refl _).lt (rest_ne_nil ‹_›)
  · exact (Leads.refl _).lt (rest_ne_nil ‹_›)

/-- Reads the inside of a string that began at the offset `start`. -/
def scanString (start : Nat) (quote : Char) (c : Cursor) : Scan (List Char) :=
  match _h : c.peek? with
  | none => ⟨[], c, [⟨start, .invalidToken⟩]⟩
  | some ch =>
    if ch = quote then ⟨[], c.step, []⟩
    else if ch = '\n' ∨ ch = '\r' then ⟨[], c, [⟨start, .invalidToken⟩]⟩
    else if ch = '\\' then
      let e := scanEscape false c.step
      let r := scanString start quote e.cursor
      ⟨e.value ++ r.value, r.cursor, e.faults ++ r.faults⟩
    else
      let r := scanString start quote c.step
      ⟨ch :: r.value, r.cursor, r.faults⟩
termination_by c.left
decreasing_by
  · exact (scanEscape_leads _ _).lt (rest_ne_nil ‹_›)
  · exact (Leads.refl _).lt (rest_ne_nil ‹_›)

/-- Reads template text up to a substitution or the end of the template; the token began at the offset
`start`. -/
def scanChunk (start : Nat) (c : Cursor) : Scan Chunk :=
  match _h : c.peek? with
  | none => ⟨⟨[], [], true⟩, c, [⟨start, .unterminatedTemplate⟩]⟩
  | some ch =>
    if ch = '\x60' then ⟨⟨[], [], true⟩, c.step, []⟩
    else if ch = '$' ∧ c.second? = some '\x7b' then ⟨⟨[], [], false⟩, c.skip 2, []⟩
    else
      let e : Scan (List Char) :=
        if ch = '\\' then scanEscape true c.step
        else if ch = '\r' then
          ⟨['\n'], if c.second? = some '\n' then c.skip 2 else c.step, []⟩
        else ⟨[ch], c.step, []⟩
      let r := scanChunk start e.cursor
      ⟨⟨e.value ++ r.value.value, c.textTo e.cursor.offset ++ r.value.raw, r.value.isTail⟩, r.cursor,
        e.faults ++ r.faults⟩
termination_by c.left
decreasing_by exact (scanChunk_step ch c).leads.lt (rest_ne_nil ‹_›)

/-- Reads the pattern of a regular expression up to the slash that closes it. -/
def scanPattern (start : Nat) (inClass : Bool) (c : Cursor) : Scan (List Char × Bool) :=
  match _h : c.peek? with
  | none => ⟨([], false), c, [⟨start, .unterminatedRegExp⟩]⟩
  | some ch =>
    if isLineEnd ch then ⟨([], false), c, [⟨start, .unterminatedRegExp⟩]⟩
    else if ch = '/' ∧ !inClass then ⟨([], true), c.step, []⟩
    else
      let c' := if ch = '\\' then c.skip 2 else c.step
      let inClass := if ch = '[' then true else if ch = ']' then false else inClass
      let r := scanPattern start inClass c'
      ⟨(c.textTo c'.offset ++ r.value.1, r.value.2), r.cursor, r.faults⟩
termination_by c.left
decreasing_by exact (patternStep_leads ch c).lt (rest_ne_nil ‹_›)

end Unbounded

/-! ### The bounds are never reached -/

section Bounds

variable {bound : List Glyph} {c : Cursor}

theorem peek?_of_length_le_nil (h : c.rest.length ≤ ([] : List Glyph).length) : c.peek? = none :=
  peek?_eq_none.2 (List.length_eq_zero_iff.1 (Nat.le_zero.1 h))

/-- A cursor past a glyph is within a bound that is smaller by one. -/
theorem length_le_of_leads {g : Glyph} {ch : Char} {d : Cursor} (hc : c.IsText)
    (hb : c.rest.length ≤ (g :: bound).length) (h : c.peek? = some ch) (hd : c.step.Leads d) :
    d.IsText ∧ d.rest.length ≤ bound.length := by
  refine ⟨hd.isText (c.step_leads.isText hc), ?_⟩
  have := hd.length_lt (rest_ne_nil h) hc
  rw [List.length_cons] at hb
  omega

theorem skipGap_eq (hc : c.IsText) (hb : c.rest.length ≤ bound.length) (newline : Bool) :
    Unbounded.skipGap c newline = skipGap bound c newline := by
  induction bound generalizing c newline with
  | nil =>
    rw [Unbounded.skipGap]
    split
    · rfl
    · next h => cases (peek?_of_length_le_nil hb).symm.trans h
  | cons g bound ih =>
    rw [Unbounded.skipGap, skipGap.eq_def]
    split
    · next h => rw [h]
    next ch h =>
    have hstep {d : Cursor} (hd : c.step.Leads d) := length_le_of_leads hc hb h hd
    obtain ⟨ht, hl⟩ := hstep (.refl _)
    rw [h]
    dsimp only
    split
    · exact ih ht hl true
    split
    · exact ih ht hl newline
    split
    · next hline =>
      obtain ⟨ht, hl⟩ := hstep (lineComment_leads hline)
      exact ih ht hl newline
    split
    · split
      · next hblock =>
        obtain ⟨ht, hl⟩ := hstep (skip_blockComment_leads hblock)
        rw [hblock]
        exact ih ht hl _
      · next hblock => rw [hblock]
    · rfl

theorem scanNameFrom_eq (hc : c.IsText) (hb : c.rest.length ≤ bound.length) :
    Unbounded.scanName c = scanNameFrom bound c := by
  induction bound generalizing c with
  | nil =>
    rw [Unbounded.scanName]
    split
    · rfl
    · next h => cases (peek?_of_length_le_nil hb).symm.trans h
  | cons g bound ih =>
    rw [Unbounded.scanName, scanNameFrom.eq_def]
    split
    · next h => rw [h]
    next ch h =>
    have hstep {d : Cursor} (hd : c.step.Leads d) := length_le_of_leads hc hb h hd
    obtain ⟨ht, hl⟩ := hstep (.refl _)
    rw [h]
    dsimp only
    rw [ih ht hl]
    split
    · split
      · next hu =>
        obtain ⟨ht, hl⟩ := hstep (scanCodePoint_skip_leads hu)
        rw [ih ht hl]
      · rfl
    · rfl

theorem scanStringFrom_eq (hc : c.IsText) (hb : c.rest.length ≤ bound.length) (start : Nat) (quote : Char) :
    Unbounded.scanString start quote c = scanStringFrom start quote bound c := by
  induction bound generalizing c with
  | nil =>
    rw [Unbounded.scanString]
    split
    · rfl
    · next h => cases (peek?_of_length_le_nil hb).symm.trans h
  | cons g bound ih =>
    rw [Unbounded.scanString, scanStringFrom.eq_def]
    split
    · next h => rw [h]
    next ch h =>
    have hstep {d : Cursor} (hd : c.step.Leads d) := length_le_of_leads hc hb h hd
    obtain ⟨ht, hl⟩ := hstep (.refl _)
    obtain ⟨hte, hle⟩ := hstep (scanEscape_leads false _)
    rw [h]
    dsimp only
    rw [ih ht hl, ih hte hle]

theorem scanChunkFrom_eq (hc : c.IsText) (hb : c.rest.length ≤ bound.length) (start : Nat) :
    Unbounded.scanChunk start c = scanChunkFrom start bound c := by
  induction bound generalizing c with
  | nil =>
    rw [Unbounded.scanChunk]
    split
    · rfl
    · next h => cases (peek?_of_length_le_nil hb).symm.trans h
  | cons g bound ih =>
    rw [Unbounded.scanChunk, scanChunkFrom.eq_def]
    split
    · next h => rw [h]
    next ch h =>
    obtain ⟨ht, hl⟩ := length_le_of_leads hc hb h (scanChunk_step ch c).leads
    rw [h]
    dsimp only
    rw [ih ht hl]

theorem scanPattern_eq (hc : c.IsText) (hb : c.rest.length ≤ bound.length) (start : Nat) (inClass : Bool) :
    Unbounded.scanPattern start inClass c = scanPattern start inClass bound c := by
  induction bound generalizing c inClass with
  | nil =>
    rw [Unbounded.scanPattern]
    split
    · rfl
    · next h => cases (peek?_of_length_le_nil hb).symm.trans h
  | cons g bound ih =>
    rw [Unbounded.scanPattern, scanPattern.eq_def]
    split
    · next h => rw [h]
    next ch h =>
    obtain ⟨ht, hl⟩ := length_le_of_leads hc hb h (patternStep_leads ch c)
    rw [h]
    dsimp only
    rw [ih ht hl]

end Bounds

end Deadwood
