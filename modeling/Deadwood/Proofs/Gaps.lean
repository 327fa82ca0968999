import Deadwood.Proofs.Scanning

/-!
# What stands between tokens

Unless a fault is found, what is skipped before a token is white space, line ends and complete comments, and at
the start of a text also a line that opens with `#!`; and whether a line ended is whether a line end is among it.
-/

namespace Deadwood

open Text

/-! ### The text between two places -/

namespace Cursor

variable {c d e : Cursor}

/-- The characters after a place. -/
def chars (c : Cursor) : List Char := c.rest.map Glyph.char

theorem textTo_go_passed (gs rest : List Glyph) :
    textTo.go (byteCount gs) (gs ++ rest) = gs.map Glyph.char := by
  induction gs with
  | nil => cases rest <;> simp [textTo.go, byteCount]
  | cons g gs ih =>
    have hpos := g.size_pos
    rw [List.cons_append, byteCount_cons, textTo.go, if_neg (by omega), if_pos (Nat.le_add_right _ _),
      Nat.add_sub_cancel_left, ih, List.map_cons]

theorem textTo_of_append (gs : List Glyph) (hrest : c.rest = gs ++ d.rest)
    (hoffset : d.offset = c.offset + byteCount gs) : c.textTo d.offset = gs.map Glyph.char := by
  rw [textTo, hoffset, Nat.add_sub_cancel_left, hrest, textTo_go_passed]

@[simp] theorem textTo_self (c : Cursor) : c.textTo c.offset = [] := textTo_of_append [] rfl rfl

namespace Passes

theorem chars_eq (h : c.Passes d) : c.chars = c.textTo d.offset ++ d.chars := by
  obtain ⟨gs, hrest, hoffset⟩ := h
  rw [textTo_of_append gs hrest hoffset, chars, hrest, List.map_append, chars]

/-- The texts up to a place and from there on make up the whole. -/
theorem textTo_append (h : c.Passes d) (h' : d.Passes e) :
    c.textTo e.offset = c.textTo d.offset ++ d.textTo e.offset := by
  have hchars := (h.trans h').chars_eq
  rw [h.chars_eq, h'.chars_eq, ← List.append_assoc] at hchars
  exact (List.append_cancel_right hchars).symm

end Passes

theorem head?_chars (c : Cursor) : c.chars.head? = c.peek? := by
  rw [chars, List.head?_map, peek?]

theorem textTo_step {ch : Char} (h : c.peek? = some ch) : c.textTo c.step.offset = [ch] := by
  obtain ⟨g, gs, hrest, rfl⟩ := peek?_eq_some.1 h
  have hstep : c.step = ⟨c.offset + g.size, gs⟩ := by simp only [step, hrest]
  rw [hstep]
  exact textTo_of_append (d := ⟨c.offset + g.size, gs⟩) [g] hrest rfl

theorem textTo_cons {ch : Char} (h : c.peek? = some ch) (hd : c.step.Passes d) :
    c.textTo d.offset = ch :: c.step.textTo d.offset := by
  rw [c.step_passes.textTo_append hd, textTo_step h, List.singleton_append]

/-- A run of characters ends at the first one that is not of its kind. -/
theorem dropWhile_ends (p : Char → Bool) (c : Cursor) :
    (∀ ch ∈ c.textTo (c.dropWhile p).offset, p ch) ∧ ∀ ch ∈ (c.dropWhile p).peek?, p ch = false := by
  suffices h : ∀ gs o, (∀ ch ∈ textTo ⟨o, gs⟩ (dropWhile p ⟨o, gs⟩).offset, p ch) ∧
      ∀ ch ∈ (dropWhile p ⟨o, gs⟩).peek?, p ch = false from h c.rest c.offset
  intro gs
  induction gs with
  | nil => exact fun o => ⟨nofun, nofun⟩
  | cons g gs ih =>
    intro o
    cases hg : p g.char with
    | true =>
      obtain ⟨hall, hend⟩ := ih (o + g.size)
      rw [dropWhile_of_true (c := ⟨o, g :: gs⟩) rfl hg, textTo_cons (c := ⟨o, g :: gs⟩) rfl (dropWhile_passes p _)]
      exact ⟨List.forall_mem_cons.2 ⟨hg, hall⟩, hend⟩
    | false =>
      rw [dropWhile_of_false rfl hg, textTo_self]
      refine ⟨nofun, ?_⟩
      rintro _ ⟨⟩
      exact hg

end Cursor

open Cursor

/-! ### Gaps -/

/-- White space, line ends and complete comments, in front of the characters `after`.  A comment that opens with
two slashes goes on to the end of its line or of the text, and any other to the first mark that closes it. -/
inductive Gap (after : List Char) : List Char → Prop
  | nil : Gap after []
  | white {c : Char} {cs : List Char} (hc : isLineEnd c ∨ isBlank c) (h : Gap after cs) : Gap after (c :: cs)
  | line {inside cs : List Char} (hinside : ∀ d ∈ inside, isLineEnd d = false)
    (hend : ∀ d ∈ (cs ++ after).head?, isLineEnd d) (h : Gap after cs) : Gap after ('/' :: '/' :: (inside ++ cs))
  | block {inside cs : List Char} (hinside : ¬ ['*', '/'] <:+: inside) (h : Gap after cs) :
    Gap after ('/' :: '*' :: (inside ++ '*' :: '/' :: cs))

/-- A gap at an offset of a text: at its start there may be a line that opens with `#!` before it. -/
inductive GapAt (offset : Nat) (after : List Char) : List Char → Prop
  | gap {cs : List Char} (h : Gap after cs) : GapAt offset after cs
  | hashbang {inside cs : List Char} (hstart : offset = 0) (hinside : ∀ d ∈ inside, isLineEnd d = false)
    (hend : ∀ d ∈ (cs ++ after).head?, isLineEnd d) (h : Gap after cs) :
    GapAt offset after ('#' :: '!' :: (inside ++ cs))

variable {c d : Cursor} {newline newline' : Bool}

/-- What is inside a block comment, and the mark that closes it. -/
theorem textTo_blockComment (h : blockComment c newline = some (d, newline')) :
    ∃ inside, c.textTo d.offset = inside ++ ['*', '/'] ∧ ¬ ['*', '/'] <:+: inside ∧
      newline' = (newline || inside.any isLineEnd) := by
  suffices hgo : ∀ gs o b, blockComment.go o b gs = some (d, newline') →
      ∃ inside, textTo ⟨o, gs⟩ d.offset = inside ++ ['*', '/'] ∧ ¬ ['*', '/'] <:+: inside ∧
        newline' = (b || inside.any isLineEnd) from hgo _ _ _ h
  intro gs
  induction gs with
  | nil => exact fun o b hd => by cases hd
  | cons g gs ih =>
    intro o b hd
    cases gs with
    | nil => cases hd
    | cons g' gs =>
      have hpasses : Passes ⟨o, g :: g' :: gs⟩ d := blockComment_passes (c := ⟨o, g :: g' :: gs⟩) hd
      rw [blockComment.go] at hd
      split at hd
      · next hclose =>
        cases hd
        refine ⟨[], ?_, by decide, by simp⟩
        rw [textTo_of_append [g, g'] rfl (Nat.add_assoc _ _ _), List.map_cons, List.map_cons, hclose.1, hclose.2]
        rfl
      · next hclose =>
        obtain ⟨inside, htext, hinside, rfl⟩ := ih _ _ hd
        have hrest : Passes ⟨o + g.size, g' :: gs⟩ d := blockComment_passes (c := ⟨o + g.size, g' :: gs⟩) hd
        refine ⟨g.char :: inside, ?_, ?_, by rw [List.any_cons, Bool.or_assoc]⟩
        · rw [textTo_cons (c := ⟨o, g :: g' :: gs⟩) rfl hrest]
          exact congrArg (g.char :: ·) htext
        · rw [List.infix_cons_iff, not_or]
          refine ⟨?_, hinside⟩
          rintro ⟨after, hafter⟩
          obtain ⟨hstar, hslash⟩ := List.cons.inj hafter
          have hchars := hrest.chars_eq
          rw [htext, ← hslash] at hchars
          exact hclose ⟨hstar.symm, (List.cons.inj hchars).1⟩

theorem textTo_startsWith {a b : Char} (h : c.startsWith [a, b] = true) : c.textTo (c.skip 2).offset = [a, b] := by
  obtain ⟨ha, hb⟩ := startsWith_cons h
  have hskip : c.step.Passes (c.skip 2) := c.step.step_passes
  rw [textTo_cons ha hskip]
  exact congrArg (a :: ·) (textTo_step (startsWith_cons hb).1)

/-- The rest of a line that opens with two characters. -/
theorem textTo_line {a b : Char} (h : c.startsWith [a, b] = true) (ha : isLineEnd a = false) (hb : isLineEnd b = false) :
    ∃ inside, c.textTo (c.dropWhile fun ch => !isLineEnd ch).offset = a :: b :: inside ∧
      (∀ ch ∈ inside, isLineEnd ch = false) ∧
      ∀ ch ∈ (c.dropWhile fun ch => !isLineEnd ch).peek?, isLineEnd ch = true := by
  obtain ⟨hall, hend⟩ := dropWhile_ends (fun ch => !isLineEnd ch) c
  have hskip : (c.skip 2).Passes (c.dropWhile fun ch => !isLineEnd ch) := by
    have hpeek := (startsWith_cons (startsWith_cons h).2).1
    have hdrop : c.dropWhile (fun ch => !isLineEnd ch) = c.step.dropWhile fun ch => !isLineEnd ch :=
      dropWhile_of_true (startsWith_cons h).1 (by simp [ha])
    rw [hdrop]
    exact step_passes_dropWhile hpeek (by simp [hb])
  have htext := (skip_passes 2 c).textTo_append hskip
  rw [textTo_startsWith h] at htext
  rw [htext] at hall ⊢
  refine ⟨_, rfl, fun ch hch => ?_, fun ch hch => ?_⟩
  · have hline := hall ch (List.mem_append_right _ hch)
    rwa [Bool.not_eq_true'] at hline
  · have hline := hend ch hch
    rwa [Bool.not_eq_false'] at hline

theorem any_isLineEnd_eq_false {cs : List Char} (h : ∀ ch ∈ cs, isLineEnd ch = false) : cs.any isLineEnd = false :=
  List.any_eq_false.2 fun ch hch => Bool.eq_false_iff.1 (h ch hch)

/-- From `c` on a gap was skipped; a line had ended before or has ended on the way. -/
structure Skips (c : Cursor) (newline : Bool) (r : Scan Bool) : Prop where
  passes : c.Passes r.cursor
  gap : Gap r.cursor.chars (c.textTo r.cursor.offset)
  newline : r.value = (newline || (c.textTo r.cursor.offset).any isLineEnd)

namespace Skips

variable {r : Scan Bool}

theorem refl (c : Cursor) (newline : Bool) (faults : List Fault) : Skips c newline ⟨newline, c, faults⟩ where
  passes := .refl c
  gap := by
    rw [textTo_self]
    exact .nil
  newline := by simp

theorem white {ch : Char} (hpeek : c.peek? = some ch) (hch : isLineEnd ch ∨ isBlank ch)
    (h : Skips c.step (newline || isLineEnd ch) r) : Skips c newline r where
  passes := c.step_passes.trans h.passes
  gap := by
    rw [textTo_cons hpeek h.passes]
    exact .white hch h.gap
  newline := by rw [h.newline, textTo_cons hpeek h.passes, List.any_cons, Bool.or_assoc]

theorem line (hopen : c.startsWith ['/', '/'] = true) (h : Skips (c.dropWhile fun ch => !isLineEnd ch) newline r) :
    Skips c newline r := by
  obtain ⟨inside, htext, hinside, hend⟩ := textTo_line hopen (by decide) (by decide)
  have hpasses := dropWhile_passes (fun ch => !isLineEnd ch) c
  have happend := hpasses.textTo_append h.passes
  rw [htext] at happend
  refine ⟨hpasses.trans h.passes, ?_, ?_⟩
  · rw [happend]
    refine .line hinside (fun ch hch => ?_) h.gap
    rw [← h.passes.chars_eq, head?_chars] at hch
    exact hend ch hch
  · have hany : ('/' :: '/' :: inside).any isLineEnd = false :=
      any_isLineEnd_eq_false (List.forall_mem_cons.2 ⟨by decide, List.forall_mem_cons.2 ⟨by decide, hinside⟩⟩)
    rw [h.newline, happend, List.any_append, hany, Bool.false_or]

theorem block (hopen : c.startsWith ['/', '*'] = true) (hclose : blockComment (c.skip 2) newline = some (d, newline'))
    (h : Skips d newline' r) : Skips c newline r := by
  obtain ⟨inside, htext, hinside, rfl⟩ := textTo_blockComment hclose
  have hpasses := (skip_passes 2 c).trans (blockComment_passes hclose)
  have happend := hpasses.textTo_append h.passes
  rw [(skip_passes 2 c).textTo_append (blockComment_passes hclose), textTo_startsWith hopen, htext] at happend
  refine ⟨hpasses.trans h.passes, ?_, ?_⟩
  · have hgap := Gap.block hinside h.gap
    rw [happend]
    simpa using hgap
  · have hmarks : isLineEnd '/' = false ∧ isLineEnd '*' = false := by decide
    rw [h.newline, happend]
    simp [hmarks, Bool.or_assoc]

end Skips

/-- Only a block comment that is not closed is at fault. -/
theorem skipGap_skips (bound : List Glyph) (h : (skipGap bound c newline).faults = []) :
    Skips c newline (skipGap bound c newline) := by
  induction bound generalizing c newline with
  | nil => exact .refl c newline []
  | cons g bound ih =>
    rw [skipGap.eq_def] at h ⊢
    cases hpeek : c.peek? with
    | none => exact .refl c newline []
    | some ch =>
      rw [hpeek] at h
      dsimp only at h ⊢
      by_cases hline : isLineEnd ch = true
      · rw [if_pos hline] at h ⊢
        refine .white hpeek (.inl hline) ?_
        rw [hline, Bool.or_true]
        exact ih h
      rw [if_neg hline] at h ⊢
      by_cases hblank : isBlank ch = true
      · rw [if_pos hblank] at h ⊢
        refine .white hpeek (.inr hblank) ?_
        rw [Bool.eq_false_iff.2 hline, Bool.or_false]
        exact ih h
      rw [if_neg hblank] at h ⊢
      by_cases hslashes : c.startsWith ['/', '/'] = true
      · rw [if_pos hslashes] at h ⊢
        exact .line hslashes (ih h)
      rw [if_neg hslashes] at h ⊢
      by_cases hopen : c.startsWith ['/', '*'] = true
      · rw [if_pos hopen] at h ⊢
        cases hclose : blockComment (c.skip 2) newline with
        | none =>
          rw [hclose] at h
          cases h
        | some e =>
          rw [hclose] at h
          exact .block hopen hclose (ih h)
      · rw [if_neg hopen]
        exact .refl c newline []

theorem skipSpace_gap (h : (skipSpace c).faults = []) :
    GapAt c.offset (skipSpace c).cursor.chars (c.textTo (skipSpace c).cursor.offset) ∧
      (skipSpace c).value = (c.textTo (skipSpace c).cursor.offset).any isLineEnd := by
  unfold skipSpace at h ⊢
  dsimp only at h ⊢
  split at h
  · next hopen =>
    rw [if_pos hopen]
    rw [Bool.and_eq_true, decide_eq_true_iff] at hopen
    obtain ⟨hstart, hopen⟩ := hopen
    obtain ⟨inside, htext, hinside, hend⟩ := textTo_line hopen (by decide) (by decide)
    have hskips := skipGap_skips _ h
    have happend := (dropWhile_passes (fun ch => !isLineEnd ch) c).textTo_append hskips.passes
    rw [htext] at happend
    rw [happend]
    refine ⟨.hashbang hstart hinside (fun ch hch => ?_) hskips.gap, ?_⟩
    · rw [← hskips.passes.chars_eq, head?_chars] at hch
      exact hend ch hch
    · have hany : ('#' :: '!' :: inside).any isLineEnd = false :=
        any_isLineEnd_eq_false (List.forall_mem_cons.2 ⟨by decide, List.forall_mem_cons.2 ⟨by decide, hinside⟩⟩)
      rw [hskips.newline, List.any_append, hany]
  · next hopen =>
    rw [if_neg hopen]
    have hskips := skipGap_skips _ h
    exact ⟨.gap hskips.gap, by rw [hskips.newline, Bool.false_or]⟩

end Deadwood
