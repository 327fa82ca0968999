import Deadwood.Proofs.Reading

/-!
# Spelling lexemes

A text spells a list of lexemes when it is made of their texts in order, with spaces between some of them, and
each of them stands so that nothing after it can be taken for a part of it.  The tokens of such a text read
the lexemes.
-/

namespace Deadwood

open Text Number

namespace Cursor

/-- A cursor in front of whole characters. -/
def ofChars (offset : Nat) (cs : List Char) : Cursor := ⟨offset, cs.map Glyph.ofChar⟩

/-- The offset after some characters. -/
def past (offset : Nat) (cs : List Char) : Nat := offset + byteCount (cs.map Glyph.ofChar)

variable {o : Nat} {c : Char} {cs w : List Char} {p : Char → Bool}

@[simp] theorem offset_ofChars : (ofChars o cs).offset = o := rfl

@[simp] theorem past_nil : past o [] = o := rfl

theorem past_cons : past o (c :: w) = past (o + (Glyph.ofChar c).size) w := by
  rw [past, past, List.map_cons, byteCount, List.foldr_cons, Nat.add_assoc]
  rfl

theorem past_append (v : List Char) : past o (w ++ v) = past (past o w) v := by
  induction w generalizing o with
  | nil => rfl
  | cons c w ih => rw [List.cons_append, past_cons, ih, past_cons]

@[simp] theorem peek?_ofChars : (ofChars o cs).peek? = cs.head? := by cases cs <;> rfl

@[simp] theorem second?_ofChars : (ofChars o cs).second? = cs.tail.head? := by
  cases cs with
  | nil => rfl
  | cons c cs => cases cs <;> rfl

@[simp] theorem step_ofChars : (ofChars o (c :: cs)).step = ofChars (past o [c]) cs := rfl

@[simp] theorem startsWith_ofChars (s : List Char) : (ofChars o cs).startsWith s = (cs.take s.length == s) := by
  rw [startsWith, ofChars, ← List.map_take, List.map_map]
  exact congrArg (· == s) (List.map_id _)

theorem map_char_ofChars : (ofChars o cs).rest.map Glyph.char = cs := by
  rw [ofChars, List.map_map]
  exact List.map_id _

theorem takeWhile_ofChars (hw : ∀ d ∈ w, p d) (hcs : ∀ d ∈ cs.head?, p d = false) :
    (ofChars o (w ++ cs)).takeWhile p = w := by
  have hnil : cs.takeWhile p = [] := by
    cases cs with
    | nil => rfl
    | cons c cs => exact List.takeWhile_cons_of_neg (by simp [hcs c rfl])
  rw [takeWhile, map_char_ofChars, List.takeWhile_append_of_pos hw, hnil, List.append_nil]

theorem dropWhile_ofChars (hw : ∀ d ∈ w, p d) (hcs : ∀ d ∈ cs.head?, p d = false) :
    (ofChars o (w ++ cs)).dropWhile p = ofChars (past o w) cs := by
  induction w generalizing o with
  | nil =>
    cases cs with
    | nil => rfl
    | cons c cs =>
      have hc : p c = false := hcs c rfl
      simp [ofChars, dropWhile, dropWhile.go, Glyph.ofChar, hc]
  | cons c w ih =>
    rw [past_cons, ← ih fun d hd => hw d (List.mem_cons_of_mem _ hd)]
    have hc := hw c List.mem_cons_self
    simp [ofChars, dropWhile, dropWhile.go, Glyph.ofChar, hc]

theorem skip_ofChars : (ofChars o (w ++ cs)).skip w.length = ofChars (past o w) cs := by
  induction w generalizing o with
  | nil => rfl
  | cons c w ih => rw [past_cons, ← ih]; rfl

theorem textTo_ofChars : (ofChars o (w ++ cs)).textTo (past o w) = w := by
  rw [textTo, offset_ofChars, past, Nat.add_sub_cancel_left]
  induction w with
  | nil => cases cs <;> simp [ofChars, textTo.go, byteCount]
  | cons c w ih =>
    have hsize : 0 < (Glyph.ofChar c).size := Nat.succ_pos _
    have hgo : textTo.go ((Glyph.ofChar c).size + byteCount (w.map Glyph.ofChar))
        (Glyph.ofChar c :: (w ++ cs).map Glyph.ofChar) =
          c :: textTo.go (byteCount (w.map Glyph.ofChar)) ((w ++ cs).map Glyph.ofChar) := by
      rw [textTo.go, if_neg (by omega), if_pos (Nat.le_add_right _ _), Nat.add_sub_cancel_left]
      rfl
    exact hgo.trans (congrArg (c :: ·) ih)

end Cursor

open Cursor

/-! ### The start of a token -/

/-- White space and comments end before the characters. -/
structure Solid (cs : List Char) : Prop where
  head : ∀ c ∈ cs.head?, isLineEnd c = false ∧ isBlank c = false ∧ c ≠ '#'
  comment : (cs.take 2 == ['/', '/']) = false ∧ (cs.take 2 == ['/', '*']) = false

variable {o : Nat} {c : Char} {cs w : List Char}

theorem Solid.skipGap (h : Solid cs) (bound : List Glyph) :
    skipGap bound (ofChars o cs) false = ⟨false, ofChars o cs, []⟩ := by
  unfold Deadwood.skipGap
  rw [peek?_ofChars]
  split
  · next hc =>
    obtain ⟨hline, hblank, -⟩ := h.head _ hc
    rw [startsWith_ofChars, startsWith_ofChars, hline, hblank]
    simp only [List.length_cons, List.length_nil, h.comment.1, h.comment.2, Bool.false_eq_true, if_false]
  · rfl

theorem skipSpace_ofChars (h : cs.head? ≠ some '#') :
    skipSpace (ofChars o cs) = skipGap (cs.map Glyph.ofChar) (ofChars o cs) false := by
  have hhash : (ofChars o cs).startsWith ['#', '!'] = false := by
    rw [startsWith_ofChars]
    cases cs with
    | nil => rfl
    | cons c cs =>
      have hc : c ≠ '#' := fun hc => h (congrArg some hc)
      simp [hc]
  rw [skipSpace]
  simp only [hhash, Bool.and_false, Bool.false_eq_true, if_false]
  rfl

theorem skipSpace_past (h : 0 < o) : skipSpace (ofChars o cs) = skipGap (cs.map Glyph.ofChar) (ofChars o cs) false := by
  have ho : o ≠ 0 := Nat.ne_of_gt h
  rw [skipSpace]
  simp only [offset_ofChars, ho, decide_false, Bool.false_and, Bool.false_eq_true, if_false]
  rfl

namespace Token

theorem scan_of_solid (h : Solid cs) : scan (ofChars o cs) = scanAt false (ofChars o cs) := by
  have hhash : cs.head? ≠ some '#' := fun hc => (h.head _ hc).2.2 rfl
  rw [scan, skipSpace_ofChars hhash, h.skipGap]
  rfl

theorem scan_space : scan (ofChars o (' ' :: cs)) = scan (ofChars (past o [' ']) cs) := by
  rw [scan, scan, skipSpace_ofChars (by simp), skipSpace_past (o := past o [' ']) (Nat.succ_pos _)]
  rfl

theorem scan_newline : (scan (ofChars o ['\n'])).2 = [] ∧ (scan (ofChars o ['\n'])).1.kind = .eof := by
  rw [scan, skipSpace_ofChars (by decide)]
  exact ⟨rfl, rfl⟩

end Token

/-! ### Tokens -/

/-- The lexeme is read as a token of its own in front of the characters. -/
structure Lexeme.Stands (l : Lexeme) (cs : List Char) : Prop where
  text : l.text.toList ≠ []
  scan : ∀ o, ∃ t, Token.scan (ofChars o (l.text.toList ++ cs)) = (t, []) ∧ t.Shows l ∧ t.onNewLine = false ∧
    t.finish = ofChars (past o l.text.toList) cs

/-- The characters spell the lexemes up to the end of a line, which is the last. -/
inductive Spells : List Char → List Lexeme → Prop
  | finish : Spells ['\n'] []
  | space {cs : List Char} {ls : List Lexeme} (h : Spells cs ls) : Spells (' ' :: cs) ls
  | lexeme {l : Lexeme} {cs : List Char} {ls : List Lexeme} (hl : l.Stands cs) (h : Spells cs ls) :
    Spells (l.text.toList ++ cs) (l :: ls)

theorem Spells.reads {ls : List Lexeme} (h : Spells cs ls) (o : Nat) :
    (Token.scan (ofChars o cs)).2 = [] ∧ (Token.scan (ofChars o cs)).1.Reads ls := by
  induction h generalizing o with
  | finish => exact Token.scan_newline
  | space _ ih =>
    rw [Token.scan_space]
    exact ih _
  | lexeme hl _ ih =>
    obtain ⟨t, ht, hshows, hline, hfinish⟩ := hl.scan o
    rw [ht]
    refine ⟨rfl, hshows, hline, ?_⟩
    rw [hfinish]
    exact ih _

theorem Spells.length_le {ls : List Lexeme} (h : Spells cs ls) : ls.length ≤ cs.length := by
  induction h with
  | finish => exact Nat.zero_le _
  | space _ ih => exact Nat.le_succ_of_le ih
  | lexeme hl _ ih =>
    have hpos := List.length_pos_iff.2 hl.text
    rw [List.length_cons, List.length_append]
    omega

end Deadwood
