import Deadwood.Proofs.Gaps
import Mathlib.Data.Nat.Find
import Mathlib.Order.Monotone.Basic
import Mathlib.Tactic.Common

/-!
# Tokens tile a text

From any place in a text the next token is read: a gap is skipped, the token takes up the text of its lexeme, and
reading goes on right after it.  So the gaps and lexemes that are read from the start of a text on cover it without
a hole and without overlapping, and after finitely many of them its end is reached.
-/

namespace Deadwood

open Text

/-! ### Places of a text -/

namespace Cursor

/-- The place `n` bytes into a text. -/
def place (text : String) (n : Nat) : Cursor := (ofString text).skipBytes n

/-- The characters from one offset of a text up to another.  A byte of a character that is cut there reads as the
replacement character. -/
def between (text : String) (start stop : Nat) : List Char := (place text start).textTo stop

/-- A place of a text. -/
def Of (c : Cursor) (text : String) : Prop := (ofString text).Before c

variable {c d : Cursor} {text : String}

theorem ofString_of (text : String) : (ofString text).Of text := .refl _

theorem place_of {n : Nat} (h : n ≤ text.utf8ByteSize) : (place text n).Of text :=
  ⟨n, by rwa [left_ofString], rfl⟩

namespace Of

theorem place_eq (h : c.Of text) : place text c.offset = c := by
  obtain ⟨n, hn, rfl⟩ := h
  rw [offset_skipBytes hn]
  show (ofString text).skipBytes (0 + n) = _
  rw [Nat.zero_add]

theorem offset_add_left (h : c.Of text) : c.offset + c.left = text.utf8ByteSize := by
  obtain ⟨n, hn, rfl⟩ := h
  rw [offset_skipBytes hn, left_skipBytes hn]
  rw [left_ofString] at hn ⊢
  show 0 + n + (text.utf8ByteSize - n) = _
  omega

theorem offset_le (h : c.Of text) : c.offset ≤ text.utf8ByteSize := by
  rw [← h.offset_add_left]
  exact Nat.le_add_right _ _

theorem leads (h : c.Of text) (hcd : c.Leads d) : d.Of text := Before.trans h hcd.before

theorem offset_le_of_leads (h : c.Of text) (hcd : c.Leads d) : c.offset ≤ d.offset := by
  have := h.offset_add_left
  have := (h.leads hcd).offset_add_left
  have := hcd.left
  omega

end Of

end Cursor

open Cursor

/-! ### One token -/

namespace Token

variable {text : String} {q : Nat}

/-- The token was read from the offset `q` of a text, with the given faults. -/
structure Tiles (text : String) (q : Nat) (t : Token) (faults : List Fault) : Prop where
  start : t.start = place text t.offset
  finish : t.finish = place text t.finish.offset
  after : q ≤ t.offset
  within : t.finish.offset ≤ text.utf8ByteSize
  /-- The lexeme is the text of the token. -/
  lexeme : t.lexeme = String.ofList (between text t.offset t.finish.offset)
  progress : t.kind ≠ .eof → t.offset < t.finish.offset
  ends : t.kind = .eof → t.offset = text.utf8ByteSize ∧ t.finish.offset = text.utf8ByteSize
  /-- Where no fault is found, the text before the token is a gap. -/
  gap : faults = [] → GapAt q (place text t.offset).chars (between text q t.offset)
  newLine : faults = [] → (t.onNewLine ↔ ∃ ch ∈ between text q t.offset, isLineEnd ch)

theorem onNewLine_scanAt (newline : Bool) (c : Cursor) : (scanAt newline c).1.onNewLine = newline := by
  unfold scanAt
  split
  · rfl
  iterate 5
    split
    · rfl
  split <;> rfl

theorem scan_tiles (hq : q ≤ text.utf8ByteSize) : Tiles text q (scan (place text q)).1 (scan (place text q)).2 := by
  have hplace := place_of hq
  have hoffset : (place text q).offset = q := by
    rw [place, offset_skipBytes (by rwa [left_ofString])]
    exact Nat.zero_add q
  generalize hc : place text q = c at hplace hoffset ⊢
  have hread : (scan c).1.ReadAt (scanAt (skipSpace c).value (skipSpace c).cursor).2 (skipSpace c).cursor :=
    scanAt_readAt _ _
  have hstart : (scan c).1.start.Of text := hplace.leads (leads_scan c)
  have hstep : (scan c).1.start.step.Of text := hstart.leads (step_leads _)
  have hfinish : (scan c).1.finish.Of text := hstep.leads hread.sound.leads
  have htext : (scan c).1.offset = (skipSpace c).cursor.offset := congrArg Cursor.offset hread.start
  have hgap (hnil : (scan c).2 = []) := skipSpace_gap (List.append_eq_nil_iff.1 hnil).1
  have hbetween (n : Nat) : between text q n = c.textTo n := by rw [between, hc]
  exact {
    start := hstart.place_eq.symm
    finish := hfinish.place_eq.symm
    after := hoffset ▸ hplace.offset_le_of_leads (leads_scan c)
    within := hfinish.offset_le
    lexeme := by
      rw [hread.lexeme, ← hread.start, between, Token.offset, hstart.place_eq]
    progress := fun hkind => by
      have hrest : (scan c).1.start.rest ≠ [] := fun hnil => hkind (hread.sound.atEnd hnil)
      have hlt := hread.sound.leads.lt hrest
      have := hstart.offset_add_left
      have := hfinish.offset_add_left
      rw [Token.offset]
      omega
    ends := fun hkind => by
      have hrest : (scan c).1.start.left = 0 := left_eq_zero.2 (hread.start ▸ hread.ends hkind)
      have := (step_leads _).left.trans (Nat.le_of_eq hrest)
      have := hread.sound.leads.left
      have := hstart.offset_add_left
      have := hfinish.offset_add_left
      rw [Token.offset]
      omega
    gap := fun hnil => by
      rw [hbetween, Token.offset, hstart.place_eq, hread.start, ← hoffset]
      exact (hgap hnil).1
    newLine := fun hnil => by
      have hvalue : (scan c).1.onNewLine = (skipSpace c).value := onNewLine_scanAt _ _
      rw [hvalue, (hgap hnil).2, hbetween, htext, List.any_eq_true] }

theorem Tiles.offset_le {t : Token} {faults : List Fault} (h : Tiles text q t faults) : q ≤ t.finish.offset := by
  have := h.after
  by_cases hkind : t.kind = .eof
  · rw [(h.ends hkind).1] at this
    rwa [(h.ends hkind).2]
  · have := h.progress hkind
    omega

/-! ### All tokens -/

/-- The place after the first `n` tokens of a text. -/
def placeAfter (text : String) : Nat → Cursor
  | 0 => ofString text
  | n + 1 => (scan (placeAfter text n)).1.finish

/-- The gap before the token that is read from a place, and its lexeme. -/
def tile (c : Cursor) : List Char := c.textTo (scan c).1.offset ++ (scan c).1.lexeme.toList

/-- The tokens of a text, the first of which that is its end comes after `n` others. -/
structure Covers (text : String) (n : Nat) : Prop where
  ends : ∀ k ≤ n, (scan (placeAfter text k)).1.kind = .eof ↔ k = n
  tiles : ∀ k ≤ n, Tiles text (placeAfter text k).offset (scan (placeAfter text k)).1 (scan (placeAfter text k)).2
  /-- Every byte of the text belongs to one token or to the gap before it. -/
  once : ∀ p < text.utf8ByteSize,
    ∃! k, k ≤ n ∧ (placeAfter text k).offset ≤ p ∧ p < (placeAfter text (k + 1)).offset
  /-- Where no fault is found, the gaps and lexemes in a row are the text. -/
  whole : (∀ k ≤ n, (scan (placeAfter text k)).2 = []) →
    text.toList = (List.range (n + 1)).flatMap fun k => tile (placeAfter text k)

theorem placeAfter_of (text : String) (n : Nat) : (placeAfter text n).Of text := by
  induction n with
  | zero => exact ofString_of text
  | succ n ih =>
    have htiles := scan_tiles ih.offset_le
    rw [ih.place_eq] at htiles
    rw [placeAfter, htiles.finish]
    exact place_of htiles.within

theorem placeAfter_tiles (text : String) (n : Nat) :
    Tiles text (placeAfter text n).offset (scan (placeAfter text n)).1 (scan (placeAfter text n)).2 := by
  have htiles := scan_tiles (placeAfter_of text n).offset_le
  rwa [(placeAfter_of text n).place_eq] at htiles

theorem monotone_placeAfter (text : String) : Monotone fun n => (placeAfter text n).offset :=
  monotone_nat_of_le_succ fun n => (placeAfter_tiles text n).offset_le

/-- Every token but the end takes up a byte. -/
theorem placeAfter_lt {n : Nat} (h : (scan (placeAfter text n)).1.kind ≠ .eof) :
    (placeAfter text n).offset < (placeAfter text (n + 1)).offset :=
  Nat.lt_of_le_of_lt (placeAfter_tiles text n).after ((placeAfter_tiles text n).progress h)

theorem exists_eof (text : String) : ∃ n ≤ text.utf8ByteSize, (scan (placeAfter text n)).1.kind = .eof := by
  by_contra! hnone
  have hgrow : ∀ n ≤ text.utf8ByteSize + 1, n ≤ (placeAfter text n).offset := by
    intro n
    induction n with
    | zero => exact fun _ => Nat.zero_le _
    | succ n ih => exact fun hn => Nat.lt_of_le_of_lt (ih (by omega)) (placeAfter_lt (hnone n (by omega)))
  exact absurd (placeAfter_of text _).offset_le (Nat.not_le.2 (hgrow _ (Nat.le_refl _)))

/-- A byte before the place after some tokens belongs to one of them or to the gap before it. -/
theorem exists_between (text : String) {n p : Nat} (hp : p < (placeAfter text n).offset) :
    ∃ k < n, (placeAfter text k).offset ≤ p ∧ p < (placeAfter text (k + 1)).offset := by
  induction n with
  | zero => exact absurd hp (Nat.not_lt_zero p)
  | succ n ih =>
    rcases Nat.lt_or_ge p (placeAfter text n).offset with h | h
    · obtain ⟨k, hk, hbetween⟩ := ih h
      exact ⟨k, Nat.lt_succ_of_lt hk, hbetween⟩
    · exact ⟨n, Nat.lt_succ_self n, h, hp⟩

/-- No byte belongs to two of them. -/
theorem placeAfter_inj {k l p : Nat} (hk : (placeAfter text k).offset ≤ p) (hk' : p < (placeAfter text (k + 1)).offset)
    (hl : (placeAfter text l).offset ≤ p) (hl' : p < (placeAfter text (l + 1)).offset) : k = l := by
  have hle {i j : Nat} (hi : p < (placeAfter text (i + 1)).offset) (hj : (placeAfter text j).offset ≤ p) : j ≤ i := by
    by_contra! hij
    exact Nat.lt_irrefl p (Nat.lt_of_lt_of_le hi (Nat.le_trans (monotone_placeAfter text hij) hj))
  exact Nat.le_antisymm (hle hl' hk) (hle hk' hl)

/-- Where no fault is found, what is ahead is a gap, a lexeme and what is ahead of it. -/
theorem chars_eq_tile {c : Cursor} (h : (scan c).2 = []) : c.chars = tile c ++ (scan c).1.finish.chars := by
  obtain ⟨-, hfaults⟩ := List.append_eq_nil_iff.1 h
  have hread : (scan c).1.ReadAt (scanAt (skipSpace c).value (skipSpace c).cursor).2 (skipSpace c).cursor :=
    scanAt_readAt _ _
  have hgap : c.Passes (skipSpace c).cursor := skipSpace_passes c
  rw [(hgap.trans (hread.whole hfaults)).chars_eq, hgap.textTo_append (hread.whole hfaults), tile, Token.offset,
    hread.start, hread.lexeme, String.toList_ofList]

theorem toList_eq_tiles (text : String) {n : Nat} (h : ∀ k < n, (scan (placeAfter text k)).2 = []) :
    text.toList = ((List.range n).flatMap fun k => tile (placeAfter text k)) ++ (placeAfter text n).chars := by
  induction n with
  | zero =>
    show _ = (text.toList.map Glyph.ofChar).map Glyph.char
    rw [List.map_map]
    exact (List.map_id _).symm
  | succ n ih =>
    rw [ih fun k hk => h k (Nat.lt_succ_of_lt hk), chars_eq_tile (h n (Nat.lt_succ_self n)), List.range_succ,
      List.flatMap_append, List.flatMap_singleton, List.append_assoc]
    rfl

theorem exists_covers (text : String) : ∃ n ≤ text.utf8ByteSize, Covers text n := by
  classical
  obtain ⟨m, hm, heof⟩ := exists_eof text
  let hex : ∃ n, (scan (placeAfter text n)).1.kind = .eof := ⟨m, heof⟩
  have hfind : (scan (placeAfter text (Nat.find hex))).1.kind = .eof := Nat.find_spec hex
  have hsize : (placeAfter text (Nat.find hex + 1)).offset = text.utf8ByteSize :=
    ((placeAfter_tiles text _).ends hfind).2
  refine ⟨Nat.find hex, Nat.le_trans (Nat.find_min' hex heof) hm, ?_⟩
  exact {
    ends := fun k hk => ⟨fun hend => Nat.le_antisymm hk (Nat.find_min' hex hend), fun hend => hend ▸ hfind⟩
    tiles := fun k _ => placeAfter_tiles text k
    once := fun p hp => by
      rw [← hsize] at hp
      obtain ⟨k, hk, hbetween⟩ := exists_between text hp
      refine ⟨k, ⟨Nat.le_of_lt_succ hk, hbetween⟩, ?_⟩
      rintro l ⟨-, hl, hl'⟩
      exact placeAfter_inj hl hl' hbetween.1 hbetween.2
    whole := fun hnil => by
      have hleft := (placeAfter_of text (Nat.find hex + 1)).offset_add_left
      have hrest : (placeAfter text (Nat.find hex + 1)).rest = [] := left_eq_zero.1 (by omega)
      rw [toList_eq_tiles text fun k hk => hnil k (Nat.le_of_lt_succ hk), chars, hrest, List.map_nil,
        List.append_nil] }

/-- From every offset of a text a token is read after it, and the tokens that are read one after another from the
start of the text cover it. -/
theorem tokens_tile (text : String) :
    (∀ q ≤ text.utf8ByteSize, Tiles text q (scan (place text q)).1 (scan (place text q)).2) ∧
      ∃ n ≤ text.utf8ByteSize, Covers text n :=
  ⟨fun _ => scan_tiles, exists_covers text⟩

end Token

end Deadwood
