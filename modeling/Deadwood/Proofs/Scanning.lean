import Deadwood.Lexer

/-!
# Reading goes forward

Every reader of the lexer leaves a cursor some bytes after the one it was given, and cuts a character only where
it finds fault.  A token takes up the text of its lexeme, which is at least one byte except at the end of the text.
-/

namespace Deadwood

open Text Number

/-! ### Bytes ahead -/

theorem byteCount_cons (g : Glyph) (gs : List Glyph) : byteCount (g :: gs) = g.size + byteCount gs := rfl

theorem Glyph.size_pos (g : Glyph) : 0 < g.size := Nat.succ_pos _

theorem byteCount_append (gs hs : List Glyph) : byteCount (gs ++ hs) = byteCount gs + byteCount hs := by
  induction gs with
  | nil => exact (Nat.zero_add _).symm
  | cons g gs ih => rw [List.cons_append, byteCount_cons, ih, byteCount_cons, Nat.add_assoc]

theorem byteCount_eq_zero {gs : List Glyph} : byteCount gs = 0 ↔ gs = [] := by
  cases gs with
  | nil => exact ⟨fun _ => rfl, fun _ => rfl⟩
  | cons g gs =>
    have := g.size_pos
    simp only [byteCount_cons, List.cons_ne_nil, iff_false]
    omega

theorem byteCount_replicate_stray (n : Nat) (gs : List Glyph) :
    byteCount (List.replicate n .stray ++ gs) = n + byteCount gs := by
  induction n with
  | zero => simp
  | succ n ih =>
    rw [List.replicate_succ, List.cons_append, byteCount_cons, ih]
    show 1 + _ = _
    omega

theorem byteCount_map_ofChar (cs : List Char) : byteCount (cs.map Glyph.ofChar) = cs.utf8Encode.size := by
  induction cs with
  | nil => rfl
  | cons ch cs ih =>
    have hch : [ch].utf8Encode.size = ch.utf8Size := by simp [List.utf8Encode_singleton]
    have hpos := ch.utf8Size_pos
    rw [List.utf8Encode_cons, ByteArray.size_append, ← ih, hch]
    show ch.utf8Size - 1 + 1 + byteCount (cs.map Glyph.ofChar) = _
    omega

namespace Cursor

/-- The number of bytes ahead. -/
def left (c : Cursor) : Nat := byteCount c.rest

/-- No glyph ahead has more bytes than a character can have. -/
def IsText (c : Cursor) : Prop := ∀ g ∈ c.rest, g.size ≤ 4

theorem isText_ofString (s : String) : (ofString s).IsText := by
  intro g hg
  obtain ⟨ch, -, rfl⟩ := List.mem_map.1 hg
  have := ch.utf8Size_le_four
  show ch.utf8Size - 1 + 1 ≤ 4
  omega

theorem left_ofString (s : String) : (ofString s).left = s.utf8ByteSize := by
  show byteCount (s.toList.map Glyph.ofChar) = _
  rw [byteCount_map_ofChar, ← String.toByteArray_ofList, String.ofList_toList, String.size_toByteArray]

theorem left_eq_zero {c : Cursor} : c.left = 0 ↔ c.rest = [] := byteCount_eq_zero

theorem peek?_eq_none {c : Cursor} : c.peek? = none ↔ c.rest = [] := by
  simp [peek?]

theorem peek?_eq_some {c : Cursor} {ch : Char} :
    c.peek? = some ch ↔ ∃ g gs, c.rest = g :: gs ∧ g.char = ch := by
  cases h : c.rest <;> simp [peek?, h]

theorem rest_ne_nil {c : Cursor} {ch : Char} (h : c.peek? = some ch) : c.rest ≠ [] := by
  rintro hr
  rw [peek?_eq_none.2 hr] at h
  cases h

/-! ### Bytes passed -/

@[simp] theorem skipBytes_zero (c : Cursor) : c.skipBytes 0 = c := by
  obtain ⟨o, rest⟩ := c
  cases rest <;> rfl

/-- Bytes that were left over are passed one by one. -/
theorem skipBytes_go_stray (k : Nat) (gs : List Glyph) (n o : Nat) :
    skipBytes.go n o (List.replicate k .stray ++ gs) =
      if n ≤ k then ⟨o + n, List.replicate (k - n) .stray ++ gs⟩ else skipBytes.go (n - k) (o + k) gs := by
  induction k generalizing n o with
  | zero =>
    split
    · next hn =>
      obtain rfl := Nat.le_zero.1 hn
      exact skipBytes_zero ⟨o, gs⟩
    · rfl
  | succ k ih =>
    have hsize : Glyph.stray.size = 1 := rfl
    rw [List.replicate_succ, List.cons_append, skipBytes.go, hsize]
    by_cases hn : n = 0
    · simp [hn, List.replicate_succ]
    · have hone : 1 ≤ n := Nat.one_le_iff_ne_zero.2 hn
      have hsub : k + 1 - n = k - (n - 1) := by omega
      have hadd : o + 1 + (n - 1) = o + n := by omega
      have hsub' : n - (k + 1) = n - 1 - k := by omega
      have hadd' : o + (k + 1) = o + 1 + k := by omega
      have hle : n - 1 ≤ k ↔ n ≤ k + 1 := by omega
      rw [if_neg hn, if_pos hone, ih, hsub, hadd, hsub', hadd']
      simp only [hle]

theorem skipBytes_go_add (gs : List Glyph) (m n o : Nat) :
    skipBytes.go (m + n) o gs = (skipBytes.go m o gs).skipBytes n := by
  induction gs generalizing m o with
  | nil => rfl
  | cons g gs ih =>
    by_cases hm : m = 0
    · subst hm
      rw [Nat.zero_add]
      rfl
    have hmn : m + n ≠ 0 := by omega
    rw [skipBytes.go, if_neg hmn, skipBytes.go, if_neg hm]
    by_cases hg : g.size ≤ m
    · rw [if_pos (Nat.le_add_right_of_le hg), if_pos hg, Nat.sub_add_comm hg, ih]
    · rw [if_neg hg, skipBytes, skipBytes_go_stray]
      have hle : n ≤ g.size - m ↔ m + n ≤ g.size := by omega
      simp only [hle]
      -- A cut that ends with the character is none.
      rcases Nat.lt_trichotomy g.size (m + n) with h | h | h
      · have hsub : m + n - g.size = n - (g.size - m) := by omega
        have hadd : o + g.size = o + m + (g.size - m) := by omega
        rw [if_pos (Nat.le_of_lt h), if_neg (Nat.not_le.2 h), hsub, hadd]
      · have hsub : g.size - m - n = 0 := by omega
        have hadd : o + m + n = o + g.size := by omega
        rw [if_pos (Nat.le_of_eq h), if_pos (Nat.le_of_eq h.symm), ← h, Nat.sub_self, hsub, hadd]
        exact skipBytes_zero ⟨o + g.size, gs⟩
      · have hsub : g.size - (m + n) = g.size - m - n := by omega
        rw [if_neg (Nat.not_le.2 h), if_pos (Nat.le_of_lt h), hsub, Nat.add_assoc]

theorem skipBytes_add (c : Cursor) (m n : Nat) : c.skipBytes (m + n) = (c.skipBytes m).skipBytes n :=
  skipBytes_go_add c.rest m n c.offset

theorem skipBytes_go_passed (gs rest : List Glyph) (o : Nat) :
    skipBytes.go (byteCount gs) o (gs ++ rest) = ⟨o + byteCount gs, rest⟩ := by
  induction gs generalizing o with
  | nil => exact skipBytes_zero ⟨o, rest⟩
  | cons g gs ih =>
    have hpos := g.size_pos
    rw [List.cons_append, byteCount_cons, skipBytes.go, if_neg (by omega), if_pos (Nat.le_add_right _ _),
      Nat.add_sub_cancel_left, ih, Nat.add_assoc]

theorem passed_skipBytes_go (gs : List Glyph) (n o : Nat) (h : n ≤ byteCount gs) :
    (skipBytes.go n o gs).offset = o + n ∧ (skipBytes.go n o gs).left = byteCount gs - n := by
  induction gs generalizing n o with
  | nil =>
    obtain rfl := Nat.le_zero.1 h
    exact ⟨rfl, rfl⟩
  | cons g gs ih =>
    rw [byteCount_cons] at h
    rw [skipBytes.go, byteCount_cons]
    split
    · next hn =>
      subst hn
      exact ⟨rfl, rfl⟩
    split
    · obtain ⟨hoffset, hleft⟩ := ih (n - g.size) (o + g.size) (by omega)
      rw [hoffset, hleft]
      omega
    · refine ⟨rfl, ?_⟩
      show byteCount (List.replicate _ _ ++ gs) = _
      rw [byteCount_replicate_stray]
      omega

theorem offset_skipBytes {c : Cursor} {n : Nat} (h : n ≤ c.left) : (c.skipBytes n).offset = c.offset + n :=
  (passed_skipBytes_go c.rest n c.offset h).1

theorem left_skipBytes {c : Cursor} {n : Nat} (h : n ≤ c.left) : (c.skipBytes n).left = c.left - n :=
  (passed_skipBytes_go c.rest n c.offset h).2

/-! ### Cut characters -/

theorem isText_skipBytes_go {gs : List Glyph} (h : ∀ g ∈ gs, g.size ≤ 4) :
    ∀ n o, (skipBytes.go n o gs).IsText := by
  induction gs with
  | nil => exact fun n o g hg => h g hg
  | cons g gs ih =>
    intro n o
    obtain ⟨hg, hgs⟩ := List.forall_mem_cons.1 h
    rw [skipBytes.go]
    split
    · exact h
    split
    · exact ih hgs _ _
    · intro x hx
      rcases List.mem_append.1 hx with hx | hx
      · rw [List.eq_of_mem_replicate hx]
        decide
      · exact hgs x hx

/-- A cut leaves at most three bytes of a character of four. -/
theorem length_skipBytes_go {gs : List Glyph} (h : ∀ g ∈ gs, g.size ≤ 4) :
    ∀ n o, (skipBytes.go n o gs).rest.length + min n 2 ≤ gs.length + 3 := by
  induction gs with
  | nil =>
    intro n o
    show 0 + min n 2 ≤ 0 + 3
    omega
  | cons g gs ih =>
    intro n o
    obtain ⟨hg, hgs⟩ := List.forall_mem_cons.1 h
    rw [skipBytes.go]
    split
    · next hn =>
      show gs.length + 1 + min n 2 ≤ gs.length + 1 + 3
      omega
    split
    · by_cases hn : n - g.size = 0
      · have : (skipBytes.go (n - g.size) (o + g.size) gs).rest = gs := by
          rw [hn]
          cases gs <;> rfl
        rw [this, List.length_cons]
        omega
      · have := ih hgs (n - g.size) (o + g.size)
        rw [List.length_cons]
        omega
    · show (List.replicate (g.size - n) Glyph.stray ++ gs).length + _ ≤ _
      rw [List.length_append, List.length_replicate, List.length_cons]
      omega

/-! ### Cursors further on -/

/-- The cursor `c` is some bytes before `d`. -/
def Before (c d : Cursor) : Prop := ∃ n ≤ c.left, d = c.skipBytes n

theorem Before.refl (c : Cursor) : c.Before c := ⟨0, Nat.zero_le _, c.skipBytes_zero.symm⟩

theorem Before.trans {c d e : Cursor} (h : c.Before d) (h' : d.Before e) : c.Before e := by
  obtain ⟨n, hn, rfl⟩ := h
  obtain ⟨m, hm, rfl⟩ := h'
  rw [left_skipBytes hn] at hm
  exact ⟨n + m, by omega, (c.skipBytes_add n m).symm⟩

/-- The cursor `d` is no further back than `c`, and no more glyphs are ahead of it. -/
structure Leads (c d : Cursor) : Prop where
  before : c.Before d
  length : c.IsText → d.rest.length ≤ c.rest.length

namespace Leads

variable {c d e : Cursor}

theorem refl (c : Cursor) : c.Leads c := ⟨.refl c, fun _ => Nat.le_refl _⟩

theorem left (h : c.Leads d) : d.left ≤ c.left := by
  obtain ⟨n, hn, rfl⟩ := h.before
  rw [left_skipBytes hn]
  exact Nat.sub_le _ _

theorem isText (h : c.Leads d) (hc : c.IsText) : d.IsText := by
  obtain ⟨n, -, rfl⟩ := h.before
  exact isText_skipBytes_go hc n c.offset

theorem trans (h : c.Leads d) (h' : d.Leads e) : c.Leads e where
  before := h.before.trans h'.before
  length hc := Nat.le_trans (h'.length (h.isText hc)) (h.length hc)

end Leads

/-- The cursor `d` is some glyphs after `c`, and none of them is cut. -/
def Passes (c d : Cursor) : Prop := ∃ gs, c.rest = gs ++ d.rest ∧ d.offset = c.offset + byteCount gs

namespace Passes

variable {c d e : Cursor}

theorem refl (c : Cursor) : c.Passes c := ⟨[], rfl, rfl⟩

theorem trans (h : c.Passes d) (h' : d.Passes e) : c.Passes e := by
  obtain ⟨gs, hrest, hoffset⟩ := h
  obtain ⟨gs', hrest', hoffset'⟩ := h'
  refine ⟨gs ++ gs', by rw [hrest, hrest', List.append_assoc], ?_⟩
  rw [hoffset', hoffset, byteCount_append, Nat.add_assoc]

theorem leads (h : c.Passes d) : c.Leads d where
  before := by
    obtain ⟨gs, hrest, hoffset⟩ := h
    obtain ⟨o, rest⟩ := d
    subst hoffset
    refine ⟨byteCount gs, ?_, ?_⟩
    · rw [left, hrest, byteCount_append]
      exact Nat.le_add_right _ _
    · rw [skipBytes, hrest, skipBytes_go_passed]
  length _ := by
    obtain ⟨gs, hrest, -⟩ := h
    rw [hrest, List.length_append]
    exact Nat.le_add_left _ _

end Passes

theorem step_passes (c : Cursor) : c.Passes c.step := by
  unfold step
  split
  · exact .refl c
  · next g gs h => exact ⟨[g], h, congrArg (c.offset + ·) (Nat.add_zero _).symm⟩

theorem dropWhile_passes (p : Char → Bool) (c : Cursor) : c.Passes (c.dropWhile p) := by
  suffices h : ∀ gs o, Passes ⟨o, gs⟩ (dropWhile.go p o gs) from h _ _
  intro gs
  induction gs with
  | nil => exact fun o => .refl _
  | cons g gs ih =>
    intro o
    rw [dropWhile.go]
    split
    · exact (step_passes ⟨o, g :: gs⟩).trans (ih _)
    · exact .refl _

theorem skip_passes (n : Nat) (c : Cursor) : c.Passes (c.skip n) := by
  induction n generalizing c with
  | zero => exact .refl c
  | succ n ih => exact c.step_passes.trans (ih c.step)

theorem step_leads (c : Cursor) : c.Leads c.step := c.step_passes.leads

theorem skip_leads (n : Nat) (c : Cursor) : c.Leads (c.skip n) := (skip_passes n c).leads

/-- One glyph after the other is passed. -/
theorem rest_eq_cons_step {c : Cursor} (h : c.rest ≠ []) : ∃ g, c.rest = g :: c.step.rest := by
  obtain ⟨g, gs, hr⟩ := List.exists_cons_of_ne_nil h
  exact ⟨g, by simp only [step, hr]⟩

theorem left_step (c : Cursor) : c.step.left ≤ c.left - 1 := by
  by_cases h : c.rest = []
  · have hstep := c.step_leads.left
    rw [left_eq_zero.2 h] at hstep ⊢
    exact hstep
  · obtain ⟨g, hg⟩ := rest_eq_cons_step h
    have hpos := g.size_pos
    show byteCount c.step.rest ≤ byteCount c.rest - 1
    rw [hg, byteCount_cons]
    omega

/-- A cursor past the first glyph is further on. -/
theorem Leads.lt {c d : Cursor} (h : c.step.Leads d) (hc : c.rest ≠ []) : d.left < c.left := by
  have hpos : c.left ≠ 0 := mt left_eq_zero.1 hc
  have := c.left_step
  have := h.left
  omega

theorem Leads.length_lt {c d : Cursor} (h : c.step.Leads d) (hc : c.rest ≠ []) (ht : c.IsText) :
    d.rest.length < c.rest.length := by
  obtain ⟨g, hg⟩ := rest_eq_cons_step hc
  have := h.length (c.step_leads.isText ht)
  rw [hg, List.length_cons]
  omega

theorem dropWhile_of_false {p : Char → Bool} {c : Cursor} {ch : Char} (h : c.peek? = some ch)
    (hp : p ch = false) : c.dropWhile p = c := by
  obtain ⟨g, gs, hr, rfl⟩ := peek?_eq_some.1 h
  obtain ⟨o, rest⟩ := c
  cases hr
  simp [dropWhile, dropWhile.go, hp]

theorem dropWhile_of_true {p : Char → Bool} {c : Cursor} {ch : Char} (h : c.peek? = some ch)
    (hp : p ch = true) : c.dropWhile p = c.step.dropWhile p := by
  obtain ⟨g, gs, hr, rfl⟩ := peek?_eq_some.1 h
  obtain ⟨o, rest⟩ := c
  cases hr
  simp [dropWhile, dropWhile.go, hp, step]

theorem step_passes_dropWhile {p : Char → Bool} {c : Cursor} {ch : Char} (h : c.peek? = some ch)
    (hp : p ch = true) : c.step.Passes (c.dropWhile p) :=
  dropWhile_of_true h hp ▸ dropWhile_passes p c.step

theorem startsWith_cons {c : Cursor} {ch : Char} {cs : List Char} (h : c.startsWith (ch :: cs) = true) :
    c.peek? = some ch ∧ c.step.startsWith cs = true := by
  obtain ⟨o, rest⟩ := c
  cases rest with
  | nil => simp [startsWith] at h
  | cons g gs => simpa [startsWith, peek?, step] using h

end Cursor

open Cursor

/-! ### Readers -/

variable {α β : Type}

/-- Both branches of a reader are past whole glyphs. -/
theorem Cursor.Passes.ite {c : Cursor} {p : Prop} [Decidable p] {r r' : Scan α}
    (h : c.Passes r.cursor) (h' : c.Passes r'.cursor) : c.Passes (if p then r else r').cursor := by
  split
  · exact h
  · exact h'

/-- A reader goes forward, and cuts a character only where it finds fault. -/
structure Scan.Forward (c : Cursor) (r : Scan α) : Prop where
  leads : c.Leads r.cursor
  whole : r.faults = [] → c.Passes r.cursor

namespace Scan.Forward

variable {c d : Cursor} {r r' : Scan α}

theorem of_passes (h : c.Passes r.cursor) : r.Forward c := ⟨h.leads, fun _ => h⟩

/-- A reader may cut a character where it has found fault. -/
theorem of_fault (h : c.Leads r.cursor) (hr : r.faults ≠ []) : r.Forward c := ⟨h, fun hnil => absurd hnil hr⟩

theorem ite {p : Prop} [Decidable p] (h : r.Forward c) (h' : r'.Forward c) : (if p then r else r').Forward c := by
  split
  · exact h
  · exact h'

/-- One reader after another. -/
theorem append {e : Scan β} (he : e.Forward c) (hr : r.Forward e.cursor) (a : α) :
    Scan.Forward c ⟨a, r.cursor, e.faults ++ r.faults⟩ where
  leads := he.leads.trans hr.leads
  whole hnil := by
    obtain ⟨hefaults, hrfaults⟩ := List.append_eq_nil_iff.1 hnil
    exact (he.whole hefaults).trans (hr.whole hrfaults)

theorem after (hcd : c.Passes d) (hr : r.Forward d) : r.Forward c :=
  ⟨hcd.leads.trans hr.leads, fun hnil => hcd.trans (hr.whole hnil)⟩

end Scan.Forward

/-! ### Escapes -/

theorem scanCodePoint_leads {c : Cursor} (h : c.rest ≠ []) : c.Leads (scanCodePoint c.step).2 := by
  unfold scanCodePoint
  split
  · dsimp only
    split
    · exact c.step_leads
    · exact ((c.step_passes.trans (dropWhile_passes _ _)).trans (step_passes _)).leads
  split
  · exact (c.step_passes.trans (dropWhile_passes _ _)).leads
  dsimp only
  split
  · exact (c.step_passes.trans (skip_passes _ _)).leads
  · next hfour _ =>
    obtain ⟨g, hg⟩ := rest_eq_cons_step h
    have hleft : 4 ≤ c.step.left := by
      have happend := byteCount_append (c.step.rest.take 4) (c.step.rest.drop 4)
      rw [List.take_append_drop] at happend
      rw [left]
      omega
    refine ⟨c.step_leads.before.trans ⟨4, hleft, rfl⟩, fun hc => ?_⟩
    have := length_skipBytes_go (c.step_leads.isText hc) 4 c.step.offset
    rw [hg, List.length_cons]
    show (skipBytes.go 4 c.step.offset c.step.rest).rest.length ≤ _
    omega

/-- A code point ends with a whole glyph. -/
theorem scanCodePoint_passes {c d : Cursor} {n : Nat} (h : scanCodePoint c = (some n, d)) : c.Passes d := by
  unfold scanCodePoint at h
  split at h
  · dsimp only at h
    split at h
    · cases h
    · obtain ⟨-, rfl⟩ := Prod.mk.inj h
      exact (dropWhile_passes _ _).trans (step_passes _)
  split at h
  · cases h
  dsimp only at h
  split at h
  · cases h
    exact skip_passes _ _
  · cases h

theorem joinSurrogate_passes (high : Nat) (c : Cursor) : c.Passes (joinSurrogate high c).2 := by
  unfold joinSurrogate
  split
  · split
    · next low d hd =>
      split
      · exact (skip_passes 2 c).trans (scanCodePoint_passes hd)
      · exact .refl c
    · exact .refl c
  · exact .refl c

theorem scanOctal_passes (n v : Nat) (c : Cursor) : c.Passes (scanOctal n v c).2 := by
  induction n generalizing v c with
  | zero => exact .refl c
  | succ n ih =>
    unfold scanOctal
    split
    · split
      · exact c.step_passes.trans (ih _ _)
      · exact .refl c
    · exact .refl c

theorem scanEscape_forward (inTemplate : Bool) (c : Cursor) : (scanEscape inTemplate c).Forward c := by
  unfold scanEscape
  split
  · exact .of_passes (.refl c)
  next ch h =>
  have hpoint := scanCodePoint_leads (rest_ne_nil h)
  have hstep := c.step_passes
  dsimp only
  -- the letters that stand for one control character
  iterate 6 apply Scan.Forward.ite (.of_passes hstep)
  apply Scan.Forward.ite
  · refine .of_passes ?_
    show c.Passes (if _ then _ else _)
    split
    · exact hstep.trans (step_passes _)
    · exact hstep
  apply Scan.Forward.ite (.of_passes hstep)
  apply Scan.Forward.ite
  · exact .ite (.of_passes (hstep.trans (skip_passes _ _))) (.of_passes hstep)
  apply Scan.Forward.ite
  · split
    · next n d hd =>
      exact .of_passes ((hstep.trans (scanCodePoint_passes hd)).trans (joinSurrogate_passes _ _))
    · next d hd =>
      rw [hd] at hpoint
      exact .of_fault hpoint (List.cons_ne_nil _ _)
  apply Scan.Forward.ite (.of_passes hstep)
  apply Scan.Forward.ite
  · exact .of_passes (hstep.trans (scanOctal_passes _ _ _))
  · exact .of_passes hstep

theorem scanEscape_leads (inTemplate : Bool) (c : Cursor) : c.Leads (scanEscape inTemplate c).cursor :=
  (scanEscape_forward inTemplate c).leads

/-! ### Names -/

/-- A character of a name is passed, and the rest of the name is read further on. -/
theorem scanNameFrom_step (g : Glyph) (bound : List Glyph) {c : Cursor} {ch : Char} (h : c.peek? = some ch)
    (hch : ch = '\\' ∨ isNamePart ch = true) :
    ∃ c', c.step.Leads c' ∧ (scanNameFrom (g :: bound) c).cursor = (scanNameFrom bound c').cursor ∧
      ((scanNameFrom (g :: bound) c).faults = [] → c.Passes c' ∧ (scanNameFrom bound c').faults = []) := by
  rw [scanNameFrom.eq_def, h]
  dsimp only
  by_cases hback : ch = '\\'
  · rw [if_pos hback]
    split
    · next hu =>
      have hstep : c.step.rest ≠ [] := by
        obtain ⟨g, hg⟩ := rest_eq_cons_step (rest_ne_nil h)
        intro hnil
        simp [second?, hg, hnil] at hu
      refine ⟨_, scanCodePoint_leads hstep, rfl, fun hnil => ?_⟩
      obtain ⟨hpoint, hrest⟩ := List.append_eq_nil_iff.1 hnil
      refine ⟨(skip_passes 2 c).trans ?_, hrest⟩
      cases hn : (scanCodePoint (c.skip 2)).1 with
      | none =>
        rw [hn] at hpoint
        cases hpoint
      | some n => exact scanCodePoint_passes (Prod.ext hn rfl)
    · exact ⟨_, .refl _, rfl, nofun⟩
  · rw [if_neg hback, if_pos (hch.resolve_left hback)]
    exact ⟨_, .refl _, rfl, fun hnil => ⟨c.step_passes, hnil⟩⟩

theorem scanNameFrom_forward (bound : List Glyph) (c : Cursor) : (scanNameFrom bound c).Forward c := by
  induction bound generalizing c with
  | nil => exact .of_passes (.refl c)
  | cons g bound ih =>
    cases h : c.peek? with
    | none =>
      rw [scanNameFrom.eq_def, h]
      exact .of_passes (.refl c)
    | some ch =>
      by_cases hch : ch = '\\' ∨ isNamePart ch = true
      · obtain ⟨c', hc', heq, hwhole⟩ := scanNameFrom_step g bound h hch
        refine ⟨heq ▸ (c.step_leads.trans hc').trans (ih c').leads, fun hnil => ?_⟩
        obtain ⟨hpasses, hrest⟩ := hwhole hnil
        exact heq ▸ hpasses.trans ((ih c').whole hrest)
      · obtain ⟨hback, hpart⟩ := not_or.1 hch
        rw [scanNameFrom.eq_def, h]
        dsimp only
        rw [if_neg hback, if_neg hpart]
        exact .of_passes (.refl c)

/-- A name that begins ahead has a first character. -/
theorem scanName_leads {c : Cursor} {ch : Char} (h : c.peek? = some ch)
    (hch : ch = '\\' ∨ isNamePart ch = true) : c.step.Leads (scanName c).cursor := by
  obtain ⟨g, hg⟩ := rest_eq_cons_step (rest_ne_nil h)
  unfold scanName
  rw [hg]
  obtain ⟨c', hc', heq, -⟩ := scanNameFrom_step g c.step.rest h hch
  rw [heq]
  exact hc'.trans (scanNameFrom_forward _ _).leads

/-! ### Numbers -/

theorem scanDigits_passes (base : Nat) (c : Cursor) : c.Passes (scanDigits base c).2 := dropWhile_passes _ c

theorem scanExponent_passes (c : Cursor) : c.Passes (scanExponent c).2 := by
  unfold scanExponent
  split
  · dsimp only
    split
    · exact .refl c
    · next ds d hd =>
      have hdigits := congrArg Prod.snd hd
      dsimp only at hdigits ⊢
      rw [← hdigits]
      refine c.step_passes.trans (Passes.trans ?_ (scanDigits_passes 10 _))
      split
      · exact step_passes _
      · exact .refl _
  · exact .refl c

theorem scanDecimal_passes {c : Cursor} {ch : Char} (h : c.peek? = some ch)
    (hch : isDigitIn 10 ch = true ∨ ch = '.') : c.step.Passes (scanDecimal c).2 := by
  unfold scanDecimal
  by_cases hdigit : isDigitIn 10 ch = true
  · have hwhole : c.step.Passes (scanDigits 10 c).2 := step_passes_dropWhile h (by simp [hdigit])
    refine hwhole.trans (Passes.trans ?_ (scanExponent_passes _))
    split
    · exact (step_passes _).trans (scanDigits_passes 10 _)
    · exact .refl _
  · have hdot := hch.resolve_left hdigit
    have hwhole : (scanDigits 10 c).2 = c := by
      refine dropWhile_of_false h ?_
      subst hdot
      decide
    dsimp only
    rw [hwhole, if_pos (hdot ▸ h)]
    exact (scanDigits_passes 10 _).trans (scanExponent_passes _)

theorem scanMagnitude_passes {c : Cursor} {ch : Char} (h : c.peek? = some ch)
    (hch : isDigitIn 10 ch = true ∨ ch = '.') : c.step.Passes (scanMagnitude c).cursor := by
  unfold scanMagnitude
  split
  · exact (step_passes _).trans (scanDigits_passes _ _)
  · split
    · exact skip_passes _ _
    · exact scanDecimal_passes h hch

theorem scanNumber_passes {c : Cursor} {ch : Char} (h : c.peek? = some ch)
    (hch : isDigitIn 10 ch = true ∨ ch = '.') : c.step.Passes (scanNumber c).cursor := by
  have hmagnitude := scanMagnitude_passes h hch
  unfold scanNumber
  exact .ite (hmagnitude.trans (step_passes _)) (.ite hmagnitude hmagnitude)

/-! ### Strings, templates and regular expressions -/

theorem scanStringFrom_forward (start : Nat) (quote : Char) (bound : List Glyph) (c : Cursor) :
    (scanStringFrom start quote bound c).Forward c := by
  induction bound generalizing c with
  | nil => exact .of_passes (.refl c)
  | cons g bound ih =>
    rw [scanStringFrom.eq_def]
    cases c.peek? with
    | none => exact .of_passes (.refl c)
    | some ch =>
      refine .ite (.of_passes c.step_passes) (.ite (.of_passes (.refl c)) (.ite ?_ ?_))
      · exact .after c.step_passes ((scanEscape_forward _ _).append (ih _) _)
      · exact .after c.step_passes ⟨(ih c.step).leads, (ih c.step).whole⟩

/-- What one character of a template stands for. -/
theorem scanChunk_step (ch : Char) (c : Cursor) :
    (if ch = '\\' then scanEscape true c.step
      else if ch = '\r' then (⟨['\n'], if c.second? = some '\n' then c.skip 2 else c.step, []⟩ : Scan (List Char))
      else ⟨[ch], c.step, []⟩).Forward c.step := by
  refine .ite (scanEscape_forward _ _) (.ite (.of_passes ?_) (.of_passes (.refl _)))
  dsimp only
  split
  · exact step_passes _
  · exact .refl _

theorem scanChunkFrom_forward (start : Nat) (bound : List Glyph) (c : Cursor) :
    (scanChunkFrom start bound c).Forward c := by
  induction bound generalizing c with
  | nil => exact .of_passes (.refl c)
  | cons g bound ih =>
    rw [scanChunkFrom.eq_def]
    cases c.peek? with
    | none => exact .of_passes (.refl c)
    | some ch =>
      refine .ite (.of_passes c.step_passes) (.ite (.of_passes (skip_passes 2 c)) ?_)
      exact .after c.step_passes ((scanChunk_step ch c).append (ih _) _)

theorem scanPattern_passes (start : Nat) (inClass : Bool) (bound : List Glyph) (c : Cursor) :
    c.Passes (scanPattern start inClass bound c).cursor := by
  induction bound generalizing c inClass with
  | nil => exact .refl c
  | cons g bound ih =>
    rw [scanPattern.eq_def]
    cases c.peek? with
    | none => exact .refl c
    | some ch =>
      refine .ite (.refl c) (.ite c.step_passes (Passes.trans ?_ (ih _ _)))
      split
      · exact skip_passes 2 c
      · exact c.step_passes

theorem scanRegExp_passes (c : Cursor) : c.step.Passes (scanRegExp c).cursor := by
  unfold scanRegExp
  refine .ite ?_ (scanPattern_passes _ _ _ _)
  exact (scanPattern_passes _ _ _ _).trans (dropWhile_passes _ _)

/-! ### White space and punctuators -/

theorem blockComment_passes {c d : Cursor} {newline newline' : Bool}
    (h : blockComment c newline = some (d, newline')) : c.Passes d := by
  suffices hgo : ∀ gs o b, blockComment.go o b gs = some (d, newline') → Passes ⟨o, gs⟩ d from
    hgo _ _ _ h
  intro gs
  induction gs with
  | nil => exact fun o b hd => by cases hd
  | cons g gs ih =>
    intro o b hd
    cases gs with
    | nil => cases hd
    | cons g' gs =>
      rw [blockComment.go] at hd
      split at hd
      · cases hd
        exact skip_passes 2 ⟨o, g :: g' :: gs⟩
      · exact (step_passes ⟨o, g :: g' :: gs⟩).trans (ih _ _ hd)

theorem skipGap_passes (bound : List Glyph) (c : Cursor) (newline : Bool) :
    c.Passes (skipGap bound c newline).cursor := by
  induction bound generalizing c newline with
  | nil => exact .refl c
  | cons g bound ih =>
    rw [skipGap.eq_def]
    cases c.peek? with
    | none => exact .refl c
    | some ch =>
      refine .ite (c.step_passes.trans (ih _ _)) (.ite (c.step_passes.trans (ih _ _)) ?_)
      refine .ite ((dropWhile_passes _ c).trans (ih _ _)) (.ite ?_ (.refl c))
      split
      · next h => exact ((skip_passes 2 c).trans (blockComment_passes h)).trans (ih _ _)
      · exact dropWhile_passes _ c

theorem skipSpace_passes (c : Cursor) : c.Passes (skipSpace c).cursor := by
  unfold skipSpace
  refine Passes.trans ?_ (skipGap_passes _ _ _)
  split
  · exact dropWhile_passes _ c
  · exact .refl c

theorem scanPunctuator_passes {c d : Cursor} {kind : TokenKind} (h : scanPunctuator c = some (kind, d)) :
    c.step.Passes d := by
  unfold scanPunctuator at h
  split at h
  · cases h
    exact skip_passes 1 _
  split at h
  · cases h
    exact skip_passes 2 _
  split at h
  · cases h
    exact skip_passes 1 _
  split at h
  · cases h
    exact .refl _
  · obtain ⟨p, hp, heq⟩ := Option.map_eq_some_iff.1 h
    cases heq
    have hall : ∀ p ∈ punctuators, p.1.length ≠ 0 := by decide
    obtain ⟨n, hn⟩ := Nat.exists_eq_succ_of_ne_zero (hall p (List.mem_of_find?_eq_some hp))
    rw [hn]
    exact skip_passes n _

/-! ### Tokens -/

/-- No word is the end of a text. -/
theorem TokenKind.ofWord?_ne_eof (w : String) : ofWord? w ≠ some .eof := by
  intro h
  have hwords : ∀ e ∈ words, e.2 ≠ .eof := by decide
  obtain ⟨l, l', hl, -⟩ := List.lookup_eq_some_iff.1 h
  exact hwords (w, .eof) (hl ▸ List.mem_append_right _ List.mem_cons_self) rfl

theorem scanPunctuator_ne_eof {c d : Cursor} {kind : TokenKind} (h : scanPunctuator c = some (kind, d)) :
    kind ≠ .eof := by
  unfold scanPunctuator at h
  iterate 4
    split at h
    · cases h
      decide
  obtain ⟨p, hp, heq⟩ := Option.map_eq_some_iff.1 h
  cases heq
  have hall : ∀ p ∈ punctuators, p.2 ≠ .eof := by decide
  exact hall p (List.mem_of_find?_eq_some hp)

namespace Token

/-- The token takes up a glyph of its text unless it stands at the end, and there it is the end. -/
structure Sound (t : Token) : Prop where
  leads : t.start.step.Leads t.finish
  atEnd : t.start.rest = [] → t.kind = .eof

/-- A token that was read from a cursor with the given faults: its lexeme is the text that it takes up, which is
cut only if there is a fault, and only the end of a text stands there. -/
structure ReadAt (t : Token) (faults : List Fault) (c : Cursor) : Prop where
  start : t.start = c
  sound : t.Sound
  lexeme : t.lexeme = String.ofList (c.textTo t.finish.offset)
  whole : faults = [] → c.Passes t.finish
  ends : t.kind = .eof → c.rest = []

/-- A token where there is text ahead. -/
theorem ReadAt.of_leads {t : Token} {faults : List Fault} {c : Cursor} (hc : c.rest ≠ []) (hstart : t.start = c)
    (hleads : c.step.Leads t.finish) (hlexeme : t.lexeme = String.ofList (c.textTo t.finish.offset))
    (hwhole : faults = [] → c.Passes t.finish) (hkind : t.kind ≠ .eof) : t.ReadAt faults c where
  start := hstart
  sound :=
    { leads := hstart ▸ hleads
      atEnd := fun hend => absurd (hstart ▸ hend) hc }
  lexeme := hlexeme
  whole := hwhole
  ends heof := absurd heof hkind

theorem nameKind_ne_eof (value : String) (escaped : Bool) : nameKind value escaped ≠ .eof := by
  unfold nameKind
  split
  · decide
  · cases h : TokenKind.ofWord? value with
    | none => decide
    | some k =>
      rintro rfl
      exact TokenKind.ofWord?_ne_eof value h

theorem ofChunk_readAt {onNewLine : Bool} {c : Cursor} (hc : c.rest ≠ []) :
    (ofChunk onNewLine c c.step).1.ReadAt (ofChunk onNewLine c c.step).2 c :=
  have hchunk := scanChunkFrom_forward c.offset c.step.rest c.step
  .of_leads hc rfl hchunk.leads rfl (hchunk.after c.step_passes).whole nofun

theorem scanAt_readAt (onNewLine : Bool) (c : Cursor) :
    (scanAt onNewLine c).1.ReadAt (scanAt onNewLine c).2 c := by
  unfold scanAt
  split
  · next h =>
    have hc := peek?_eq_none.1 h
    refine ⟨rfl, ⟨?_, fun _ => rfl⟩, rfl, fun _ => .refl c, fun _ => hc⟩
    show c.step.Leads c
    simp only [step, hc]
    exact .refl c
  next ch h =>
  have hc := rest_ne_nil h
  split
  · next hname =>
    rw [Bool.or_eq_true, decide_eq_true_iff] at hname
    have hpart : ch = '\\' ∨ isNamePart ch = true := by
      refine hname.symm.imp_right fun hstart => ?_
      simp [isNamePart, hstart]
    exact .of_leads hc rfl (scanName_leads h hpart) rfl (scanNameFrom_forward _ _).whole (nameKind_ne_eof _ _)
  split
  · have hprivate : (scanName c.step).Forward c.step := scanNameFrom_forward _ _
    exact .of_leads hc rfl hprivate.leads rfl (hprivate.after c.step_passes).whole nofun
  split
  · next hnumber =>
    rw [Bool.or_eq_true, Bool.and_eq_true, decide_eq_true_iff] at hnumber
    have hpasses := scanNumber_passes h (hnumber.imp_right And.left)
    exact .of_leads hc rfl hpasses.leads rfl (fun _ => c.step_passes.trans hpasses) nofun
  split
  · have hstring := scanStringFrom_forward c.offset ch c.step.rest c.step
    exact .of_leads hc rfl hstring.leads rfl (hstring.after c.step_passes).whole nofun
  split
  · exact ofChunk_readAt hc
  split
  · next d hd =>
    have hpasses := scanPunctuator_passes hd
    exact .of_leads hc rfl hpasses.leads rfl (fun _ => c.step_passes.trans hpasses) (scanPunctuator_ne_eof hd)
  · exact .of_leads hc rfl (.refl _) rfl (fun _ => c.step_passes) nofun

theorem scan_sound (c : Cursor) : (scan c).1.Sound := (scanAt_readAt _ _).sound

/-- The next token begins no further back than the cursor. -/
theorem leads_scan (c : Cursor) : c.Leads (scan c).1.start := by
  show c.Leads (scanAt (skipSpace c).value (skipSpace c).cursor).1.start
  rw [(scanAt_readAt _ _).start]
  exact (skipSpace_passes c).leads

/-- Template text that goes on has the brace before it. -/
theorem resumeTemplate_readAt {t : Token} (h : t.start.rest ≠ []) :
    t.resumeTemplate.1.ReadAt t.resumeTemplate.2 t.start := ofChunk_readAt h

end Token

end Deadwood
