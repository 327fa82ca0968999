import Deadwood.Proofs.Lexing
import Mathlib.Tactic.SplitIfs

/-!
# Lexemes that stand alone

A name, number, string or punctuator is read as one token where nothing after it continues it.
-/

namespace Deadwood

open Text Number Cursor

/-! ### Classes of characters -/

namespace Text

theorem letterTable_disjoint : (letterTable.all fun r => spaceTable.all fun s => r.2 < s.1 || s.2 < r.1) = true := by
  decide +kernel

theorem mem_letterTable_of_mem_spaceTable {n : Nat} (h : Range.mem n spaceTable) : Range.mem n letterTable = false := by
  rw [Range.mem, Bool.and_eq_true, List.any_eq_true] at h
  obtain ⟨-, s, hs, hn⟩ := h
  rw [Range.mem, Bool.and_eq_false_iff, List.any_eq_false]
  refine .inr fun r hr hn' => ?_
  have hdisjoint := List.all_eq_true.1 (List.all_eq_true.1 letterTable_disjoint r hr) s hs
  simp only [Bool.and_eq_true, Bool.or_eq_true, decide_eq_true_eq] at hn hn' hdisjoint
  omega

theorem isAlpha_eq_false {c : Char} (h : 0x80 ≤ c.toNat) : c.isAlpha = false := by
  have hle : ∀ {d : Char}, d.toNat < 0x80 → ¬c.val ≤ d.val := fun hd hcd =>
    absurd (Nat.le_trans h (UInt32.le_iff_toNat_le.1 hcd)) (Nat.not_le.2 hd)
  have hupper : c.isUpper = false := decide_eq_false fun hc => hle (d := 'Z') (by decide) hc.2
  have hlower : c.isLower = false := Bool.and_eq_false_iff.2 (.inr (decide_eq_false (hle (d := 'z') (by decide))))
  exact Bool.or_eq_false_iff.2 ⟨hupper, hlower⟩

theorem isNameStart_of_mem_spaceTable {c : Char} (h : Range.mem c.toNat spaceTable) : isNameStart c = false := by
  have hn : 0x80 ≤ c.toNat := by
    rw [Range.mem, Bool.and_eq_true] at h
    exact of_decide_eq_true h.1
  have hsign : c ≠ '$' ∧ c ≠ '_' := by constructor <;> rintro rfl <;> exact absurd hn (by decide)
  simp [isNameStart, isLetter, isAlpha_eq_false hn, hsign, mem_letterTable_of_mem_spaceTable h]

theorem isBlank_eq_false {c : Char} (h : isNameStart c) : isBlank c = false := by
  rw [Bool.eq_false_iff, isBlank, isSpace]
  simp only [ne_eq, Bool.or_eq_true, decide_eq_true_eq]
  rintro ((((rfl | hc) | hc) | hc) | rfl | hc)
  · exact absurd h (by decide)
  · obtain rfl : c = '\x0B' := Char.toNat_inj.1 hc
    exact absurd h (by decide)
  · obtain rfl : c = '\x0C' := Char.toNat_inj.1 hc
    exact absurd h (by decide)
  · obtain rfl : c = '\uFEFF' := Char.toNat_inj.1 hc
    exact absurd h (by decide +kernel)
  · exact absurd h (by decide)
  · rw [isNameStart_of_mem_spaceTable hc] at h
    cases h

theorem isLineEnd_eq_false {c : Char} (h : isNameStart c) : isLineEnd c = false := by
  rw [Bool.eq_false_iff, isLineEnd]
  simp only [ne_eq, Bool.or_eq_true, decide_eq_true_eq]
  rintro (((rfl | rfl) | hc) | hc)
  · exact absurd h (by decide)
  · exact absurd h (by decide)
  · obtain rfl : c = '\u2028' := Char.toNat_inj.1 hc
    exact absurd h (by decide +kernel)
  · obtain rfl : c = '\u2029' := Char.toNat_inj.1 hc
    exact absurd h (by decide +kernel)

end Text

variable {o : Nat} {c : Char} {cs w : List Char}

theorem solid_cons (hline : isLineEnd c = false) (hblank : isBlank c = false) (hhash : c ≠ '#') (hslash : c ≠ '/') :
    Solid (c :: cs) where
  head d hd := by
    cases hd
    exact ⟨hline, hblank, hhash⟩
  comment := by cases cs <;> simp [hslash]

/-! ### Names -/

/-- No name goes on with the characters. -/
def EndsName (cs : List Char) : Prop := ∀ d ∈ cs.head?, isNamePart d = false ∧ d ≠ '\\'

theorem isNamePart_of_isNameStart (h : isNameStart c) : isNamePart c := by simp [isNamePart, h]

theorem scanNameFrom_ofChars (hw : ∀ d ∈ w, isNamePart d) (hcs : EndsName cs) (bound : List Glyph)
    (hb : w.length ≤ bound.length) :
    scanNameFrom bound (ofChars o (w ++ cs)) = ⟨(w, false), ofChars (past o w) cs, []⟩ := by
  induction w generalizing o bound with
  | nil =>
    unfold scanNameFrom
    rw [peek?_ofChars]
    split
    · next hc =>
      obtain ⟨hpart, hback⟩ := hcs _ hc
      simp [hpart, hback]
    · rfl
  | cons c w ih =>
    obtain ⟨g, bound, rfl⟩ : ∃ g b, bound = g :: b := by
      cases bound with
      | nil => cases hb
      | cons g bound => exact ⟨g, bound, rfl⟩
    have hpart := hw c List.mem_cons_self
    have hback : c ≠ '\\' := by
      rintro rfl
      exact absurd hpart (by decide)
    have hrest : scanNameFrom bound (ofChars o (c :: (w ++ cs))).step = _ :=
      ih (fun d hd => hw d (List.mem_cons_of_mem _ hd)) bound (Nat.le_of_succ_le_succ hb)
    rw [List.cons_append]
    unfold scanNameFrom
    simp only [peek?_ofChars, List.head?_cons, if_neg hback, hpart, if_true, hrest]
    rw [past_cons]
    rfl

theorem stands_word {w : String} (hw : isName w) (hcs : EndsName cs) : (Lexeme.word w).Stands cs := by
  obtain ⟨c, w', hw', hc, hpart⟩ := isName_iff.1 hw
  refine ⟨fun h => List.cons_ne_nil c w' (hw'.symm.trans h), fun o => ?_⟩
  have hsolid : Solid (c :: (w' ++ cs)) := solid_cons (isLineEnd_eq_false hc) (isBlank_eq_false hc)
    (by rintro rfl; exact absurd hc (by decide)) (by rintro rfl; exact absurd hc (by decide))
  have hname : scanName (ofChars o (c :: (w' ++ cs))) = ⟨(c :: w', false), ofChars (past o (c :: w')) cs, []⟩ :=
    scanNameFrom_ofChars (List.forall_mem_cons.2 ⟨isNamePart_of_isNameStart hc, hpart⟩) hcs _ (by simp [ofChars])
  have htext : (ofChars o (c :: (w' ++ cs))).textTo (past o (c :: w')) = c :: w' := textTo_ofChars
  show ∃ t, Token.scan (ofChars o (w.toList ++ cs)) = (t, []) ∧ _ ∧ _ ∧ t.finish = ofChars (past o w.toList) cs
  rw [hw', List.cons_append, Token.scan_of_solid hsolid, Token.scanAt, peek?_ofChars]
  have hof : String.ofList (c :: w') = w := by rw [← hw', String.ofList_toList]
  simp only [List.head?_cons, hc, Bool.true_or, if_true, hname, Token.plain, offset_ofChars, htext, hof]
  exact ⟨_, rfl, ⟨rfl, rfl, rfl⟩, rfl, rfl⟩

/-! ### Numbers -/

theorem isDigitIn_ten (c : Char) : isDigitIn 10 c = c.isDigit := by
  have hdigit : c.isDigit = decide ('0' ≤ c ∧ c ≤ '9') := (Bool.decide_and _ _).symm
  rw [isDigitIn, digitValue?, hdigit]
  split
  · next h =>
    have hle : c.toNat ≤ 57 := h.2
    have hlt : c.toNat - '0'.toNat < 10 := by
      show c.toNat - 48 < 10
      omega
    rw [decide_eq_true h]
    exact decide_eq_true hlt
  · next h =>
    rw [decide_eq_false h]
    split
    · simp
    · split <;> simp

theorem solid_of_isDigit (h : c.isDigit) :
    isLineEnd c = false ∧ isBlank c = false ∧ c ≠ '#' ∧ c ≠ '/' ∧ c ≠ '\\' ∧ isNameStart c = false := by
  have hdigits : ∀ n < 10, isLineEnd (Char.ofNat (48 + n)) = false ∧ isBlank (Char.ofNat (48 + n)) = false ∧
      Char.ofNat (48 + n) ≠ '#' ∧ Char.ofNat (48 + n) ≠ '/' ∧ Char.ofNat (48 + n) ≠ '\\' ∧
      isNameStart (Char.ofNat (48 + n)) = false := by decide
  have hle : 48 ≤ c.toNat ∧ c.toNat ≤ 57 := by
    rw [Char.isDigit, Bool.and_eq_true, decide_eq_true_eq, decide_eq_true_eq] at h
    exact h
  have hc : c = Char.ofNat (48 + (c.toNat - 48)) := by
    rw [Nat.add_sub_cancel' hle.1, Char.ofNat_toNat]
  rw [hc]
  exact hdigits _ (by omega)

/-- No number goes on with the characters. -/
def EndsNumber (cs : List Char) : Prop := ∀ d ∈ cs.head?, isNamePart d = false ∧ d ≠ '.'

theorem ne_of_isNamePart {d : Char} (h : isNamePart d = false) (hc : isNamePart c = true) : d ≠ c := by
  rintro rfl
  rw [hc] at h
  cases h

theorem isDigitIn_ten_eq_false (h : isNamePart c = false) : isDigitIn 10 c = false := by
  rw [isDigitIn_ten, Bool.eq_false_iff]
  intro hd
  simp [isNamePart, isDigit, hd] at h

theorem baseOf?_eq_none (h : isNamePart c = false ∨ c.isDigit) : baseOf? c = none := by
  have hne : ∀ d, isNamePart d = true → d.isDigit = false → c ≠ d := by
    rintro d hd hd' rfl
    rw [hd, hd'] at h
    exact absurd h (by decide)
  simp [baseOf?, hne 'x' (by decide) rfl, hne 'X' (by decide) rfl, hne 'o' (by decide) rfl, hne 'O' (by decide) rfl,
    hne 'b' (by decide) rfl, hne 'B' (by decide) rfl]

/-- The value of a list of decimal digits; after a leading zero they may be octal. -/
def digitsValue (ds : List Char) : Float :=
  if ds.head? = some '0' ∧ ds.tail ≠ [] ∧ ds.tail.all (isDigitIn 8) then floatOfDigits 8 ds.tail
  else (Numeral.mk ds [] 0).toFloat

section Digits

variable {ds : List Char} (hd : ∀ d ∈ ds, d.isDigit) (hcs : EndsNumber cs)

include hd hcs

theorem scanDecimal_ofChars :
    scanDecimal (ofChars o (ds ++ cs)) = ((Numeral.mk ds [] 0).toFloat, ofChars (past o ds) cs) := by
  have hdigits : scanDigits 10 (ofChars o (ds ++ cs)) = (ds, ofChars (past o ds) cs) := by
    have hp : ∀ d ∈ ds, (decide (d = '_') || isDigitIn 10 d) = true := fun d h => by
      rw [isDigitIn_ten, hd d h, Bool.or_true]
    have hstop : ∀ d ∈ cs.head?, (decide (d = '_') || isDigitIn 10 d) = false := fun d h => by
      have hpart := (hcs d h).1
      rw [isDigitIn_ten_eq_false hpart, decide_eq_false (ne_of_isNamePart hpart (by decide))]
      rfl
    have hfilter : ds.filter (· ≠ '_') = ds := List.filter_eq_self.2 fun d h => by
      have hne : d ≠ '_' := by
        rintro rfl
        exact absurd (hd _ h) (by decide)
      exact decide_eq_true hne
    rw [scanDigits, takeWhile_ofChars hp hstop, dropWhile_ofChars hp hstop, hfilter]
  have hdot : (ofChars (past o ds) cs).peek? ≠ some '.' := by
    rw [peek?_ofChars]
    exact fun h => (hcs _ h).2 rfl
  have hexponent : scanExponent (ofChars (past o ds) cs) = (0, ofChars (past o ds) cs) := by
    have hahead : ((ofChars (past o ds) cs).ahead fun ch => ch = 'e' || ch = 'E') = false := by
      rw [ahead, peek?_ofChars]
      cases hhead : cs.head? with
      | none => rfl
      | some d =>
        have hpart := (hcs d hhead).1
        simp [ne_of_isNamePart hpart (c := 'e') (by decide), ne_of_isNamePart hpart (c := 'E') (by decide)]
    rw [scanExponent, hahead]
    rfl
  simp only [scanDecimal, hdigits, if_neg hdot, hexponent]

theorem scanMagnitude_ofChars (hne : ds ≠ []) :
    scanMagnitude (ofChars o (ds ++ cs)) = ⟨digitsValue ds, ofChars (past o ds) cs, []⟩ := by
  obtain ⟨c, ds, rfl⟩ := List.exists_cons_of_ne_nil hne
  have hbase : (ofChars o (c :: ds ++ cs)).second?.bind baseOf? = none := by
    rw [second?_ofChars, List.cons_append, List.tail_cons, Option.bind_eq_none_iff]
    intro d h
    refine baseOf?_eq_none ?_
    cases ds with
    | nil => exact .inl (hcs d h).1
    | cons d' ds =>
      cases h
      exact .inr (hd d (List.mem_cons_of_mem _ List.mem_cons_self))
  have htail : (ofChars o (c :: ds ++ cs)).step.takeWhile (isDigitIn 10) = ds :=
    takeWhile_ofChars (fun d h => by rw [isDigitIn_ten]; exact hd d (List.mem_cons_of_mem _ h))
      fun d h => isDigitIn_ten_eq_false (hcs d h).1
  have hoctal : legacyOctal? (ofChars o (c :: ds ++ cs)) =
      if c = '0' ∧ ds ≠ [] ∧ ds.all (isDigitIn 8) then some ds else none := by
    rw [legacyOctal?, htail]
    simp
  rw [scanMagnitude, hbase, ite_self, hoctal, digitsValue]
  simp only [List.head?_cons, List.tail_cons, Option.some.injEq]
  by_cases h : c = '0' ∧ ds ≠ [] ∧ ds.all (isDigitIn 8)
  · rw [if_pos h, if_pos h]
    exact congrArg (Scan.mk _ · []) (skip_ofChars (w := c :: ds))
  · rw [if_neg h, if_neg h]
    simp only [scanDecimal_ofChars hd hcs]

theorem scanNumber_ofChars (hne : ds ≠ []) :
    scanNumber (ofChars o (ds ++ cs)) = ⟨digitsValue ds, ofChars (past o ds) cs, []⟩ := by
  have hn : (ofChars (past o ds) cs).peek? ≠ some 'n' := by
    rw [peek?_ofChars]
    exact fun h => ne_of_isNamePart (hcs _ h).1 (c := 'n') (by decide) rfl
  have hahead : ((ofChars (past o ds) cs).ahead fun ch => isNameStart ch || isDigitIn 10 ch) = false := by
    rw [ahead, peek?_ofChars]
    cases hhead : cs.head? with
    | none => rfl
    | some d =>
      have hpart := (hcs d hhead).1
      have hstart : isNameStart d = false := by
        rw [Bool.eq_false_iff]
        exact fun h => by rw [isNamePart_of_isNameStart h] at hpart; cases hpart
      simp [hstart, isDigitIn_ten_eq_false hpart]
  rw [scanNumber, scanMagnitude_ofChars hd hcs hne]
  simp only [if_neg hn, hahead, Bool.false_eq_true, if_false]

end Digits

theorem stands_number {digits : String} (hd : isDigits digits) (hcs : EndsNumber cs) :
    (Lexeme.number digits).Stands cs := by
  obtain ⟨hne, hd⟩ : digits.toList ≠ [] ∧ ∀ d ∈ digits.toList, d.isDigit := by simpa [isDigits] using hd
  have htoken : ∀ o cs, EndsNumber cs → ∃ t, Token.scan (ofChars o (digits.toList ++ cs)) = (t, []) ∧
      t.kind = .number ∧ t.number = digitsValue digits.toList ∧ t.lexeme = digits ∧ t.onNewLine = false ∧
      t.finish = ofChars (past o digits.toList) cs := by
    intro o cs hcs
    obtain ⟨c, ds, hds⟩ := List.exists_cons_of_ne_nil hne
    rw [hds] at hd ⊢
    have hc := hd c List.mem_cons_self
    obtain ⟨hline, hblank, hhash, hslash, hback, hstart⟩ := solid_of_isDigit hc
    have hscan := scanNumber_ofChars (o := o) hd hcs (List.cons_ne_nil c ds)
    have htext : (ofChars o (c :: (ds ++ cs))).textTo (past o (c :: ds)) = c :: ds := textTo_ofChars
    have hof : String.ofList (c :: ds) = digits := by rw [← hds, String.ofList_toList]
    have hten : isDigitIn 10 c = true := (isDigitIn_ten c).trans hc
    rw [List.cons_append] at hscan ⊢
    rw [Token.scan_of_solid (solid_cons hline hblank hhash hslash), Token.scanAt, peek?_ofChars]
    simp only [List.head?_cons, hstart, hback, hhash, hten, decide_false, Bool.or_self, Bool.false_and, Bool.true_or,
      Bool.false_eq_true, if_false, if_true, hscan, Token.plain, offset_ofChars, htext, hof]
    exact ⟨_, rfl, rfl, rfl, rfl, rfl, rfl⟩
  refine ⟨hne, fun o => ?_⟩
  obtain ⟨t, ht, hkind, hnumber, hlexeme, hline, hfinish⟩ := htoken o cs hcs
  obtain ⟨t', ht', -, hnumber', -⟩ := htoken 0 [] nofun
  have hvalue : Token.numberOf digits = digitsValue digits.toList := by
    rw [List.append_nil] at ht'
    have hscan : Token.scan (.ofString digits) = (t', []) := ht'
    rw [← hnumber', Token.numberOf, hscan]
  exact ⟨t, ht, ⟨hkind, hnumber.trans hvalue.symm, hlexeme⟩, hline, hfinish⟩

/-! ### Strings -/

theorem hexDigits_two : ∀ n < 128, (hexDigits 2 n).length = 2 ∧ (hexDigits 2 n).all (isDigitIn 16) ∧
    ofDigits 16 (hexDigits 2 n) = n := by decide +kernel

theorem scanEscape_hex (hd : d.toNat < 128) :
    scanEscape false (ofChars o ('x' :: (hexDigits 2 d.toNat ++ cs))) =
      ⟨[d], ofChars (past o ('x' :: hexDigits 2 d.toNat)) cs, []⟩ := by
  obtain ⟨hlength, hall, hvalue⟩ := hexDigits_two d.toNat hd
  have htake : ((ofChars (past o ['x']) (hexDigits 2 d.toNat ++ cs)).rest.take 2).map Glyph.char =
      hexDigits 2 d.toNat := by
    rw [List.map_take, map_char_ofChars, List.take_left' hlength]
  have hpast : past o ('x' :: hexDigits 2 d.toNat) = past (past o ['x']) (hexDigits 2 d.toNat) := past_cons
  have hskip : (ofChars (past o ['x']) (hexDigits 2 d.toNat ++ cs)).skip (hexDigits 2 d.toNat).length =
      ofChars (past o ('x' :: hexDigits 2 d.toNat)) cs := hpast ▸ skip_ofChars
  rw [hlength] at hskip
  have hscalar : scalar d.toNat = d := (if_pos (.inl (by omega))).trans (Char.ofNat_toNat d)
  have hx : ∀ cs', scanEscape false (ofChars o ('x' :: cs')) =
      if (((ofChars (past o ['x']) cs').rest.take 2).map Glyph.char).length = 2 ∧
        (((ofChars (past o ['x']) cs').rest.take 2).map Glyph.char).all (isDigitIn 16) then
        ⟨[scalar (ofDigits 16 (((ofChars (past o ['x']) cs').rest.take 2).map Glyph.char))],
          (ofChars (past o ['x']) cs').skip 2, []⟩
      else ⟨[], ofChars (past o ['x']) cs', [⟨past o ['x'], .hexEscape⟩]⟩ := fun _ => rfl
  rw [hx, htake, if_pos ⟨hlength, hall⟩, hvalue, hscalar, hskip]

theorem scanEscape_ofChars (hd : escape d = '\\' :: w) :
    scanEscape false (ofChars o (w ++ cs)) = ⟨[d], ofChars (past o w) cs, []⟩ := by
  by_cases h : d = '\x22' ∨ d = '\\' ∨ d = '\n' ∨ d = '\r' ∨ d = '\t' ∨ d = '\x08' ∨ d = '\x0c' ∨ d = '\x0b' ∨
      d = '\u2028' ∨ d = '\u2029'
  · obtain rfl | rfl | rfl | rfl | rfl | rfl | rfl | rfl | rfl | rfl := h <;> (cases hd; rfl)
  · simp only [not_or] at h
    obtain ⟨hquote, hback, hn, hr, ht, hb, hf, hv, hline, hparagraph⟩ := h
    have hlines : ¬ (d.toNat = 0x2028 ∨ d.toNat = 0x2029) :=
      not_or.2 ⟨fun h => hline (Char.toNat_inj.1 h), fun h => hparagraph (Char.toNat_inj.1 h)⟩
    rw [escape, if_neg hquote, if_neg hback, if_neg hn, if_neg hr, if_neg ht, if_neg hb, if_neg hf, if_neg hv,
      if_neg hlines] at hd
    split at hd
    · cases hd
      exact scanEscape_hex (by omega)
    · cases hd
      exact absurd rfl hback

theorem escape_cases (d : Char) :
    (∃ w, escape d = '\\' :: w) ∨ escape d = [d] ∧ d ≠ '\x22' ∧ d ≠ '\n' ∧ d ≠ '\r' ∧ d ≠ '\\' := by
  by_cases h : d = '\x22' ∨ d = '\\' ∨ d = '\n' ∨ d = '\r'
  · left
    obtain rfl | rfl | rfl | rfl := h <;> exact ⟨_, rfl⟩
  · obtain ⟨hquote, hback, hn, hr⟩ : d ≠ '\x22' ∧ d ≠ '\\' ∧ d ≠ '\n' ∧ d ≠ '\r' := by simpa using h
    generalize hl : escape d = l
    rw [escape, if_neg hquote, if_neg hback, if_neg hn, if_neg hr] at hl
    iterate 6
      split at hl
      · exact .inl ⟨_, hl.symm⟩
    exact .inr ⟨hl.symm, hquote, hn, hr, hback⟩

/-- A character of a string is read back from its escaped form. -/
theorem scanStringFrom_escape (start : Nat) (g : Glyph) (bound : List Glyph) (d : Char) :
    scanStringFrom start '\x22' (g :: bound) (ofChars o (escape d ++ cs)) =
      ⟨d :: (scanStringFrom start '\x22' bound (ofChars (past o (escape d)) cs)).value,
        (scanStringFrom start '\x22' bound (ofChars (past o (escape d)) cs)).cursor,
        (scanStringFrom start '\x22' bound (ofChars (past o (escape d)) cs)).faults⟩ := by
  obtain ⟨w, hw⟩ | ⟨hd, hquote, hn, hr, hback⟩ := escape_cases d
  · have hescape : scanEscape false (ofChars o (escape d ++ cs)).step = ⟨[d], ofChars (past o (escape d)) cs, []⟩ := by
      have h : scanEscape false (ofChars (past o ['\\']) (w ++ cs)) = _ := scanEscape_ofChars hw
      have hpast : past o ('\\' :: w) = past (past o ['\\']) w := past_cons
      rw [hw, hpast]
      exact h
    have hpeek : (ofChars o (escape d ++ cs)).peek? = some '\\' := by rw [hw]; rfl
    rw [scanStringFrom.eq_def, hpeek]
    simp only [hescape]
    rfl
  · have hpeek : (ofChars o (escape d ++ cs)).peek? = some d := by rw [hd]; rfl
    have hstep : (ofChars o (escape d ++ cs)).step = ofChars (past o (escape d)) cs := by rw [hd]; rfl
    rw [scanStringFrom.eq_def, hpeek]
    simp only [hquote, hn, hr, hback, or_self, if_false, hstep]

theorem scanStringFrom_ofChars (start : Nat) (v : List Char) (bound : List Glyph) (hb : v.length < bound.length) :
    scanStringFrom start '\x22' bound (ofChars o (v.flatMap escape ++ '\x22' :: cs)) =
      ⟨v, ofChars (past o (v.flatMap escape ++ ['\x22'])) cs, []⟩ := by
  induction v generalizing o bound with
  | nil =>
    obtain ⟨g, bound, rfl⟩ : ∃ g b, bound = g :: b := by
      cases bound with
      | nil => cases hb
      | cons g bound => exact ⟨g, bound, rfl⟩
    rfl
  | cons d v ih =>
    obtain ⟨g, bound, rfl⟩ : ∃ g b, bound = g :: b := by
      cases bound with
      | nil => cases hb
      | cons g bound => exact ⟨g, bound, rfl⟩
    rw [List.flatMap_cons, List.append_assoc, scanStringFrom_escape, ih bound (Nat.lt_of_succ_lt_succ hb)]
    simp only [List.append_assoc, past_append]

theorem length_le_flatMap_escape (v : List Char) : v.length ≤ (v.flatMap escape).length := by
  induction v with
  | nil => exact Nat.le_refl 0
  | cons d v ih =>
    have hpos : 0 < (escape d).length := by
      obtain ⟨w, hw⟩ | ⟨hd, -⟩ := escape_cases d
      · rw [hw]
        exact Nat.succ_pos _
      · rw [hd]
        exact Nat.succ_pos _
    rw [List.flatMap_cons, List.length_append, List.length_cons]
    omega

theorem stands_string (value : String) : (Lexeme.string value).Stands cs := by
  have htext : (quote value).toList = '\x22' :: (value.toList.flatMap escape ++ ['\x22']) := String.toList_ofList
  refine ⟨fun h => List.cons_ne_nil _ _ (htext.symm.trans h), fun o => ?_⟩
  have hpast : past o (quote value).toList = past (past o ['\x22']) (value.toList.flatMap escape ++ ['\x22']) := by
    rw [htext]
    exact past_cons
  have hchars : (quote value).toList ++ cs = '\x22' :: (value.toList.flatMap escape ++ '\x22' :: cs) := by
    rw [htext, List.cons_append, List.append_assoc]
    rfl
  have hlexeme : (ofChars o ((quote value).toList ++ cs)).textTo (past o (quote value).toList) =
      (quote value).toList := textTo_ofChars
  have hbound : value.toList.length <
      (ofChars (past o ['\x22']) (value.toList.flatMap escape ++ '\x22' :: cs)).rest.length := by
    have hlength := length_le_flatMap_escape value.toList
    simp only [ofChars, List.length_map, List.length_append, List.length_cons]
    omega
  have hscan : scanStringFrom o '\x22'
      (ofChars (past o ['\x22']) (value.toList.flatMap escape ++ '\x22' :: cs)).rest
      (ofChars (past o ['\x22']) (value.toList.flatMap escape ++ '\x22' :: cs)) =
      ⟨value.toList, ofChars (past o (quote value).toList) cs, []⟩ := by
    rw [hpast]
    exact scanStringFrom_ofChars o value.toList _ hbound
  have hat : ∀ k, Token.scanAt false (ofChars o ('\x22' :: k)) =
      ({ Token.plain .string false (ofChars o ('\x22' :: k))
          (scanStringFrom o '\x22' (ofChars (past o ['\x22']) k).rest (ofChars (past o ['\x22']) k)).cursor with
          value := String.ofList
            (scanStringFrom o '\x22' (ofChars (past o ['\x22']) k).rest (ofChars (past o ['\x22']) k)).value },
        (scanStringFrom o '\x22' (ofChars (past o ['\x22']) k).rest (ofChars (past o ['\x22']) k)).faults) :=
    fun _ => rfl
  show ∃ t, Token.scan (ofChars o ((quote value).toList ++ cs)) = (t, []) ∧ _ ∧ _ ∧
    t.finish = ofChars (past o (quote value).toList) cs
  rw [hchars] at hlexeme ⊢
  rw [Token.scan_of_solid (solid_cons rfl rfl (by decide) (by decide)), hat, hscan]
  simp only [Token.plain, offset_ofChars, hlexeme, String.ofList_toList]
  exact ⟨_, rfl, ⟨rfl, rfl, rfl⟩, rfl, rfl⟩

/-! ### Signs -/

/-- The characters that the punctuators of formulas begin with. -/
def signChars : List Char :=
  ['(', ')', '[', ']', ',', ';', ':', '?', '~', '!', '+', '-', '*', '/', '%', '&', '|', '^', '<', '>', '=', '.']

theorem solid_of_mem_signChars (h : c ∈ signChars) : isLineEnd c = false ∧ isBlank c = false ∧ c ≠ '#' ∧
    isNameStart c = false ∧ c ≠ '\\' ∧ isDigitIn 10 c = false ∧ c ≠ '\x22' ∧ c ≠ '\x27' ∧ c ≠ '\x60' := by
  have hall : (signChars.all fun c => !isLineEnd c && !isBlank c && c != '#' && !isNameStart c && c != '\\' &&
      !isDigitIn 10 c && c != '\x22' && c != '\x27' && c != '\x60') = true := by decide
  simpa [and_assoc] using List.all_eq_true.1 hall c h

section Signs

variable {k : TokenKind}

/-- A punctuator stands where it is the one that is read and begins neither a comment nor a number. -/
theorem stands_sign (htext : k.text.toList = c :: w) (hc : c ∈ signChars)
    (hcomment : ((c :: (w ++ cs)).take 2 == ['/', '/']) = false ∧ ((c :: (w ++ cs)).take 2 == ['/', '*']) = false)
    (hdot : c ≠ '.' ∨ ∀ d ∈ (w ++ cs).head?, isDigitIn 10 d = false)
    (hscan : ∀ o, scanPunctuator (ofChars o (c :: (w ++ cs))) = some (k, ofChars (past o (c :: w)) cs)) :
    (Lexeme.sign k).Stands cs := by
  refine ⟨fun h => List.cons_ne_nil c w (htext.symm.trans h), fun o => ?_⟩
  obtain ⟨hline, hblank, hhash, hstart, hback, hdigit, hquote, hquote', htick⟩ := solid_of_mem_signChars hc
  have hsolid : Solid (c :: (w ++ cs)) := by
    refine ⟨?_, hcomment⟩
    rintro d ⟨⟩
    exact ⟨hline, hblank, hhash⟩
  have hnumber : (decide (c = '.') && (w ++ cs).head?.any (isDigitIn 10)) = false := by
    obtain h | h := hdot
    · rw [decide_eq_false h, Bool.false_and]
    · rw [(Option.any_eq_false _ _).2 h, Bool.and_false]
  show ∃ t, Token.scan (ofChars o (k.text.toList ++ cs)) = (t, []) ∧ _ ∧ _ ∧
    t.finish = ofChars (past o k.text.toList) cs
  rw [htext, List.cons_append, Token.scan_of_solid hsolid, Token.scanAt, peek?_ofChars]
  simp only [List.head?_cons, second?_ofChars, List.tail_cons, hstart, hback, hhash, hdigit, hquote, hquote', htick,
    hnumber, hscan, decide_false, Bool.or_self, Bool.false_and, Bool.false_eq_true, if_false]
  exact ⟨_, rfl, rfl, rfl, rfl⟩

theorem stands_keyword (hk : (Lexeme.word k.text).kind = k) (hname : isName k.text) (hcs : EndsName cs) :
    (Lexeme.sign k).Stands cs := by
  have hword := stands_word hname hcs
  refine ⟨hword.text, fun o => ?_⟩
  obtain ⟨t, ht, hshows, hrest⟩ := hword.scan o
  exact ⟨t, ht, hshows.kind.trans hk, hrest⟩

/-- The signs that end before any character. -/
theorem stands_mark (h : k ∈ [.leftParen, .rightParen, .leftBracket, .rightBracket, .comma, .semicolon, .colon,
    .increment, .decrement]) : (Lexeme.sign k).Stands cs := by
  simp only [List.mem_cons, List.not_mem_nil, or_false] at h
  obtain rfl | rfl | rfl | rfl | rfl | rfl | rfl | rfl | rfl := h <;>
    exact stands_sign rfl (by decide) ⟨rfl, rfl⟩ (.inl (by decide)) fun _ => rfl

theorem stands_question : (Lexeme.sign .question).Stands (' ' :: cs) :=
  stands_sign rfl (by decide) ⟨rfl, rfl⟩ (.inl (by decide)) fun _ => rfl

/-- A punctuator of one character stands in front of a character that no longer one goes on with. -/
theorem stands_single {d : Char} (htext : k.text.toList = [c]) (hc : c ∈ signChars)
    (hne : c ≠ '?' ∧ c ≠ '/' ∧ (c ≠ '.' ∨ isDigitIn 10 d = false))
    (hfind : punctuators.find? (fun p => (c :: d :: cs).take p.1.toList.length == p.1.toList) = some (k.text, k)) :
    (Lexeme.sign k).Stands (d :: cs) := by
  refine stands_sign htext hc ?_ ?_ fun o => ?_
  · simp [hne.2.1]
  · obtain h | h := hne.2.2
    · exact .inl h
    · refine .inr ?_
      rintro _ ⟨⟩
      exact h
  · have hlength : k.text.length = 1 := by rw [← String.length_toList, htext]; rfl
    have hskip : (ofChars o (c :: d :: cs)).skip 1 = ofChars (past o [c]) (d :: cs) := skip_ofChars (w := [c])
    simp only [scanPunctuator, startsWith_ofChars, List.nil_append, hfind, Option.map_some, hlength, hskip]
    simp [hne.1]

theorem stands_dot (h : ∀ d ∈ cs.head?, isDigitIn 10 d = false ∧ d ≠ '.') : (Lexeme.sign .dot).Stands cs := by
  cases cs with
  | nil => exact stands_sign (c := '.') (w := []) rfl (by decide) ⟨rfl, rfl⟩ (.inr nofun) fun _ => rfl
  | cons d cs =>
    obtain ⟨hdigit, hdot⟩ := h d rfl
    exact stands_single (c := '.') rfl (by decide) ⟨by decide, by decide, .inr hdigit⟩
      (by simp [punctuators, hdot, TokenKind.text])

end Signs

theorem endsName_space : EndsName (' ' :: cs) := by
  rintro d ⟨⟩
  decide

theorem BinaryOp.stands (op : BinaryOp) : (Lexeme.sign op.kind).Stands (' ' :: cs) := by
  cases op
  case isIn | instanceOf => exact stands_keyword (by decide) (by decide) endsName_space
  all_goals exact stands_sign rfl (by decide) ⟨rfl, rfl⟩ (.inl (by decide)) fun _ => rfl

theorem AssignOp.stands (op : AssignOp) : (Lexeme.sign op.kind).Stands (' ' :: cs) := by
  cases op <;> exact stands_sign rfl (by decide) ⟨rfl, rfl⟩ (.inl (by decide)) fun _ => rfl

/-- Whether the operator ends before the character. -/
def UnaryOp.endsBefore (op : UnaryOp) (d : Char) : Bool :=
  match op with
  | .not => d ≠ '='
  | .bitNot => true
  | .plus => d ≠ '+' && d ≠ '='
  | .minus => d ≠ '-' && d ≠ '='
  | .typeof | .void | .delete => d = ' '

theorem UnaryOp.stands (op : UnaryOp) (h : ∀ d ∈ cs.head?, op.endsBefore d) : (Lexeme.sign op.kind).Stands cs := by
  cases op
  case typeof | void | delete =>
    refine stands_keyword (by decide) (by decide) fun d hd => ?_
    obtain rfl := of_decide_eq_true (h d hd)
    decide
  case bitNot => exact stands_sign rfl (by decide) ⟨rfl, rfl⟩ (.inl (by decide)) fun _ => rfl
  all_goals
    cases cs with
    | nil => exact stands_sign rfl (by decide) ⟨rfl, rfl⟩ (.inl (by decide)) fun _ => rfl
    | cons d cs => ?_
  case not =>
    have hd : d ≠ '=' := of_decide_eq_true (h d rfl)
    exact stands_single (c := '!') rfl (by decide) ⟨by decide, by decide, .inl (by decide)⟩
      (by simp [punctuators, hd, kind, TokenKind.text])
  case plus =>
    have hd : d ≠ '+' ∧ d ≠ '=' := by simpa [endsBefore] using h d rfl
    exact stands_single (c := '+') rfl (by decide) ⟨by decide, by decide, .inl (by decide)⟩
      (by simp [punctuators, hd, kind, TokenKind.text])
  case minus =>
    have hd : d ≠ '-' ∧ d ≠ '=' := by simpa [endsBefore] using h d rfl
    exact stands_single (c := '-') rfl (by decide) ⟨by decide, by decide, .inl (by decide)⟩
      (by simp [punctuators, hd, kind, TokenKind.text])

end Deadwood
