import Mathlib.Data.List.Lex
import Mathlib.Order.Basic
import Deadwood.Value

/-!
# The order of texts

Texts are compared by their units, and their equality is that of their characters.  The two fit together because
texts with the same units are the same: the first unit of a character says how many units the character has.  So the
comparisons of the evaluator are those of one strict and total order.
-/

namespace Deadwood

open Text

/-! ### Units determine a text -/

namespace Text

/-- The first unit of a pair, which stands for no character by itself. -/
def IsHead (u : Nat) : Prop := 0xD800 ≤ u ∧ u < 0xDC00

theorem charUnits_cases (c : Char) :
    (c.toNat < 0x10000 ∧ ¬ IsHead c.toNat ∧ charUnits c = [c.toNat]) ∨
      ∃ u v, charUnits c = [u, v] ∧ IsHead u ∧ c.toNat = 0x10000 + (u - 0xD800) * 0x400 + (v - 0xDC00) := by
  have hvalid : c.toNat < 0xD800 ∨ 0xDFFF < c.toNat ∧ c.toNat < 0x110000 := c.valid
  by_cases h : c.toNat < 0x10000
  · refine .inl ⟨h, ?_, if_pos h⟩
    rintro ⟨_, _⟩
    omega
  · refine .inr ⟨_, _, if_neg h, ⟨by omega, by omega⟩, by omega⟩

/-- Characters whose units begin two equal lists are the same. -/
theorem charUnits_append_inj {c d : Char} {us vs : List Nat} (h : charUnits c ++ us = charUnits d ++ vs) :
    c = d ∧ us = vs := by
  rw [← Char.toNat_inj]
  obtain ⟨_, hc, hcu⟩ | ⟨u, v, hcu, hu, hc⟩ := charUnits_cases c <;>
    obtain ⟨_, hd, hdu⟩ | ⟨u', v', hdu, hu', hd⟩ := charUnits_cases d <;>
    rw [hcu, hdu] at h <;>
    simp only [List.cons_append, List.nil_append, List.cons.injEq] at h
  · exact h
  · exact absurd (h.1 ▸ hu') hc
  · exact absurd (h.1 ▸ hu) hd
  · obtain ⟨rfl, rfl, rfl⟩ := h
    exact ⟨hc.trans hd.symm, rfl⟩

theorem charUnits_ne_nil (c : Char) : charUnits c ≠ [] := by
  obtain ⟨_, _, h⟩ | ⟨u, v, h, _⟩ := charUnits_cases c <;> simp [h]

theorem flatMap_charUnits_injective : Function.Injective (List.flatMap charUnits) := by
  intro cs
  induction cs with
  | nil =>
    intro ds h
    cases ds with
    | nil => rfl
    | cons d ds => exact absurd (List.append_eq_nil_iff.1 h.symm).1 (charUnits_ne_nil d)
  | cons c cs ih =>
    intro ds h
    cases ds with
    | nil => exact absurd (List.append_eq_nil_iff.1 h).1 (charUnits_ne_nil c)
    | cons d ds =>
      obtain ⟨rfl, hcs⟩ := charUnits_append_inj h
      rw [ih hcs]

theorem units_injective : Function.Injective units := fun _ _ h =>
  String.toList_injective (flatMap_charUnits_injective h)

/-! ### Comparison of units -/

/-- The comparison is negative for lists in dictionary order. -/
theorem compareUnits_neg_iff (us vs : List Nat) : compareUnits us vs < 0 ↔ us < vs := by
  induction us, vs using compareUnits.induct with
  | case1 u us v vs hne hlt => simp [compareUnits, hne, hlt, List.cons_lt_cons_iff]
  | case2 u us v vs hne hlt => simp [compareUnits, hne, hlt, List.cons_lt_cons_iff]
  | case3 u us v vs heq ih =>
    obtain rfl := not_ne_iff.1 heq
    simp [compareUnits, ih]
  | case4 us vs hnil =>
    cases us with
    | nil =>
      cases vs with
      | nil => simp only [compareUnits, List.length_nil, List.not_lt_nil, iff_false]; omega
      | cons v vs =>
        refine iff_of_true ?_ (List.nil_lt_cons v vs)
        simp only [compareUnits, List.length_cons, List.length_nil]
        omega
    | cons u us =>
      cases vs with
      | nil =>
        simp only [compareUnits, List.length_cons, List.length_nil, List.not_lt_nil, iff_false]
        omega
      | cons v vs => exact (hnil _ _ _ _ rfl rfl).elim

theorem before_iff (s t : String) : before s t = true ↔ units s < units t := by
  rw [before, decide_eq_true_eq, compareUnits_neg_iff]

end Text

/-! ### Comparisons of texts -/

/-- The operator is evaluated on two expressions, and its result is true. -/
def BinaryOp.Holds (op : BinaryOp) (x y : Expr) : Prop :=
  (Expr.binary op x y).value? = some (.bool true)

namespace BinaryOp

variable {x y : Expr} {a b : String}

theorem strictEqual_holds (hx : x.value? = some (.string a)) (hy : y.value? = some (.string b)) :
    strictEqual.Holds x y ↔ a = b := by
  simp [Holds, Expr.value?, hx, hy, Value.binary?, Value.strictEqual]

theorem less_holds (hx : x.value? = some (.string a)) (hy : y.value? = some (.string b)) :
    less.Holds x y ↔ units a < units b := by
  simp [Holds, Expr.value?, hx, hy, Value.binary?, Value.less?, before_iff]

theorem lessOrEqual_holds (hx : x.value? = some (.string a)) (hy : y.value? = some (.string b)) :
    lessOrEqual.Holds x y ↔ ¬ units b < units a := by
  simp [Holds, Expr.value?, hx, hy, Value.binary?, Value.less?, ← before_iff]

theorem greaterOrEqual_holds (hx : x.value? = some (.string a)) (hy : y.value? = some (.string b)) :
    greaterOrEqual.Holds x y ↔ ¬ units a < units b := by
  simp [Holds, Expr.value?, hx, hy, Value.binary?, Value.less?, ← before_iff]

end BinaryOp

/-- The comparisons of expressions that have texts as values are those of one strict and total order of the texts,
the dictionary order of their units. -/
theorem Expr.texts_ordered {x y z : Expr} {a b c : String} (hx : x.value? = some (.string a))
    (hy : y.value? = some (.string b)) (hz : z.value? = some (.string c)) :
    (BinaryOp.less.Holds x y ∧ ¬ BinaryOp.strictEqual.Holds x y ∧ ¬ BinaryOp.less.Holds y x ∨
      ¬ BinaryOp.less.Holds x y ∧ BinaryOp.strictEqual.Holds x y ∧ ¬ BinaryOp.less.Holds y x ∨
      ¬ BinaryOp.less.Holds x y ∧ ¬ BinaryOp.strictEqual.Holds x y ∧ BinaryOp.less.Holds y x) ∧
    (BinaryOp.less.Holds x y → BinaryOp.less.Holds y z → BinaryOp.less.Holds x z) ∧
    (BinaryOp.lessOrEqual.Holds x y ↔ ¬ BinaryOp.less.Holds y x) ∧
    (BinaryOp.greaterOrEqual.Holds x y ↔ ¬ BinaryOp.less.Holds x y) ∧
    (BinaryOp.less.Holds x y ↔ units a < units b) := by
  have hxy := BinaryOp.less_holds hx hy
  have hyx := BinaryOp.less_holds hy hx
  refine ⟨?_, ?_, ?_, ?_, hxy⟩
  · rw [hxy, hyx, BinaryOp.strictEqual_holds hx hy, ← units_injective.eq_iff]
    rcases lt_trichotomy (units a) (units b) with h | h | h
    · exact .inl ⟨h, h.ne, h.asymm⟩
    · exact .inr (.inl ⟨h ▸ lt_irrefl _, h, h ▸ lt_irrefl _⟩)
    · exact .inr (.inr ⟨h.asymm, h.ne', h⟩)
  · rw [hxy, BinaryOp.less_holds hy hz, BinaryOp.less_holds hx hz]
    exact lt_trans
  · rw [BinaryOp.lessOrEqual_holds hx hy, hyx]
  · rw [BinaryOp.greaterOrEqual_holds hx hy, hxy]

/-- A character of two units, which comes before a character of one unit although its number is greater. -/
def samplePaired : Expr := .string { value := "😀" }

/-- `"～" + null` -/
def sampleWide : Expr := .binary .add (.string { value := "～" }) .null

theorem Expr.texts_ordered_sample :
    BinaryOp.less.Holds samplePaired sampleWide ∧ BinaryOp.less.Holds samplePaired (.string { value := "～～" }) ∧
      BinaryOp.lessOrEqual.Holds samplePaired sampleWide ∧ ¬ BinaryOp.greaterOrEqual.Holds samplePaired sampleWide := by
  have hx : samplePaired.value? = some (.string "😀") := rfl
  have hy : sampleWide.value? = some (.string "～null") := by
    simp [sampleWide, Expr.value?, Value.binary?, Value.add, Value.isString, Value.toText]
  have hz : (Expr.string { value := "～～" }).value? = some (.string "～～") := rfl
  obtain ⟨hone, htrans, hle, hge, hless⟩ := Expr.texts_ordered hx hy hz
  have hxy : BinaryOp.less.Holds samplePaired sampleWide := hless.2 (by decide)
  have hyz : BinaryOp.less.Holds sampleWide (.string { value := "～～" }) := (BinaryOp.less_holds hy hz).2 (by decide)
  have hyx : ¬ BinaryOp.less.Holds sampleWide samplePaired := by
    obtain ⟨-, -, h⟩ | ⟨h, -⟩ | ⟨h, -⟩ := hone
    · exact h
    · exact absurd hxy h
    · exact absurd hxy h
  exact ⟨hxy, htrans hxy hyz, hle.2 hyx, fun h => hge.1 h hxy⟩

end Deadwood
