import Deadwood.Value
import Deadwood.ValueType

/-!
# Values have their types

The type of an expression is read off its syntax, and its value is computed from the values of its parts.  The
two agree: where both are known, the value is of the type.
-/

namespace Deadwood

/-- The type of a primitive value. -/
def Value.type : Value → ValueType
  | undefined => .undefined
  | null => .null
  | bool _ => .bool
  | number _ => .number
  | string _ => .string

/-- The value is of the type, if one is known. -/
def Value.Fits (v : Value) (t : Option ValueType) : Prop := ∀ τ ∈ t, v.type = τ

namespace Value

variable {v w u : Value} {l r : Option ValueType}

theorem type_ne_object (v : Value) : v.type ≠ .object := by cases v <;> exact nofun

theorem isString_iff : v.isString = true ↔ v.type = .string := by
  cases v <;> simp [isString, type]

theorem type_add (v w : Value) :
    (v.add w).type = if v.type = .string ∨ w.type = .string then .string else .number := by
  simp only [add, ← isString_iff, ← Bool.or_eq_true]
  split <;> rfl

namespace Fits

theorem of_type {τ : ValueType} (h : v.type = τ) : v.Fits (some τ) := by
  rintro _ ⟨⟩
  exact h

theorem eq_some {τ : ValueType} (h : v.Fits l) (hl : l = some τ) : v.type = τ := h τ hl

theorem left (h : v.Fits l) : v.Fits (ValueType.common? l r) := by
  unfold ValueType.common?
  split
  · exact h
  · exact nofun

theorem right (h : v.Fits r) : v.Fits (ValueType.common? l r) := by
  unfold ValueType.common?
  split
  · next hlr => exact hlr ▸ h
  · exact nofun

/-- A sum of two values, neither of which may be a text, is a number. -/
theorem sum (hv : v.Fits l) (hw : w.Fits r) : (v.add w).Fits (ValueType.sum? l r) := by
  simp only [ValueType.sum?, Bool.or_eq_true, decide_eq_true_eq]
  split
  · next h =>
    refine of_type ?_
    rw [type_add, if_pos (h.imp hv.eq_some hw.eq_some)]
  · next h =>
    cases l with
    | none => exact nofun
    | some l =>
      cases r with
      | none => exact nofun
      | some r =>
        have hl : v.type = l := hv.eq_some rfl
        have hr : w.type = r := hw.eq_some rfl
        have hnumber : (v.add w).type = .number := by
          rw [type_add, if_neg]
          rintro (h' | h')
          · exact h (.inl (congrArg some (hl ▸ h')))
          · exact h (.inr (congrArg some (hr ▸ h')))
        simp only
        split
        · exact nofun
        · exact of_type hnumber

/-- The logical operators, which are decided before both values are known, have no result here. -/
theorem binary {op : BinaryOp} (hv : v.Fits l) (hw : w.Fits r) (h : binary? op v w = some u) :
    u.Fits (op.valueType? l r) := by
  cases op
  case add =>
    cases h
    exact hv.sum hw
  case coalesce | logicalOr | logicalAnd | instanceOf | isIn => cases h
  all_goals
    cases h
    exact of_type rfl

theorem unary {op : UnaryOp} (h : unary? op v = some u) : u.Fits (some op.valueType) := by
  cases op
  case delete => cases h
  all_goals
    cases h
    exact of_type rfl

end Fits

end Value

/-- A length is a number. -/
theorem Expr.textLength?_type {object : Expr} {name : Option String} {v : Value}
    (h : object.textLength? name = some v) : name = some "length" ∧ object.hasLength = true ∧ v.type = .number := by
  unfold Expr.textLength? at h
  split at h
  · next hname =>
    obtain ⟨s, hs, rfl⟩ := Option.map_eq_some_iff.1 h
    cases object with
    | string _ => exact ⟨hname, rfl, rfl⟩
    | _ => cases hs
  · cases h

mutual

theorem Expr.value?_fits (e : Expr) {v : Value} (h : e.value? = some v) : v.Fits e.type? := by
  match e with
  | .null | .bool _ | .number .. | .string _ =>
    cases h
    exact .of_type rfl
  | .ident id =>
    simp only [Expr.value?] at h
    simp only [Expr.type?]
    split at h
    · next hu =>
      cases h
      rw [if_pos hu]
      exact .of_type rfl
    · next hu =>
      rw [if_neg hu]
      split at h
      · next hn =>
        cases h
        rw [hn]
        exact .of_type rfl
      · split at h
        · next hi =>
          cases h
          rw [hi, Bool.or_true]
          exact .of_type rfl
        · cases h
  | .template none chunks es =>
    obtain ⟨s, -, rfl⟩ := Option.map_eq_some_iff.1 h
    exact .of_type rfl
  | .seq es => exact Expr.lastValue?_fits es h
  | .cond test yes no =>
    obtain ⟨t, -, h⟩ := Option.bind_eq_some_iff.1 h
    split at h
    · exact .left (Expr.value?_fits yes h)
    · exact .right (Expr.value?_fits no h)
  | .member o name _ =>
    obtain ⟨hname, hlength, hv⟩ := Expr.textLength?_type h
    simp only [Expr.type?, Option.some.inj hname, hlength]
    exact .of_type hv
  | .index o key _ =>
    obtain ⟨hname, hlength, hv⟩ := Expr.textLength?_type h
    simp only [Expr.type?, hname, hlength]
    exact .of_type hv
  | .unary op operand =>
    show v.Fits (some op.valueType)
    simp only [Expr.value?] at h
    split at h
    · next hop =>
      subst hop
      split at h
      · cases h
      · cases h
        exact .of_type rfl
    · split at h
      · next s hs =>
        split at h
        · cases h
        · cases h
          split at hs
          · next hop =>
            subst hop
            exact .of_type rfl
          · cases hs
      · obtain ⟨w, -, h⟩ := Option.bind_eq_some_iff.1 h
        exact .unary h
  | .binary op l r =>
    obtain ⟨w, hw, h⟩ := Option.bind_eq_some_iff.1 h
    have hl := Expr.value?_fits l hw
    -- The logical operators give one of their operands, and both have the type that they have in common.
    cases op
    case logicalAnd =>
      simp only at h
      split at h
      · exact .right (Expr.value?_fits r h)
      · cases h
        exact hl.left
    case logicalOr =>
      simp only at h
      split at h
      · cases h
        exact hl.left
      · exact .right (Expr.value?_fits r h)
    case coalesce =>
      simp only at h
      split at h
      · exact .right (Expr.value?_fits r h)
      · cases h
        exact hl.left
    all_goals
      obtain ⟨u, hu, h⟩ := Option.bind_eq_some_iff.1 h
      exact hl.binary (Expr.value?_fits r hu) h
  | .hole | .this | .super | .regExp .. | .template (some _) .. | .array _ | .object _ | .spread _ | .func _
  | .arrow .. | .arrowBlock .. | .cls _ | .update .. | .assign .. | .call .. | .new .. | .await _ | .yield .. =>
    cases h

theorem Expr.lastValue?_fits (es : List Expr) {v : Value} (h : Expr.lastValue? es = some v) :
    v.Fits (Expr.lastType? es) := by
  match es with
  | [] => cases h
  | [e] => exact Expr.value?_fits e h
  | _ :: e :: es =>
    simp only [Expr.lastValue?] at h
    split at h
    · cases h
    · exact Expr.lastValue?_fits (e :: es) h

end

mutual

/-- What is surely a text has the type of texts. -/
theorem Expr.type?_of_isText (e : Expr) (h : e.isText = true) : e.type? = some .string := by
  match e with
  | .string _ => rfl
  | .template tag _ _ => exact if_pos h
  | .unary op _ =>
    obtain rfl : op = .typeof := of_decide_eq_true h
    rfl
  | .binary op l r =>
    obtain ⟨hop, h⟩ := Bool.and_eq_true_iff.1 h
    obtain rfl : op = .add := of_decide_eq_true hop
    refine if_pos (Bool.or_eq_true_iff.2 ?_)
    exact (Bool.or_eq_true_iff.1 h).imp (decide_eq_true <| Expr.type?_of_isText l ·)
      (decide_eq_true <| Expr.type?_of_isText r ·)
  | .assign op _ r =>
    obtain ⟨hop, h⟩ := Bool.and_eq_true_iff.1 h
    have hr := Expr.type?_of_isText r h
    rcases Bool.or_eq_true_iff.1 hop with hop | hop
    · obtain rfl : op = .assign := of_decide_eq_true hop
      exact hr
    · obtain rfl : op = .add := of_decide_eq_true hop
      exact (if_pos hr).trans hr
  | .seq es => exact Expr.lastType?_of_lastIsText es h
  | .cond _ yes no =>
    obtain ⟨hy, hn⟩ := Bool.and_eq_true_iff.1 h
    have hy := Expr.type?_of_isText yes hy
    exact (if_pos (hy.trans (Expr.type?_of_isText no hn).symm)).trans hy
  | .hole | .ident _ | .this | .super | .null | .bool _ | .number .. | .regExp .. | .array _ | .object _ | .spread _
  | .func _ | .arrow .. | .arrowBlock .. | .cls _ | .update .. | .call .. | .new .. | .member .. | .index ..
  | .await _ | .yield .. => cases h

theorem Expr.lastType?_of_lastIsText (es : List Expr) (h : Expr.lastIsText es = true) :
    Expr.lastType? es = some .string := by
  match es with
  | [] => cases h
  | [e] => exact Expr.type?_of_isText e h
  | _ :: e :: es => exact Expr.lastType?_of_lastIsText (e :: es) h

end

/-- What is surely a text has the type of texts, and a value is of the type of its expression where that is
known; so no expression whose type is that of objects has a value. -/
theorem Expr.value?_type (e : Expr) :
    (e.isText = true → e.type? = some .string) ∧
      ∀ v τ, e.value? = some v → e.type? = some τ → v.type = τ ∧ τ ≠ .object := by
  refine ⟨e.type?_of_isText, fun v τ hv hτ => ?_⟩
  have htype : v.type = τ := e.value?_fits hv τ hτ
  exact ⟨htype, htype ▸ v.type_ne_object⟩

/-- `null === null ? typeof (null ?? "ab".length) : ""` -/
def sampleTyped : Expr :=
  .cond (.binary .strictEqual .null .null)
    (.unary .typeof (.binary .coalesce .null (.member (.string { value := "ab" }) { name := "length" } false)))
    (.template none [⟨"", ""⟩] [])

theorem Expr.value?_type_sample : sampleTyped.isText = true ∧ sampleTyped.value? = some (.string "number") ∧
    sampleTyped.type? = some .string ∧ (Value.string "number").type = .string ∧ ValueType.string ≠ .object := by
  have hvalue : sampleTyped.value? = some (.string "number") := rfl
  have htype : sampleTyped.type? = some .string := (Expr.value?_type sampleTyped).1 rfl
  exact ⟨rfl, hvalue, htype, (Expr.value?_type sampleTyped).2 _ _ hvalue htype⟩

end Deadwood
