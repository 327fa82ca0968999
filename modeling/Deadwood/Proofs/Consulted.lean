import Deadwood.Elimination.State

/-!
# What an expression consults

Whether an expression is constant is a matter of what is known of the names that it consults.  So where the
search from constant names to what their initializers consult does not lead around in a circle, the answer is
the same for every greater bound on the names that stand for each other.
-/

namespace Deadwood

open Elimination

/-! ### Facts about the names that are consulted -/

/-- The same is known of the given names. -/
def Facts.AgreeOn (facts facts' : Facts) (ids : List Ident) : Prop :=
  ∀ id ∈ ids, ∀ primitive, facts'.accepts primitive id = facts.accepts primitive id

namespace Facts.AgreeOn

variable {facts facts' : Facts} {ids ids' : List Ident}

theorem left (h : facts.AgreeOn facts' (ids ++ ids')) : facts.AgreeOn facts' ids :=
  fun id hid => h id (List.mem_append_left _ hid)

theorem right (h : facts.AgreeOn facts' (ids ++ ids')) : facts.AgreeOn facts' ids' :=
  fun id hid => h id (List.mem_append_right _ hid)

end Facts.AgreeOn

mutual

theorem Expr.isConstantFor_congr {facts facts' : Facts} (primitive : Bool) (e : Expr)
    (h : facts.AgreeOn facts' e.consulted) : e.isConstantFor facts' primitive = e.isConstantFor facts primitive := by
  match e with
  | .ident id => exact h id List.mem_cons_self primitive
  | .template tag _ es =>
    have hes := Expr.allConstant_congr true es (Facts.AgreeOn.right h)
    simp only [Expr.isConstantFor, hes]
  | .unary op x =>
    have hx := Expr.isConstantFor_congr (!op.keepsObjects) x h
    simp only [Expr.isConstantFor, hx]
  | .binary op x y =>
    have hx := fun primitive => Expr.isConstantFor_congr primitive x (Facts.AgreeOn.left h)
    have hy := fun primitive => Expr.isConstantFor_congr primitive y (Facts.AgreeOn.right h)
    simp only [Expr.isConstantFor, hx, hy]
  | .cond test yes no =>
    have ht := Expr.isConstantFor_congr false test (Facts.AgreeOn.left h)
    have hy := Expr.isConstantFor_congr primitive yes (Facts.AgreeOn.left (Facts.AgreeOn.right h))
    have hn := Expr.isConstantFor_congr primitive no (Facts.AgreeOn.right (Facts.AgreeOn.right h))
    simp only [Expr.isConstantFor, ht, hy, hn]
  | .seq es =>
    have hes := Expr.isConstantSeq_congr primitive es h
    simp only [Expr.isConstantFor, hes]
  | .array es =>
    have hes := Expr.allConstant_congr false es h
    simp only [Expr.isConstantFor, hes]
  | .object ps =>
    have hps := Property.allConstant_congr ps h
    simp only [Expr.isConstantFor, hps]
  | .cls c =>
    have hc := Class.isConstantFor_congr c h
    simp only [Expr.isConstantFor, hc]
  | .hole | .null | .bool _ | .number .. | .string _ | .regExp .. | .func _ | .arrow .. | .arrowBlock .. | .this
  | .super | .spread _ | .update .. | .call .. | .await _ | .yield .. | .new .. | .assign .. | .member ..
  | .index .. => simp only [Expr.isConstantFor]

theorem Expr.allConstant_congr {facts facts' : Facts} (primitive : Bool) (es : List Expr)
    (h : facts.AgreeOn facts' (Expr.foldList Fold.consulted es)) :
    Expr.allConstant facts' primitive es = Expr.allConstant facts primitive es := by
  match es with
  | [] => rfl
  | e :: es =>
    have he := Expr.isConstantFor_congr primitive e h.left
    have hes := Expr.allConstant_congr primitive es h.right
    simp only [Expr.allConstant, he, hes]

theorem Expr.isConstantSeq_congr {facts facts' : Facts} (primitive : Bool) (es : List Expr)
    (h : facts.AgreeOn facts' (Expr.foldList Fold.consulted es)) :
    Expr.isConstantSeq facts' primitive es = Expr.isConstantSeq facts primitive es := by
  match es with
  | [] => rfl
  | [e] => exact Expr.isConstantFor_congr primitive e h.left
  | e :: e' :: es =>
    have he := Expr.isConstantFor_congr false e h.left
    have hes := Expr.isConstantSeq_congr primitive (e' :: es) h.right
    simp only [Expr.isConstantSeq, he, hes]

theorem Expr.isConstantOpt_congr {facts facts' : Facts} (e : Option Expr)
    (h : facts.AgreeOn facts' (Expr.foldOpt Fold.consulted e)) :
    Expr.isConstantOpt facts' e = Expr.isConstantOpt facts e := by
  match e with
  | none => rfl
  | some e => exact Expr.isConstantFor_congr false e h

theorem Property.allConstant_congr {facts facts' : Facts} (ps : List Property)
    (h : facts.AgreeOn facts' (Property.foldList Fold.consulted ps)) :
    Property.allConstant facts' ps = Property.allConstant facts ps := by
  match ps with
  | [] => rfl
  | p :: ps =>
    have hp := Property.isConstantFor_congr p h.left
    have hps := Property.allConstant_congr ps h.right
    simp only [Property.allConstant, hp, hps]

theorem Property.isConstantFor_congr {facts facts' : Facts} (p : Property)
    (h : facts.AgreeOn facts' (p.fold Fold.consulted)) : p.isConstantFor facts' = p.isConstantFor facts := by
  match p with
  | .short id init =>
    have hid := h id (List.mem_append_left _ List.mem_cons_self) false
    simp only [Property.isConstantFor, hid]
  | .keyed key _ value computed =>
    have hv := Expr.isConstantFor_congr false value (Facts.AgreeOn.right h)
    cases computed with
    | false => simp only [Property.isConstantFor, Bool.not_false, Bool.true_or, hv]
    | true =>
      have hk := Expr.isConstantFor_congr true key (Facts.AgreeOn.left h)
      simp only [Property.isConstantFor, hk, hv]
  | .spread _ => rfl

theorem Class.isConstantFor_congr {facts facts' : Facts} (c : Class)
    (h : facts.AgreeOn facts' (c.fold Fold.consulted .own)) : c.isConstantFor facts' = c.isConstantFor facts := by
  match c with
  | .mk _ superclass body decorators =>
    have h := Facts.AgreeOn.right (Facts.AgreeOn.right h)
    have hs := Expr.isConstantOpt_congr superclass h.left
    have hb := ClassElement.allConstant_congr body h.right
    simp only [Class.isConstantFor, hs, hb]

theorem ClassElement.allConstant_congr {facts facts' : Facts} (es : List ClassElement)
    (h : facts.AgreeOn facts' (ClassElement.foldList Fold.consulted es)) :
    ClassElement.allConstant facts' es = ClassElement.allConstant facts es := by
  match es with
  | [] => rfl
  | e :: es =>
    have he := ClassElement.isConstantFor_congr e h.left
    have hes := ClassElement.allConstant_congr es h.right
    simp only [ClassElement.allConstant, he, hes]

theorem ClassElement.isConstantFor_congr {facts facts' : Facts} (e : ClassElement)
    (h : facts.AgreeOn facts' (e.fold Fold.consulted)) : e.isConstantFor facts' = e.isConstantFor facts := by
  match e with
  | .method key _ _ computed _ =>
    cases computed with
    | false => simp only [ClassElement.isConstantFor, Bool.not_false, Bool.true_or]
    | true => exact congrArg (!true || ·) (Expr.isConstantFor_congr true key (Facts.AgreeOn.left h))
  | .field key init computed _ =>
    have hi := Expr.isConstantOpt_congr init (Facts.AgreeOn.right h)
    cases computed with
    | false => simp only [ClassElement.isConstantFor, Bool.not_false, Bool.true_or, hi]
    | true =>
      have hk := Expr.isConstantFor_congr true key (Facts.AgreeOn.left h)
      simp only [ClassElement.isConstantFor, hk, hi]
  | .block _ => rfl

end

/-! ### Bounds -/

namespace Elimination.State

variable {s : State}

/-- The facts of a pass where the given number of names may stand for each other. -/
def factsWithin (s : State) (bound : Nat) : Facts := ⟨s.isConstant, s.isPrimitive bound⟩

theorem factsWithin_agreeOn {bound bound' : Nat} {ids : List Ident}
    (h : ∀ id ∈ ids, s.isPrimitive bound' id = s.isPrimitive bound id) :
    (s.factsWithin bound).AgreeOn (s.factsWithin bound') ids := by
  intro id hid primitive
  cases primitive with
  | false => rfl
  | true => exact congrArg ((Expr.ident id).isGlobalConstant || ·) (h id hid)

/-- Where the search for what a name stands for does not lead around in a circle, it has all the bound that it
needs. -/
theorem isPrimitive_of_circles {bound : Nat} {path : List Site} {id : Ident} (h : s.circles bound path id = false)
    (more : Nat) : s.isPrimitive (bound + more) id = s.isPrimitive bound id := by
  induction bound generalizing path id with
  | zero => cases h
  | succ bound ih =>
    rw [Nat.add_right_comm]
    rw [circles, Bool.and_eq_false_iff] at h
    simp only [isPrimitive]
    cases hc : s.isConstant id with
    | false => rfl
    | true =>
      have h := h.resolve_left (by rw [hc]; exact Bool.noConfusion)
      cases hi : s.initializer? id with
      | none => rfl
      | some init =>
        cases init with
        | none => rfl
        | some e =>
          obtain ⟨site, ho⟩ : ∃ site, s.origin? id = some (.declarator site) := by
            unfold initializer? at hi
            split at hi
            next site ho => exact ⟨site, ho⟩
            · cases hi
          simp only [ho, hi, Bool.or_eq_false_iff, List.any_eq_false] at h
          refine congrArg (true && ·) (Expr.isConstantFor_congr true e (factsWithin_agreeOn fun id' hid' => ?_))
          exact ih (Bool.eq_false_iff.2 (h.2 id' hid'))

/-- Whether an expression is constant is settled where no search leads around in a circle. -/
theorem isPureConstant_of_circles {e : Expr} (h : e.consulted.any (s.circles (s.info.bindings.size + 1) []) = false)
    (more : Nat) : e.isPureConstant (s.factsWithin (s.info.bindings.size + 1 + more)) = e.isPureConstant s.facts := by
  rw [List.any_eq_false] at h
  refine Expr.isConstantFor_congr false e (factsWithin_agreeOn fun id hid => ?_)
  exact isPrimitive_of_circles (Bool.eq_false_iff.2 (h id hid)) more

/-- A question that is not noted to lead around in a circle has the answer that it has without the bound. -/
theorem isPureConstant_of_ask {e : Expr} (h : ((ask (some e)).run s).2.circled = false) (more : Nat) :
    e.isPureConstant (s.factsWithin (s.info.bindings.size + 1 + more)) = e.isPureConstant s.facts := by
  have hnote : (s.circled || e.consulted.any (s.circles (s.info.bindings.size + 1) [])) = false := h
  exact isPureConstant_of_circles (Bool.or_eq_false_iff.1 hnote).2 more

/-- Facts by which a name stands for itself lead around in a circle. -/
example :
    let a : Ident := { name := "a", mark := 1, site := 0 }
    let b : Binding :=
      { name := "a", kind := .var, scope := 1, declScope := 1, origin := .declarator 1, container := none,
        isInitialized := true }
    let s : State :=
      { info := ⟨#[], #[b], #[some (0, 1)], #[]⟩, cyclic := [],
        definitions := #[none, some (.variable (some (.ident a)))] }
    s.circles 2 [] a = true := by decide

end Elimination.State

end Deadwood
