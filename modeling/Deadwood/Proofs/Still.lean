import Deadwood.Proofs.Renumbering
import Deadwood.Proofs.Rules
import Deadwood.Elimination.Traversal

/-!
# Passes that change nothing

A pass that records no change only tidies the program that it goes through.  Over the tidied program, with
other marks for its scopes, the same pass then records no change either, and leaves it as it is: no rule
looks at a statement that does nothing, and none looks at marks but to compare them.
-/

namespace Deadwood

open Elimination

namespace Elimination

/-- A declaration with other identifiers and without idle statements. -/
def Definition.tidy (f : Ident → Ident) : Definition → Definition
  | .variable init => .variable (Expr.tidyOpt f init)
  | .func fn => .func (fn.tidy f)
  | .cls c => .cls (c.tidy f)

/-- Nothing has been changed so far. -/
structure State.Clean (s : State) : Prop where
  dead : s.dead = []
  moved : s.moved = []
  trimmed : s.trimmed = []
  late : s.late = []
  changes : s.changes = []

namespace State.Clean

variable {s : State}

theorem isDead (h : s.Clean) (site : Site) : s.isDead site = false := by rw [State.isDead, h.dead]; rfl

theorem isDeadStmt (h : s.Clean) (t : Stmt) : s.isDeadStmt t = false := by
  have hd : s.isDead = fun _ => false := funext h.isDead
  unfold State.isDeadStmt
  rw [hd]
  split
  · cases Func.name _ <;> rfl
  · cases Class.name _ <;> rfl
  · rfl

theorem renewExpr (h : s.Clean) (e : Expr) : s.renewExpr e = e := by
  rw [State.renewExpr, h.late]
  rfl

theorem renewStmt (h : s.Clean) (t : Stmt) : s.renewStmt t = t := by
  rw [State.renewStmt, h.late]
  rfl

end State.Clean

end Elimination

namespace Elimination.State

variable {s : State} {id : Ident} {i : BindingId} {b : Binding} {value : Expr}

/-- What is checked of a value before it takes the place of a reference. -/
theorem inlined?_eq_some_iff : s.inlined? id = some (i, b, value) ↔
    s.moved.contains id.site = false ∧ s.info.bindingOf? id = some i ∧ s.info.binding? i = some b ∧
      s.isInlinable i b = true ∧ s.valueOf? b = some value ∧
        ∃ m, s.info.scopeOf? id = some m ∧ value.isPureConstant s.facts = true ∧
          (value.allocates = true → m = b.declScope) ∧ (∀ r ∈ value.references, r.site ≠ id.site) ∧
            s.isShadowed value m b.declScope = false := by
  constructor
  · intro h
    obtain ⟨⟨j, c, v⟩, hc, h⟩ := Option.bind_eq_some_iff.1 h
    obtain ⟨m, hs, h⟩ := Option.bind_eq_some_iff.1 h
    obtain ⟨_, hp, h⟩ := Option.bind_eq_some_iff.1 h
    obtain ⟨_, hr, h⟩ := Option.bind_eq_some_iff.1 h
    cases h
    obtain ⟨hm, hj, hb, hi, hv⟩ := candidate?_eq_some_iff.1 hc
    have hp := of_guard hp
    have hr := of_guard hr
    simp only [Bool.not_eq_true', Bool.and_eq_true, Bool.and_eq_false_iff, decide_eq_false_iff_not,
      Decidable.not_not] at hp
    simp only [Bool.not_eq_true', Bool.or_eq_false_iff, List.any_eq_false, decide_eq_true_eq] at hr
    refine ⟨hm, hj, hb, hi, hv, m, hs, hp.1, fun ha => hp.2.resolve_left ?_, hr⟩
    rw [ha]
    exact Bool.noConfusion
  · rintro ⟨hm, hj, hc, hi, hv, m, hs, hp, ha, hr, hsh⟩
    have hguard {p : Prop} [Decidable p] (h : p) : (guard p : Option Unit) = some () := if_pos h
    refine Option.bind_eq_some_iff.2 ⟨(i, b, value), candidate?_eq_some_iff.2 ⟨hm, hj, hc, hi, hv⟩, ?_⟩
    refine Option.bind_eq_some_iff.2 ⟨m, hs, Option.bind_eq_some_iff.2 ⟨(), hguard ?_, ?_⟩⟩
    · cases hal : value.allocates with
      | false => rw [hp]; rfl
      | true => simp [hp, ha hal]
    · refine Option.bind_eq_some_iff.2 ⟨(), hguard ?_, rfl⟩
      simp only [Bool.not_eq_true', Bool.or_eq_false_iff, List.any_eq_false, decide_eq_true_eq]
      exact ⟨hr, hsh⟩

end Elimination.State

/-- Something as it is or tidied, and the same thing tidied with other identifiers. -/
def Follows {α : Type} (tidy : (Ident → Ident) → α → α) (f : Ident → Ident) (a a' : α) : Prop :=
  ∃ b, (a = b ∨ a = tidy id b) ∧ a' = tidy f b

/-- A pass over a program, and a pass over its tidied form with other marks. -/
structure Rerun extends Renumbering where
  /-- The declarations of the program by their sites. -/
  base : Site → Option Definition
  /-- The state that the second pass starts in. -/
  start : State
  start_info : start.info = info'
  start_clean : start.Clean
  start_definition : ∀ site, start.definition? site = (base site).map (Definition.tidy toRenumbering.stamp)

namespace Rerun

open Renumbering (hasEval isBound kept_eq_iff encloses lookup)

variable {R : Rerun} {s s' : State}

/-- Both passes have changed nothing so far, and know the same of the program.  What the first one knows of a
declaration is from before or after it has gone through it; the second one knows all from the start, but for
the declarators that it has come by. -/
structure Still (R : Rerun) (s s' : State) : Prop where
  info : s.info = R.info
  cyclic : s.cyclic = R.start.cyclic
  definitions : ∀ site, s.definition? site = R.base site ∨
    s.definition? site = (R.base site).map (Definition.tidy id)
  clean : s.Clean
  later : ∃ c, s' = { R.start.noting c with listed := s.listed }

namespace Still

theorem info' (h : R.Still s s') : s'.info = R.info' := by
  obtain ⟨c, rfl⟩ := h.later
  exact R.start_info

theorem cyclic' (h : R.Still s s') : s'.cyclic = R.start.cyclic := by
  obtain ⟨c, rfl⟩ := h.later
  rfl

theorem listed (h : R.Still s s') : s'.listed = s.listed := by
  obtain ⟨c, rfl⟩ := h.later
  rfl

theorem clean' (h : R.Still s s') : s'.Clean := by
  obtain ⟨c, rfl⟩ := h.later
  exact { R.start_clean with }

/-- It makes no difference what is noted of circles. -/
theorem noting (h : R.Still s s') (c c' : Bool) : R.Still (s.noting c) (s'.noting c') where
  info := h.info
  cyclic := h.cyclic
  definitions := h.definitions
  clean := { h.clean with }
  later := by
    obtain ⟨b, rfl⟩ := h.later
    exact ⟨c', rfl⟩

theorem definition? (h : R.Still s s') (site : Site) :
    Option.Rel (Follows Definition.tidy R.stamp) (s.definition? site) (s'.definition? site) := by
  have hs : s'.definition? site = (R.base site).map (Definition.tidy R.stamp) := by
    obtain ⟨c, rfl⟩ := h.later
    exact R.start_definition site
  rw [hs]
  rcases h.definitions site with hd | hd <;> rw [hd] <;> cases R.base site with
  | none => exact .none
  | some d => first | exact .some ⟨d, .inl rfl, rfl⟩ | exact .some ⟨d, .inr rfl, rfl⟩

/-! ### What both know -/

theorem isConstant (h : R.Still s s') (id : Ident) : s'.isConstant (R.stamp id) = s.isConstant id := by
  simp only [State.isConstant, h.info, h.info', R.bindingOf?]
  cases R.info.bindingOf? id with
  | none => rfl
  | some i =>
    simp only [Option.bind_some, R.binding?]
    cases R.info.binding? i <;> rfl

theorem initializer? (h : R.Still s s') (id : Ident) :
    Option.Rel (Follows Expr.tidyOpt R.stamp) (s.initializer? id) (s'.initializer? (R.stamp id)) := by
  simp only [State.initializer?, State.origin?, h.info, h.info', R.bindingOf?]
  cases R.info.bindingOf? id with
  | none => exact .none
  | some i =>
    simp only [Option.bind_some, R.binding?]
    cases R.info.binding? i with
    | none => exact .none
    | some b =>
      have ho : (b.renumber R.number).origin = b.origin := rfl
      simp only [Option.map_some, ho]
      cases b.origin with
      | declarator site =>
        have hd := h.definition? site
        simp only
        generalize s.definition? site = d, s'.definition? site = d' at hd ⊢
        cases hd with
        | none => exact .none
        | some hd =>
          obtain ⟨d, hd, rfl⟩ := hd
          cases d with
          | «variable» init =>
            rcases hd with rfl | rfl
            · exact .some ⟨init, .inl rfl, rfl⟩
            · exact .some ⟨init, .inr rfl, rfl⟩
          | _ => rcases hd with rfl | rfl <;> exact .none
      | _ => exact .none

/-- What is known of the names of an expression does not depend on whether it is tidied. -/
theorem isConstantFor {facts facts' : Facts} (hf : facts.Follow facts' R.stamp) {e e' : Expr}
    (he : Follows Expr.tidy R.stamp e e') (primitive : Bool) :
    e'.isConstantFor facts' primitive = e.isConstantFor facts primitive := by
  obtain ⟨e, rfl | rfl, rfl⟩ := he
  · exact Expr.tidy_isConstantFor hf primitive e
  · rw [Expr.tidy_isConstantFor hf, Expr.tidy_isConstantFor (facts.follow_self)]

theorem isPrimitive (h : R.Still s s') (bound : Nat) (id : Ident) :
    s'.isPrimitive bound (R.stamp id) = s.isPrimitive bound id := by
  induction bound generalizing id with
  | zero => rfl
  | succ bound ih =>
    have hf : Facts.Follow ⟨s.isConstant, s.isPrimitive bound⟩ ⟨s'.isConstant, s'.isPrimitive bound⟩ R.stamp :=
      .of_names R.alikeStamps h.isConstant ih
    have hi := h.initializer? id
    simp only [State.isPrimitive, h.isConstant]
    generalize s.initializer? id = e, s'.initializer? (R.stamp id) = e' at hi ⊢
    cases hi with
    | none => rfl
    | some hi =>
      obtain ⟨e, he, rfl⟩ := hi
      cases e with
      | none => rcases he with rfl | rfl <;> rfl
      | some e =>
        rcases he with rfl | rfl
        · exact congrArg (s.isConstant id && ·) (isConstantFor hf ⟨e, .inl rfl, rfl⟩ true)
        · exact congrArg (s.isConstant id && ·) (isConstantFor hf ⟨e, .inr rfl, rfl⟩ true)

theorem facts (h : R.Still s s') : s.facts.Follow s'.facts R.stamp := by
  refine .of_names R.alikeStamps h.isConstant fun id => ?_
  simp only [State.facts, h.info, h.info', R.bindings, Array.size_map, h.isPrimitive]

theorem isConstantInit (h : R.Still s s') {e e' : Option Expr} (he : Follows Expr.tidyOpt R.stamp e e') :
    s'.isConstantInit e' = s.isConstantInit e := by
  obtain ⟨e, he, rfl⟩ := he
  cases e with
  | none => rcases he with rfl | rfl <;> rfl
  | some e =>
    rcases he with rfl | rfl
    · exact isConstantFor h.facts ⟨e, .inl rfl, rfl⟩ false
    · exact isConstantFor h.facts ⟨e, .inr rfl, rfl⟩ false

/-! ### References -/

theorem isRemovable (h : R.Still s s') (i : Option BindingId) : s'.isRemovable i = s.isRemovable i := by
  cases i with
  | none => rfl
  | some i =>
    simp only [State.isRemovable, h.info, h.info', h.cyclic, h.cyclic', R.binding?]
    cases hb : R.info.binding? i with
    | none => rfl
    | some b =>
      simp only [Option.map_some, hasEval hb, isBound hb]
      rfl

theorem isReferenced (h : R.Still s s') (i : Option BindingId) : s'.isReferenced i = s.isReferenced i := by
  cases i with
  | none => rfl
  | some i =>
    simp only [State.isReferenced, h.info, h.info', h.cyclic, h.cyclic', R.binding?]
    cases R.info.binding? i <;> rfl

theorem isUsed (h : R.Still s s') (id : Ident) : s'.isUsed (R.stamp id) = s.isUsed id := by
  simp only [State.isUsed, h.info', h.info, R.declaration?, h.isReferenced]

/-! ### Inlining -/

theorem valueOf? (h : R.Still s s') {i : BindingId} {b : Binding} (hb : R.info.binding? i = some b) :
    Option.Rel (Follows Expr.tidy R.stamp) (s.valueOf? b) (s'.valueOf? (b.renumber R.number)) := by
  have ho : (b.renumber R.number).origin = b.origin := rfl
  have hk : (b.renumber R.number).kind = b.kind := rfl
  have hs : (b.renumber R.number).declScope ≠ (b.renumber R.number).scope ↔ b.declScope ≠ b.scope :=
    not_congr (kept_eq_iff (R.held hb).2 (R.held hb).1)
  have hr : s.renewExpr = id := funext h.clean.renewExpr
  have hr' : s'.renewExpr = id := funext h.clean'.renewExpr
  simp only [State.valueOf?, ho, hk, hs, h.listed, hr, hr']
  cases b.origin with
  | declarator site =>
    have hd := h.definition? site
    simp only
    split
    next =>
      generalize s.definition? site = d, s'.definition? site = d' at hd ⊢
      cases hd with
      | none => exact .none
      | some hd =>
        obtain ⟨d, hd, rfl⟩ := hd
        cases d with
        | «variable» init =>
          cases init with
          | none => rcases hd with rfl | rfl <;> exact .none
          | some e =>
            rcases hd with rfl | rfl
            · exact .some ⟨e, .inl rfl, rfl⟩
            · exact .some ⟨e, .inr rfl, rfl⟩
        | _ => rcases hd with rfl | rfl <;> exact .none
    next => exact .none
  | func site =>
    have hd := h.definition? site
    simp only
    generalize s.definition? site = d, s'.definition? site = d' at hd ⊢
    cases hd with
    | none => exact .none
    | some hd =>
      obtain ⟨d, hd, rfl⟩ := hd
      cases d with
      | func fn =>
        rcases hd with rfl | rfl
        · exact .some ⟨.func fn, .inl rfl, rfl⟩
        · exact .some ⟨.func fn, .inr rfl, rfl⟩
      | _ => rcases hd with rfl | rfl <;> exact .none
  | cls site =>
    have hd := h.definition? site
    simp only
    generalize s.definition? site = d, s'.definition? site = d' at hd ⊢
    cases hd with
    | none => exact .none
    | some hd =>
      obtain ⟨d, hd, rfl⟩ := hd
      cases d with
      | cls c =>
        rcases hd with rfl | rfl
        · exact .some ⟨.cls c, .inl rfl, rfl⟩
        · exact .some ⟨.cls c, .inr rfl, rfl⟩
      | _ => rcases hd with rfl | rfl <;> exact .none
  | _ => exact .none

theorem references {e e' : Expr} (h : Follows Expr.tidy R.stamp e e') :
    e'.references = e.references.map R.stamp := by
  obtain ⟨e, rfl | rfl, rfl⟩ := h
  · exact Expr.tidy_references R.stamp e
  · rw [Expr.tidy_references, Expr.tidy_references, List.map_id]

theorem allocates {e e' : Expr} (h : Follows Expr.tidy R.stamp e e') : e'.allocates = e.allocates := by
  obtain ⟨e, rfl | rfl, rfl⟩ := h
  · exact Expr.tidy_allocates R.stamp e
  · rw [Expr.tidy_allocates, Expr.tidy_allocates]

theorem isShadowed (h : R.Still s s') {e e' : Expr} (he : Follows Expr.tidy R.stamp e e') {m n : Mark}
    (hm : R.kept m) (hn : R.kept n) : s'.isShadowed e' (R.number m) (R.number n) = s.isShadowed e m n := by
  have hid (id : Ident) :
      ((R.info.bindingOf? id).bind R.info'.binding?).all (fun b => R.info'.encloses b.scope (R.number n)) =
        ((R.info.bindingOf? id).bind R.info.binding?).all (fun b => R.info.encloses b.scope n) := by
    cases R.info.bindingOf? id with
    | none => rfl
    | some i =>
      simp only [Option.bind_some, R.binding?]
      cases hb : R.info.binding? i with
      | none => rfl
      | some b => exact encloses (R.held hb).1 hn
  simp only [State.isShadowed, references he, List.any_map, h.info, h.info']
  congr 1
  funext id
  simp only [Function.comp, R.bindingOf?, hid, R.stamp_name, lookup hm]

theorem isInlinable (h : R.Still s s') {i : BindingId} {b : Binding} (hb : R.info.binding? i = some b) :
    s'.isInlinable i (b.renumber R.number) = s.isInlinable i b := by
  simp only [State.isInlinable, h.info, h.info', h.cyclic, h.cyclic', hasEval hb, isBound hb]
  rfl

theorem inlined? (h : R.Still s s') {id : Ident} (hid : s.inlined? id = none) :
    s'.inlined? (R.stamp id) = none := by
  refine Option.eq_none_iff_forall_ne_some.2 fun ⟨i, b', v'⟩ hr => ?_
  obtain ⟨-, hi, hb', hinl, hv', m', hm', hconst, halloc, hself, hsh⟩ := State.inlined?_eq_some_iff.1 hr
  rw [h.info', R.bindingOf?] at hi
  rw [h.info', R.binding?] at hb'
  rw [h.info', R.scopeOf?] at hm'
  obtain ⟨b, hb, rfl⟩ := Option.map_eq_some_iff.1 hb'
  obtain ⟨m, hm, rfl⟩ := Option.map_eq_some_iff.1 hm'
  have hv := h.valueOf? hb
  rw [hv'] at hv
  generalize hve : s.valueOf? b = v? at hv
  cases hv with
  | @some v _ hv =>
    have hsome : s.inlined? id = some (i, b, v) := by
      refine State.inlined?_eq_some_iff.2 ⟨?_, h.info ▸ hi, h.info ▸ hb, h.isInlinable hb ▸ hinl, hve, m,
        h.info ▸ hm, (isConstantFor h.facts hv false).symm.trans hconst, fun ha => ?_, fun r hr => ?_, ?_⟩
      · rw [h.clean.moved]
        rfl
      · exact (kept_eq_iff (R.around hm) (R.held hb).2).1 (halloc ((allocates hv).trans ha))
      · exact hself (R.stamp r) (references hv ▸ List.mem_map_of_mem hr)
      · exact (h.isShadowed hv (R.around hm) (R.held hb).2).symm.trans hsh
    rw [hsome] at hid
    cases hid

end Still

end Rerun

end Deadwood
