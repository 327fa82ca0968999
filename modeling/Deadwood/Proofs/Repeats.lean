import Deadwood.Proofs.NormalForm
import Deadwood.Proofs.Payment
import Deadwood.Proofs.Still

/-!
# The same pass again

A pass that records no change leaves every piece of syntax tidied, and a pass over what it leaves, with other
marks, records no change either and finds it normal.  Here is what this takes of every rule; the pieces of
syntax are put together by `Repeats.pair`, `Repeats.map` and `Repeats.andThen`.
-/

namespace Deadwood

open Elimination

namespace Elimination

theorem inline_changes (id : Ident) (s : State) : s.changes.length ≤ (inline id s).2.changes.length := by
  obtain ⟨c, hs, h | ⟨i, b, value, -, h⟩⟩ := State.inline_cases id s
  · rw [h]
    exact hs.changes
  · rw [h]
    exact Nat.le_succ _

theorem defineNamed_changes (name : Option Ident) (d : Definition) (s : State) :
    (defineNamed name d s).2.changes = s.changes := by
  cases name with
  | none => rfl
  | some id =>
    show (if _ then _ else _ : State).changes = s.changes
    split <;> rfl

theorem defineVariable_changes (d : Declarator) (s : State) : (defineVariable d s).2.changes = s.changes := by
  match d with
  | .mk _ (.ident _) _ | .mk _ .hole _ | .mk _ (.array ..) _ | .mk _ (.object ..) _ => rfl

theorem list_changes (t : Stmt) (s : State) : (list t s).2.changes = s.changes := by
  cases t <;> rfl

theorem trimDeclarator_changes (kind : DeclKind) (d : Declarator) (s : State) :
    s.changes.length ≤ (trimDeclarator kind d s).2.changes.length := by
  rcases Ledger.trimDeclarator_cases kind d s with
    he | ⟨-, -, hs, -⟩ | ⟨_, _, _, v, -, -, -, -, -, hv, -, he⟩
  · rw [he]
  · exact hs.changes
  · rw [he, ← hv]
    exact Nat.le_succ _

theorem forM_trimDeclarator_changes (kind : DeclKind) (ds : List Declarator) (s : State) :
    s.changes.length ≤ (ds.forM (trimDeclarator kind) s).2.changes.length := by
  induction ds generalizing s with
  | nil => exact Nat.le_refl _
  | cons d ds ih => exact Nat.le_trans (trimDeclarator_changes kind d s) (ih _)

/-- Whether a declarator stays as it is where it is never reached. -/
def State.keepsUnreached (s : State) (kind : DeclKind) (d : Declarator) : Bool :=
  s.bindsUsed d.target && !(d.target.isIdent && kind ≠ .const && d.init.isSome)

theorem State.Clean.trimDeclarator {s : State} (h : s.Clean) (kind : DeclKind) (d : Declarator) :
    s.keepsUnreached kind d = true ∧ trimDeclarator kind d s = ((), s) ∨
      s.keepsUnreached kind d = false ∧ (trimDeclarator kind d s).2.changes ≠ [] := by
  cases d with
  | mk site target init =>
    cases hu : s.bindsUsed target with
    | false =>
      refine .inr ⟨by rw [keepsUnreached, Declarator.target, hu]; rfl, ?_⟩
      simp only [Elimination.trimDeclarator, run_bind, run_get, h.isDead, hu, Bool.false_eq_true, Bool.not_false,
        if_false, if_true]
      exact List.cons_ne_nil _ _
    | true =>
      cases hc : target.isIdent && kind ≠ .const && init.isSome with
      | false =>
        refine .inl ⟨by rw [keepsUnreached, Declarator.target, Declarator.init, hu, hc]; rfl, ?_⟩
        simp only [Elimination.trimDeclarator, run_bind, run_get, h.isDead, hu, hc, Bool.false_eq_true,
          Bool.not_true, Bool.false_and, if_false, run_pure]
      | true =>
        refine .inr ⟨by rw [keepsUnreached, Declarator.target, Declarator.init, hu, hc]; rfl, ?_⟩
        simp only [Elimination.trimDeclarator, run_bind, run_get, h.isDead, hu, hc, h.trimmed,
          Bool.false_eq_true, Bool.not_true, if_false]
        exact List.cons_ne_nil _ _

theorem State.isRemovable_of_isUsed {s : State} {id : Ident} (h : s.isUsed id = true) :
    s.isRemovable (s.info.declaration? id) = false := by
  refine Bool.eq_false_iff.2 fun hr => ?_
  have hn : s.isUsed id = false := isReferenced_of_isRemovable hr
  rw [h] at hn
  cases hn

/-- A declarator of a name that is used is not to go. -/
theorem State.removesDeclarator_of_bindsUsed {s : State} {d : Declarator} (h : s.bindsUsed d.target = true) :
    s.removesDeclarator d = false := by
  match d with
  | .mk _ (.ident id) init =>
    have hr := isRemovable_of_isUsed ((Bool.or_false _).symm.trans h)
    rw [removesDeclarator, hr, Bool.false_and]
  | .mk _ .hole _ | .mk _ (.array ..) _ | .mk _ (.object ..) _ => rfl

end Elimination

theorem Declarator.eliminate_changes {site : Site} {target : Pattern} {init : Option Expr} {s : State}
    (h : s.isDead site = false)
    (hi : ∀ s, s.changes.length ≤ (Expr.eliminateOpt .value init s).2.changes.length) :
    (target.eliminate s).2.changes.length ≤ ((Declarator.mk site target init).eliminate s).2.changes.length := by
  cases ht : (target.eliminate s).2.trimmed.contains site with
  | true => rw [Declarator.eliminate_trimmed h ht, defineVariable_changes]
  | false =>
    rw [Declarator.eliminate_alive h ht, defineVariable_changes]
    exact hi _

namespace Rerun

variable {R : Rerun} {s s' : State} {α β γ : Type}

/-- What the first pass does to a piece of syntax and the second one does to its tidied form: if the first one
records no change, it leaves the piece tidied, and the second one leaves it as it is.  What `N` says of the
tidied piece then holds. -/
structure Repeats (R : Rerun) (x : (Ident → Ident) → α) (N : Prop) (a a' : Pass α) : Prop where
  grows : ∀ s, s.changes.length ≤ (a s).2.changes.length
  still : ∀ {s s'}, R.Still s s' → (a s).2.changes = [] →
    (a s).1 = x id ∧ (a' s').1 = x R.stamp ∧ N ∧ R.Still (a s).2 (a' s').2

theorem changes_eq_nil {t : State} (h : s.changes.length ≤ t.changes.length) (ht : t.changes = []) :
    s.changes = [] := by
  rw [ht] at h
  exact List.eq_nil_of_length_eq_zero (Nat.le_zero.1 h)

namespace Repeats

variable {x : (Ident → Ident) → α} {N : Prop} {a a' : Pass α}
  {y : (Ident → Ident) → β} {N' : Prop} {b b' : Pass β}

/-- A piece without parts that the rules apply to. -/
theorem atom (x : (Ident → Ident) → α) (hN : N) : Repeats R x N (pure (x id)) (pure (x R.stamp)) where
  grows _ := Nat.le_refl _
  still hs _ := ⟨rfl, rfl, hN, hs⟩

theorem const (z : α) (hN : N) : Repeats R (fun _ => z) N (pure z) (pure z) := atom (fun _ => z) hN

/-- One step after another. -/
theorem andThen (h : Repeats R x N a a') {k k' : α → Pass β}
    (hk : ∀ z s, s.changes.length ≤ (k z s).2.changes.length)
    (hstill : ∀ {s s'}, R.Still s s' → N → (k (x id) s).2.changes = [] →
      (k (x id) s).1 = y id ∧ (k' (x R.stamp) s').1 = y R.stamp ∧ N' ∧
        R.Still (k (x id) s).2 (k' (x R.stamp) s').2) :
    Repeats R y N' (a >>= k) (a' >>= k') where
  grows s := Nat.le_trans (h.grows s) (hk _ _)
  still {s s'} hs hc := by
    obtain ⟨h₁, h₂, hN, hs⟩ := h.still hs (changes_eq_nil (hk _ _) hc)
    simp only [run_bind, h₁, h₂] at hc ⊢
    exact hstill hs hN hc

/-- A piece around another one, where the identifiers of the piece itself get other stamps. -/
theorem mapStamped (h : Repeats R x N a a') (F : (Ident → Ident) → α → β) (hN : N → N') :
    Repeats R (fun f => F f (x f)) N' (a >>= fun z => pure (F id z)) (a' >>= fun z => pure (F R.stamp z)) :=
  h.andThen (fun _ _ => Nat.le_refl _) fun hs hx _ => ⟨rfl, rfl, hN hx, hs⟩

theorem map (h : Repeats R x N a a') (F : α → β) (hN : N → N') :
    Repeats R (fun f => F (x f)) N' (a >>= fun z => pure (F z)) (a' >>= fun z => pure (F z)) :=
  h.mapStamped (fun _ => F) hN

theorem pair (h : Repeats R x N a a') (h' : Repeats R y N' b b') :
    Repeats R (fun f => (x f, y f)) (N ∧ N')
      (a >>= fun z => b >>= fun w => pure (z, w)) (a' >>= fun z => b' >>= fun w => pure (z, w)) :=
  h.andThen (fun _ s => h'.grows s) fun hs hx hc => by
    obtain ⟨h₁, h₂, hN, hs⟩ := h'.still hs hc
    exact ⟨congrArg (x id, ·) h₁, congrArg (x R.stamp, ·) h₂, ⟨hx, hN⟩, hs⟩

end Repeats

/-! ### Inlining and folding -/

namespace Still

theorem inline (h : R.Still s s') {id : Ident} (hc : (Elimination.inline id s).2.changes = []) :
    ∃ c c', Elimination.inline id s = (none, s.noting c) ∧
      Elimination.inline (R.stamp id) s' = (none, s'.noting c') := by
  cases hi : s.inlined? id with
  | none =>
    simp only [Elimination.inline, run_bind, run_get, hi, h.inlined? hi]
    exact ⟨_, _, rfl, rfl⟩
  | some r =>
    simp only [Elimination.inline, run_bind, run_get, hi] at hc
    cases hc

end Still

theorem Repeats.ident (role : OperandRole) (id : Ident) :
    Repeats R (Expr.ident id).tidy ((Expr.ident (R.stamp id)).fold R.start.normal) ((Expr.ident id).eliminate role)
      ((Expr.ident (R.stamp id)).eliminate role) where
  grows s := inline_changes id s
  still {s s'} hs hc := by
    obtain ⟨_, _, h, h'⟩ := hs.inline hc
    simp only [Expr.eliminate, run_bind, h, h', run_pure]
    exact ⟨rfl, rfl, ⟨trivial, trivial⟩, hs.noting _ _⟩

theorem Repeats.shortProperty (id : Ident) :
    Repeats R (Property.short id none).tidy ((Property.short (R.stamp id) none).fold R.start.normal)
      (Property.short id none).eliminate (Property.short (R.stamp id) none).eliminate where
  grows s := by
    simp only [Property.eliminate, run_bind]
    cases (inline id s).1 <;> exact inline_changes id s
  still {s s'} hs hc := by
    have hc : (inline id s).2.changes = [] := by
      simp only [Property.eliminate, run_bind] at hc
      revert hc
      cases (inline id s).1 <;> exact fun h => h
    obtain ⟨_, _, h, h'⟩ := hs.inline hc
    simp only [Property.eliminate, run_bind, h, h', run_pure]
    exact ⟨rfl, rfl, ⟨trivial, trivial⟩, hs.noting _ _⟩

/-- A conditional expression whose test is not known stays. -/
theorem Repeats.conditional (role : OperandRole) {test yes no : Expr} {a a' : Pass (Expr × Expr × Expr)}
    {N : Prop} (h : Repeats R (fun f => (test.tidy f, yes.tidy f, no.tidy f)) N a a') :
    Repeats R (Expr.cond test yes no).tidy ((test.tidy R.stamp).truthy? = none ∧ N)
      (a >>= fun p => foldConditional role p.1 p.2.1 p.2.2)
      (a' >>= fun p => foldConditional role p.1 p.2.1 p.2.2) := by
  refine h.andThen (fun z s => (Ledger.foldConditional_settles role _ _ _ s).changes) fun {s s'} hs hN hc => ?_
  have ht : (test.tidy R.stamp).truthy? = (test.tidy id).truthy? := Expr.tidy_truthy? R.alikeStamps test
  simp only [foldConditional, run_bind, run_get, hs.clean.renewExpr, hs.clean'.renewExpr, ht] at hc ⊢
  cases hb : (test.tidy id).truthy? with
  | none => exact ⟨rfl, rfl, ⟨rfl, hN⟩, hs⟩
  | some b =>
    rw [hb] at hc
    cases hc

/-! ### Declarations -/

namespace Still

theorem define (h : R.Still s s') {site : Site} {d : Definition} (hd : R.base site = some d) :
    R.Still (Elimination.define site (d.tidy id) s).2 (Elimination.define site (d.tidy R.stamp) s').2 where
  info := h.info
  cyclic := h.cyclic
  definitions σ := by
    have he := s.definition?_put site σ (d.tidy id) s.late
    rw [show (Elimination.define site (d.tidy id) s).2.definition? σ = _ from he]
    split
    next hσ =>
      rw [← hσ.1, hd]
      exact .inr rfl
    next => exact h.definitions σ
  clean := { h.clean with }
  later := by
    have hs : R.start.definition? site = some (d.tidy R.stamp) := by rw [R.start_definition, hd]; rfl
    have hset : R.start.definitions.setIfInBounds site (some (d.tidy R.stamp)) = R.start.definitions := by
      refine Array.ext_getElem? fun i => ?_
      rw [Array.getElem?_setIfInBounds]
      split
      next hi =>
        subst hi
        rw [State.definition?] at hs
        split
        next => exact (Option.join_eq_some_iff.1 hs).symm
        next hlt => exact (Array.getElem?_eq_none (Nat.le_of_not_lt hlt)).symm
      next => rfl
    obtain ⟨c, hs'⟩ := h.later
    refine ⟨c, ?_⟩
    rw [hs']
    exact congrArg (fun ds => { R.start.noting c with listed := s.listed, definitions := ds }) hset

theorem defineNamed (h : R.Still s s') {name : Option Ident} {d : Definition}
    (hd : ∀ id ∈ name, R.base id.site = some d) :
    R.Still (Elimination.defineNamed name (d.tidy id) s).2
      (Elimination.defineNamed (name.map R.stamp) (d.tidy R.stamp) s').2 := by
  cases name with
  | none => exact h
  | some id =>
    have hs := h.define (hd id rfl)
    have hlive {t : State} (ht : t.Clean) (id : Ident) (d : Definition) :
        (Elimination.defineNamed (some id) d t).2 = (Elimination.define id.site d t).2 :=
      if_neg (Bool.eq_false_iff.1 (ht.isDead id.site))
    rw [Option.map_some, hlive h.clean, hlive h.clean']
    exact hs

theorem defineVariable (h : R.Still s s') {site : Site} {target : Pattern} {init : Option Expr}
    (hd : ∀ id, target = .ident id → R.base site = some (.variable init)) :
    R.Still (Elimination.defineVariable ((Declarator.mk site target init).tidy id) s).2
      (Elimination.defineVariable ((Declarator.mk site target init).tidy R.stamp) s').2 := by
  cases target with
  | ident id => exact h.define (hd id rfl)
  | _ => exact h

end Still

/-- A declarator that is not dead keeps its initializer, and is defined as it is left. -/
theorem Repeats.declarator {site : Site} {target : Pattern} {init : Option Expr} {N N' : Prop}
    (hd : ∀ id, target = .ident id → R.base site = some (.variable init))
    (ht : Repeats R target.tidy N target.eliminate (target.tidy R.stamp).eliminate)
    (hi : Repeats R (Expr.tidyOpt · init) N' (Expr.eliminateOpt .value init)
      (Expr.eliminateOpt .value (Expr.tidyOpt R.stamp init))) :
    Repeats R (Declarator.mk site target init).tidy (N ∧ N') (Declarator.mk site target init).eliminate
      ((Declarator.mk site target init).tidy R.stamp).eliminate where
  grows s := by
    cases h : s.isDead site with
    | true => rw [Declarator.eliminate_dead h]
    | false => exact Nat.le_trans (ht.grows s) (Declarator.eliminate_changes h hi.grows)
  still {s s'} hs hc := by
    have hdead := hs.clean.isDead site
    obtain ⟨h₁, h₁', hN, hs₁⟩ := ht.still hs (changes_eq_nil (Declarator.eliminate_changes hdead hi.grows) hc)
    have htrim : (target.eliminate s).2.trimmed.contains site = false := by rw [hs₁.clean.trimmed]; rfl
    have htrim' : ((target.tidy R.stamp).eliminate s').2.trimmed.contains site = false := by
      rw [hs₁.clean'.trimmed]
      rfl
    rw [Declarator.eliminate_alive hdead htrim, defineVariable_changes] at hc
    obtain ⟨h₂, h₂', hN', hs₂⟩ := hi.still hs₁ hc
    have he' : ((Declarator.mk site target init).tidy R.stamp).eliminate s' = _ :=
      Declarator.eliminate_alive (hs.clean'.isDead site) htrim'
    rw [Declarator.eliminate_alive hdead htrim, he', h₁, h₁', h₂, h₂']
    exact ⟨rfl, rfl, ⟨hN, hN'⟩, hs₂.defineVariable hd⟩

/-! ### Removing declarations -/

end Rerun

namespace Elimination

/-- A declaration without declarators. -/
def declaresNothing : Stmt → Bool
  | .decl _ [] => true
  | _ => false

/-- What is known of the names of a program is a matter of its bindings and definitions. -/
theorem State.facts_congr {s t : State} (hi : t.info = s.info) (hd : t.definitions = s.definitions) :
    t.facts = s.facts := by
  have hc : t.isConstant = s.isConstant := by
    unfold State.isConstant
    rw [hi]
  have h (bound : Nat) : t.isPrimitive bound = s.isPrimitive bound := by
    induction bound with
    | zero => rfl
    | succ bound ih =>
      funext id
      simp only [State.isPrimitive, State.initializer?, State.origin?, State.definition?, ih, hc, hi, hd]
  rw [State.facts, State.facts, hc, h, hi]

theorem State.removesDeclarator_noting (s : State) (c : Bool) (d : Declarator) :
    (s.noting c).removesDeclarator d = s.removesDeclarator d := by
  have hf : (s.noting c).facts = s.facts := State.facts_congr rfl rfl
  match d with
  | .mk _ (.ident id) init =>
    simp only [removesDeclarator, isConstantInit, hf]
    rfl
  | .mk _ .hole _ | .mk _ (.array ..) _ | .mk _ (.object ..) _ => rfl

namespace State.Clean

variable {s : State}

theorem noting (h : s.Clean) (c : Bool) : (s.noting c).Clean := { h with }

theorem removeDeclarator (h : s.Clean) (d : Declarator) :
    (s.removesDeclarator d = false ∧ ∃ c, removeDeclarator d s = (false, s.noting c)) ∨
      s.removesDeclarator d = true ∧ (removeDeclarator d s).2.changes ≠ [] := by
  match d with
  | .mk site (.ident id) init =>
    cases hr : s.isRemovable (s.info.declaration? id) with
    | false =>
      refine .inl ⟨by rw [removesDeclarator, hr, Bool.false_and], s.circled, ?_⟩
      simp only [Elimination.removeDeclarator, run_bind, run_get, h.isDead, hr, Bool.false_eq_true, if_false,
        run_pure]
      rfl
    | true =>
      cases hc : s.isConstantInit init with
      | false =>
        refine .inl ⟨by rw [removesDeclarator, hc, Bool.and_false], (ask init s).2.circled, ?_⟩
        simp only [Elimination.removeDeclarator, run_bind, run_get, h.isDead, hr, hc, Bool.false_eq_true,
          if_false, if_true, run_pure]
        rfl
      | true =>
        refine .inr ⟨by rw [removesDeclarator, hr, hc]; rfl, ?_⟩
        simp only [Elimination.removeDeclarator, run_bind, run_get, h.isDead, hr, hc, Bool.false_eq_true,
          if_false, if_true, run_pure]
        exact List.cons_ne_nil _ _
  | .mk site .hole init | .mk site (.array ..) init | .mk site (.object ..) init =>
    exact .inl ⟨rfl, s.circled, congrArg (·, s) (h.isDead site)⟩

theorem removeDeclarators (h : s.Clean) (ds : List Declarator) :
    (ds.any s.removesDeclarator = false ∧ ∃ c, removeDeclarators ds s = (ds.isEmpty, s.noting c)) ∨
      ds.any s.removesDeclarator = true ∧ (removeDeclarators ds s).2.changes ≠ [] := by
  induction ds generalizing s with
  | nil => exact .inl ⟨rfl, s.circled, rfl⟩
  | cons d ds ih =>
    rcases h.removeDeclarator d with ⟨hd, c, he⟩ | ⟨hd, hc⟩
    · have ih := ih (h.noting c)
      simp only [funext (s.removesDeclarator_noting c)] at ih
      simp only [Elimination.removeDeclarators, run_bind, he, List.any_cons, hd, Bool.false_or]
      refine ih.imp (fun ih => ⟨ih.1, ?_⟩) fun ih => ih
      obtain ⟨c', he'⟩ := ih.2
      exact ⟨c', by rw [he']; rfl⟩
    · refine .inr ⟨by rw [List.any_cons, hd, Bool.true_or], fun hn => hc ?_⟩
      exact Rerun.changes_eq_nil (removeDeclarators_settles ds _).changes hn

/-- A declaration that is not to go is left alone. -/
theorem removeDeclaration (h : s.Clean) (t : Stmt) :
    (s.removes t = false ∧ ∃ c, removeDeclaration t s = (declaresNothing t, s.noting c)) ∨
      s.removes t = true ∧ (removeDeclaration t s).2.changes ≠ [] := by
  cases t with
  | func f =>
    cases hn : f.name with
    | none =>
      refine .inl ⟨by rw [removes, hn]; rfl, s.circled, ?_⟩
      simp only [Elimination.removeDeclaration, run_bind, run_get, hn, run_pure, declaresNothing]
      rfl
    | some id =>
      cases hr : s.isRemovable (s.info.declaration? id) with
      | false =>
        refine .inl ⟨by rw [removes, hn, Option.any_some, hr], s.circled, ?_⟩
        simp only [Elimination.removeDeclaration, run_bind, run_get, hn, hr, if_false, Bool.false_eq_true,
          run_pure, declaresNothing]
        rfl
      | true =>
        refine .inr ⟨by rw [removes, hn, Option.any_some, hr], ?_⟩
        simp only [Elimination.removeDeclaration, run_bind, run_get, hn, hr, if_true, run_pure]
        exact List.cons_ne_nil _ _
  | cls c =>
    cases hn : c.name with
    | none =>
      refine .inl ⟨by rw [removes, hn]; rfl, s.circled, ?_⟩
      simp only [Elimination.removeDeclaration, run_bind, run_get, hn, run_pure, declaresNothing]
      rfl
    | some id =>
      cases hr : !c.hasDecorators && s.isRemovable (s.info.declaration? id) && !c.mayHaveEffects with
      | false =>
        refine .inl ⟨by rw [removes, hn, Option.any_some, hr], s.circled, ?_⟩
        simp only [Elimination.removeDeclaration, run_bind, run_get, hn, hr, if_false, Bool.false_eq_true,
          run_pure, declaresNothing]
        rfl
      | true =>
        refine .inr ⟨by rw [removes, hn, Option.any_some, hr], ?_⟩
        simp only [Elimination.removeDeclaration, run_bind, run_get, hn, hr, if_true, run_pure]
        exact List.cons_ne_nil _ _
  | decl kind ds =>
    refine (h.removeDeclarators ds).imp (fun hd => ⟨hd.1, hd.2.imp fun c hc => hc.trans ?_⟩) fun hd => hd
    cases ds <;> rfl
  | _ => exact .inl ⟨rfl, s.circled, rfl⟩

end State.Clean

end Elimination

namespace Rerun

variable {R : Rerun} {s s' : State}

namespace Still

theorem removes_start (h : R.Still s s') (t : Stmt) : s'.removes t = R.start.removes t := by
  obtain ⟨c, rfl⟩ := h.later
  have hf : State.facts { R.start.noting c with listed := s.listed } = R.start.facts := State.facts_congr rfl rfl
  cases t with
  | decl kind ds =>
    refine congrArg ds.any (funext fun d => ?_)
    match d with
    | .mk _ (.ident _) init => simp only [State.removesDeclarator, State.isConstantInit, hf]; rfl
    | .mk _ .hole _ | .mk _ (.array ..) _ | .mk _ (.object ..) _ => rfl
  | _ => rfl

theorem isRemovable_start (h : R.Still s s') (i : Option BindingId) : s.isRemovable i = R.start.isRemovable i := by
  rw [← h.isRemovable]
  obtain ⟨c, rfl⟩ := h.later
  rfl

theorem declaration?_start (h : R.Still s s') (id : Ident) :
    R.start.info.declaration? (R.stamp id) = s.info.declaration? id := by
  rw [R.start_info, R.declaration?, h.info]

theorem removesDeclarator (h : R.Still s s') (d : Declarator) :
    R.start.removesDeclarator (d.tidy R.stamp) = s.removesDeclarator (d.tidy id) := by
  match d with
  | .mk _ (.ident id) init =>
    have hi := h.isConstantInit (e := Expr.tidyOpt (fun id => id) init) ⟨init, .inr rfl, rfl⟩
    have hs : s'.isConstantInit (Expr.tidyOpt R.stamp init) = R.start.isConstantInit (Expr.tidyOpt R.stamp init) := by
      obtain ⟨c, rfl⟩ := h.later
      have hf : State.facts { R.start.noting c with listed := s.listed } = R.start.facts := State.facts_congr rfl rfl
      simp only [State.isConstantInit, hf]
    rw [hs] at hi
    exact congrArg₂ (· && ·) ((congrArg _ (h.declaration?_start id)).trans (h.isRemovable_start _).symm) hi
  | .mk _ .hole _ | .mk _ (.array ..) _ | .mk _ (.object ..) _ => rfl

theorem anyRemovesDeclarator (h : R.Still s s') (ds : List Declarator) :
    (Declarator.tidyList R.stamp ds).any R.start.removesDeclarator =
      (Declarator.tidyList id ds).any s.removesDeclarator := by
  induction ds with
  | nil => rfl
  | cons d ds ih => exact congrArg₂ (· || ·) (h.removesDeclarator d) ih

theorem removes (h : R.Still s s') (t : Stmt) : R.start.removes (t.tidy R.stamp) = s.removes (t.tidy id) := by
  cases t with
  | func f =>
    cases f with
    | mk name params rest body async generator =>
      cases name with
      | none => rfl
      | some id => exact (congrArg _ (h.declaration?_start id)).trans (h.isRemovable_start _).symm
  | cls c =>
    have he := Class.tidy_mayHaveEffects R.alikeStamps c
    cases c with
    | mk name superclass body decorators =>
      cases name with
      | none => rfl
      | some id =>
        have hd : ((Class.mk (some id) superclass body decorators).tidy R.stamp).hasDecorators =
            ((Class.mk (some id) superclass body decorators).tidy fun id => id).hasDecorators := by
          cases decorators <;> rfl
        have hr := (congrArg _ (h.declaration?_start id)).trans (h.isRemovable_start _).symm
        exact congrArg₂ (· && ·) (congrArg₂ (!· && ·) hd hr) (congrArg (!·) he)
  | decl kind ds => exact h.anyRemovesDeclarator ds
  | _ => rfl

end Still

/-! ### Statements -/

end Rerun

/-- A statement in the place of many. -/
def Stmt.alone : Stmt → List Stmt
  | .empty => []
  | t => [t]

theorem asOne_alone (t : Stmt) : asOne t.alone = t := by cases t <;> rfl

theorem Stmt.alone_filter (t : Stmt) : (t.alone.filter fun t => !t.isEmpty) = if t.isEmpty then [] else [t] := by
  cases t with
  | block body => cases body <;> rfl
  | _ => rfl

theorem Stmt.tidy_isCompletion (f : Ident → Ident) (t : Stmt) : (t.tidy f).settle.isCompletion = t.isCompletion := by
  cases t with
  | decl kind ds => cases ds <;> rfl
  | _ => rfl

theorem Stmt.settle_of_declaresNothing {t : Stmt} (h : declaresNothing t = false) : t.settle = t := by
  cases t with
  | decl kind ds =>
    cases ds with
    | nil => cases h
    | cons d ds => rfl
  | _ => rfl

theorem Stmt.tidy_declaresNothing (f : Ident → Ident) (t : Stmt) : declaresNothing (t.tidy f) = declaresNothing t := by
  cases t with
  | decl kind ds => cases ds <;> rfl
  | _ => rfl

namespace Rerun

variable {R : Rerun} {s s' : State}

/-- What is known of a statement whose parts have been visited: the rules for an `if` come after that. -/
def NormalParts (R : Rerun) (t : Stmt) : Prop := (t.isCond = true → R.start.NormalStmt t) → t.fold R.start.normal

/-- An `if` whose test is not known and that has no empty branch beside another stays. -/
theorem foldIf_tidy (R : Rerun) (s' : State) {test : Expr} {yes : Stmt} {no : Option Stmt}
    (hc : (Elimination.foldIf (test.tidy id) (yes.tidy id).settle (Stmt.tidyOpt id no) s).2.changes = []) :
    Elimination.foldIf (test.tidy id) (yes.tidy id).settle (Stmt.tidyOpt id no) s =
        ([(Stmt.cond test yes no).tidy id], s) ∧
      Elimination.foldIf (test.tidy R.stamp) (yes.tidy R.stamp).settle (Stmt.tidyOpt R.stamp no) s' =
        ([(Stmt.cond test yes no).tidy R.stamp], s') ∧
      R.start.NormalStmt ((Stmt.cond test yes no).tidy R.stamp) := by
  have ht : (test.tidy R.stamp).truthy? = (test.tidy id).truthy? := Expr.tidy_truthy? R.alikeStamps test
  have hy : (yes.tidy R.stamp).settle.isEmpty = (yes.tidy id).settle.isEmpty := Stmt.tidy_isEmpty _ _ yes
  simp only [Elimination.foldIf, Stmt.tidy, State.NormalStmt, ht] at hc ⊢
  cases hb : (test.tidy id).truthy? with
  | some b =>
    rw [hb] at hc
    cases hc
  | none =>
    rw [hb] at hc
    cases no with
    | none => exact ⟨rfl, rfl, rfl, nofun⟩
    | some other =>
      have ho : (other.tidy R.stamp).settle.isEmpty = (other.tidy id).settle.isEmpty := Stmt.tidy_isEmpty _ _ other
      simp only [run_bind, Stmt.tidyOpt, Elimination.normalize, ho, hy] at hc ⊢
      cases heo : (other.tidy id).settle.isEmpty with
      | true =>
        simp only [heo] at hc
        cases hc
      | false =>
        cases hey : (yes.tidy id).settle.isEmpty with
        | true =>
          simp only [heo, hey] at hc
          cases hc
        | false =>
          refine ⟨rfl, rfl, trivial, ?_⟩
          rintro _ ⟨⟩
          exact ⟨ho.trans heo, rfl⟩

namespace Still

/-- A declaration that the first pass leaves alone is left alone by the second one. -/
theorem removeDeclaration (h : R.Still s s') {t : Stmt} (ht : R.start.removes t = false) :
    ∃ c, Elimination.removeDeclaration t s' = (declaresNothing t, s'.noting c) := by
  rcases h.clean'.removeDeclaration t with ⟨-, he⟩ | ⟨hr, -⟩
  · exact he
  · rw [h.removes_start, ht] at hr
    cases hr

theorem finish (h : R.Still s s') {t : Stmt} (ht : declaresNothing t = false)
    (hN : R.NormalParts (t.tidy R.stamp)) (hc : (Elimination.finish (t.tidy id) s).2.changes = []) :
    ∃ c c', Elimination.finish (t.tidy id) s = ((t.tidy id).alone, s.noting c) ∧
      Elimination.finish (t.tidy R.stamp) s' = ((t.tidy R.stamp).alone, s'.noting c') ∧
      (t.tidy R.stamp).fold R.start.normal ∧ R.start.removes (t.tidy R.stamp) = false := by
  rcases h.clean.removeDeclaration (t.tidy id) with ⟨hr, c, he⟩ | ⟨hr, hne⟩
  · have hr' := (h.removes t).trans hr
    obtain ⟨c', he'⟩ := h.removeDeclaration hr'
    refine ⟨c, c', ?_⟩
    rw [Stmt.tidy_declaresNothing, ht] at he he'
    simp only [Elimination.finish, run_bind, run_get, h.clean.renewStmt, h.clean'.renewStmt, he, he',
      Bool.false_eq_true, if_false] at hc ⊢
    cases t with
    | cond test yes no =>
      obtain ⟨h₁, h₂, hn⟩ := foldIf_tidy R (s'.noting c') hc
      exact ⟨h₁, h₂, hN fun _ => hn, hr'⟩
    | _ => exact ⟨rfl, rfl, hN fun hcond => absurd hcond Bool.false_ne_true, hr'⟩
  · refine absurd ?_ hne
    rcases finish_cases (t.tidy id) s with ⟨-, he⟩ | ⟨test, yes, no, hz, -⟩ | ⟨hz, -⟩ | ⟨-, he⟩
    · rwa [he, h.clean.renewStmt] at hc
    · rw [h.clean.renewStmt] at hz
      rw [hz] at hr
      cases hr
    · rw [h.clean.renewStmt] at hz
      rw [hz] at hr
      cases hr
    · rwa [he, h.clean.renewStmt] at hc

end Still

theorem reduce_changes {t : Stmt} {walk : Pass Stmt}
    (h : ∀ s, s.changes.length ≤ (walk s).2.changes.length) (s : State) :
    (removeDeclaration t s).2.changes.length ≤ (reduce t walk s).2.changes.length := by
  cases hr : (removeDeclaration t s).1 with
  | true => rw [reduce_gone hr]
  | false =>
    rw [reduce_kept hr]
    exact Nat.le_trans (h _) (Ledger.finish_settles _ _).changes

theorem reduce_empty (h : s.Clean) : reduce .empty Stmt.empty.eliminate s = ([], s) := by
  have hr : reduce .empty Stmt.empty.eliminate s = finish .empty s := reduce_kept rfl
  rw [hr]
  simp only [finish, run_bind, run_get, h.renewStmt]
  rfl

/-- What is said of a statement that the rules have been applied to. -/
def NormalAlone (R : Rerun) (t : Stmt) : Prop := t.fold R.start.normal ∧ R.start.removes t = false

namespace Repeats

variable {t : Stmt}

theorem reduce (h : Repeats R t.tidy (R.NormalParts (t.tidy R.stamp)) t.eliminate (t.tidy R.stamp).eliminate) :
    Repeats R (fun f => (t.tidy f).settle.alone) (R.NormalAlone (t.tidy R.stamp).settle)
      (Elimination.reduce t t.eliminate)
      (Elimination.reduce (t.tidy R.stamp).settle (t.tidy R.stamp).settle.eliminate) where
  grows s := Nat.le_trans (removeDeclaration_settles t s).changes (reduce_changes h.grows s)
  still {s s'} hs hc := by
    rcases hs.clean.removeDeclaration t with ⟨-, c, he⟩ | ⟨-, hne⟩
    · cases hn : declaresNothing t with
      | true =>
        rw [hn] at he
        have hr : Elimination.reduce t t.eliminate s = _ := reduce_gone (congrArg Prod.fst he)
        rw [hr, he]
        cases t with
        | decl kind ds =>
          cases ds with
          | nil =>
            have he' : Elimination.reduce .empty Stmt.empty.eliminate s' = ([], s') := reduce_empty hs.clean'
            refine ⟨rfl, congrArg Prod.fst he', ⟨⟨trivial, trivial⟩, rfl⟩, ?_⟩
            exact (congrArg Prod.snd he').symm ▸ hs.noting c s'.circled
          | cons d ds => cases hn
        | _ => cases hn
      | false =>
        rw [hn] at he
        have hr : Elimination.reduce t t.eliminate s = _ := reduce_kept (congrArg Prod.fst he)
        rw [he] at hr
        rw [hr] at hc ⊢
        have hwalk := changes_eq_nil (Ledger.finish_settles _ _).changes hc
        obtain ⟨h₁, h₂, hN, hs₁⟩ :=
          h.still (hs.noting c (Elimination.removeDeclaration (t.tidy R.stamp) s').2.circled) hwalk
        rw [h₁] at hc ⊢
        obtain ⟨b, b', hf, hf', hN, hrem⟩ := hs₁.finish hn hN hc
        have hn' (f : Ident → Ident) : declaresNothing (t.tidy f) = false := (t.tidy_declaresNothing f).trans hn
        obtain ⟨c', he'⟩ := hs.removeDeclaration hrem
        rw [hn'] at he'
        have hb : (Elimination.removeDeclaration (t.tidy R.stamp) s').2.circled = c' := by
          rw [he']
          rfl
        rw [hb] at h₂ hs₁ hf'
        have hr' : Elimination.reduce (t.tidy R.stamp) (t.tidy R.stamp).eliminate s' = _ :=
          reduce_kept (congrArg Prod.fst he')
        rw [he'] at hr'
        simp only [Stmt.settle_of_declaresNothing (hn' _), hf, hr', h₂, hf']
        exact ⟨trivial, trivial, ⟨hN, hrem⟩, hs₁.noting b b'⟩
    · exact absurd (changes_eq_nil (reduce_changes h.grows s) hc) hne

theorem slot (h : Repeats R t.tidy (R.NormalParts (t.tidy R.stamp)) t.eliminate (t.tidy R.stamp).eliminate) :
    Repeats R (fun f => (t.tidy f).settle) ((t.tidy R.stamp).settle.fold R.start.normal)
      (reduceSlot t t.eliminate) (reduceSlot (t.tidy R.stamp).settle (t.tidy R.stamp).settle.eliminate) := by
  have h := h.reduce.map asOne And.left
  simp only [asOne_alone] at h
  exact h

end Repeats

/-! ### Lists -/

namespace Still

theorem list (h : R.Still s s') (t : Stmt) :
    R.Still (Elimination.list t s).2 (Elimination.list (t.tidy R.stamp).settle s').2 := by
  have hsites (ds : List Declarator) :
      (Declarator.tidyList R.stamp ds).map Declarator.site = ds.map Declarator.site := by
    induction ds with
    | nil => rfl
    | cons d ds ih =>
      cases d
      exact congrArg (_ :: ·) ih
  cases t with
  | decl kind ds =>
    refine ⟨h.info, h.cyclic, h.definitions, { h.clean with }, ?_⟩
    obtain ⟨c, rfl⟩ := h.later
    refine ⟨c, ?_⟩
    cases ds with
    | nil => rfl
    | cons d ds => exact congrArg (fun sites => { R.start.noting c with listed := sites ++ s.listed }) (hsites (d :: ds))
  | _ => exact h

theorem isUsed_start (h : R.Still s s') (id : Ident) : R.start.isUsed (R.stamp id) = s.isUsed id := by
  rw [← h.isUsed]
  obtain ⟨c, rfl⟩ := h.later
  rfl

theorem bindsUsed_start (h : R.Still s s') (p : Pattern) : R.start.bindsUsed (p.tidy R.stamp) = s.bindsUsed p := by
  simp only [State.bindsUsed, Pattern.tidy_names, List.any_map]
  exact congrArg p.names.any (funext h.isUsed_start)

/-- A declarator that is never reached stays if the first pass leaves it alone. -/
theorem trimDeclarator (h : R.Still s s') {kind : DeclKind} {d : Declarator}
    (hc : (Elimination.trimDeclarator kind d s).2.changes = []) :
    Elimination.trimDeclarator kind d s = ((), s) ∧
      Elimination.trimDeclarator kind (d.tidy R.stamp) s' = ((), s') ∧ s.bindsUsed d.target = true := by
  have hk : s'.keepsUnreached kind (d.tidy R.stamp) = s.keepsUnreached kind d := by
    cases d with
    | mk site target init =>
      have hu : s'.bindsUsed (target.tidy R.stamp) = s.bindsUsed target := by
        rw [← h.bindsUsed_start]
        obtain ⟨c, rfl⟩ := h.later
        rfl
      simp only [State.keepsUnreached, Declarator.tidy, Declarator.target, Declarator.init, hu,
        Pattern.tidy_isIdent, Expr.tidyOpt_isSome]
  rcases h.clean.trimDeclarator kind d with ⟨hs, he⟩ | ⟨-, hne⟩
  · rcases h.clean'.trimDeclarator kind (d.tidy R.stamp) with ⟨-, he'⟩ | ⟨hs', -⟩
    · exact ⟨he, he', (Bool.and_eq_true_iff.1 hs).1⟩
    · rw [hk, hs] at hs'
      cases hs'
  · exact absurd hc hne

theorem forM_trimDeclarator (h : R.Still s s') {kind : DeclKind} {ds : List Declarator}
    (hc : (ds.forM (Elimination.trimDeclarator kind) s).2.changes = []) :
    (ds.forM (Elimination.trimDeclarator kind) s).2 = s ∧
      ((Declarator.tidyList R.stamp ds).forM (Elimination.trimDeclarator kind) s').2 = s' ∧
      ∀ d ∈ ds, s.bindsUsed d.target = true := by
  induction ds with
  | nil => exact ⟨rfl, rfl, nofun⟩
  | cons d ds ih =>
    obtain ⟨he, he', hu⟩ := h.trimDeclarator (changes_eq_nil (forM_trimDeclarator_changes kind ds _) hc)
    simp only [List.forM_eq_forM, List.forM_cons, run_bind, he, Declarator.tidyList, he'] at hc ⊢
    obtain ⟨h₁, h₂, hus⟩ := ih hc
    exact ⟨h₁, h₂, List.forall_mem_cons.2 ⟨hu, hus⟩⟩

end Still

/-- What is said of a statement of a list. -/
def NormalListed (R : Rerun) (past : Bool) (t : Stmt) : Prop :=
  t.fold R.start.normal ∧ R.start.removes t = false ∧ (past = true → t.isEmpty = false → R.start.outlives t = true)

theorem reduceListed_changes (past : Bool) {t : Stmt} {walk : Pass Stmt}
    (h : ∀ s, s.changes.length ≤ (walk s).2.changes.length) (s : State) :
    s.changes.length ≤ (reduceListed past t walk s).2.changes.length := by
  have hr (s : State) := Nat.le_trans (removeDeclaration_settles t s).changes (reduce_changes (t := t) h s)
  rcases reduceListed_cases past t walk s with
    ⟨-, he⟩ | ⟨-, he | he | ⟨-, he⟩ | he | ⟨kind, ds, -, -, he⟩ | ⟨-, he⟩⟩
  · rw [he]
  · rw [he, ← list_changes t s]
    exact hr _
  · rw [he]
    exact hr s
  · rw [he]
  · rw [he]
    exact h s
  · rw [he]
    exact Nat.le_trans (forM_trimDeclarator_changes kind ds s) (h _)
  · rw [he]
    exact (prune_spec t s).2.1.toSettles.changes

namespace Repeats

variable {t : Stmt}

theorem prune_changes (t : Stmt) (s : State) : (prune t s).2.changes ≠ [] := List.cons_ne_nil _ _

/-- A statement of a list that is reached. -/
theorem reached (h : Repeats R t.tidy (R.NormalParts (t.tidy R.stamp)) t.eliminate (t.tidy R.stamp).eliminate) :
    Repeats R (fun f => (t.tidy f).settle.alone) (R.NormalListed false (t.tidy R.stamp).settle)
      (Elimination.list t >>= fun _ => Elimination.reduce t t.eliminate)
      (Elimination.list (t.tidy R.stamp).settle >>= fun _ =>
        Elimination.reduce (t.tidy R.stamp).settle (t.tidy R.stamp).settle.eliminate) where
  grows s := list_changes t s ▸ h.reduce.grows _
  still hs hc := by
    obtain ⟨h₁, h₂, hN, hs⟩ := h.reduce.still (hs.list t) hc
    exact ⟨h₁, h₂, ⟨hN.1, hN.2, nofun⟩, hs⟩

/-- A declaration that is never reached stays if all of its declarators do. -/
theorem unreachedDecl {kind : DeclKind} {ds : List Declarator}
    (h : Repeats R (Stmt.decl kind ds).tidy (R.NormalParts ((Stmt.decl kind ds).tidy R.stamp))
      (Stmt.decl kind ds).eliminate ((Stmt.decl kind ds).tidy R.stamp).eliminate)
    (hs : R.Still s s') (hc : (reduceUnreached (.decl kind ds) (Stmt.decl kind ds).eliminate s).2.changes = []) :
    ∃ u u', reduceUnreached (.decl kind ds) (Stmt.decl kind ds).eliminate s = ([(Stmt.decl kind ds).tidy id], u) ∧
      reduceUnreached ((Stmt.decl kind ds).tidy R.stamp) ((Stmt.decl kind ds).tidy R.stamp).eliminate s' =
        ([(Stmt.decl kind ds).tidy R.stamp], u') ∧ R.Still u u' ∧
      ds ≠ [] ∧ R.NormalListed true ((Stmt.decl kind ds).tidy R.stamp) := by
  cases hu : ds.any fun d => !s.isDead d.site && s.bindsUsed d.target with
  | false =>
    have ht : trimDeclarators kind ds s = (false, s) := congrFun (if_neg (Bool.eq_false_iff.1 hu)) s
    simp only [reduceUnreached, run_bind, ht, Bool.false_eq_true, if_false] at hc
    exact absurd hc (prune_changes _ _)
  | true =>
    have ht : trimDeclarators kind ds s = (true, (ds.forM (trimDeclarator kind) s).2) := congrFun (if_pos hu) s
    simp only [reduceUnreached, run_bind, ht, if_true, run_pure] at hc ⊢
    obtain ⟨he, he', hall⟩ := hs.forM_trimDeclarator (changes_eq_nil (h.grows _) hc)
    rw [he] at hc ⊢
    obtain ⟨h₁, h₂, hN, hs₁⟩ := h.still hs hc
    have hused (d : Declarator) : R.start.bindsUsed (d.tidy R.stamp).target = s.bindsUsed d.target := by
      cases d
      exact hs.bindsUsed_start _
    have hlive : R.start.outlives ((Stmt.decl kind ds).tidy R.stamp) = true := by
      simp only [hs.clean.isDead, Bool.not_false, Bool.true_and] at hu
      obtain ⟨d, hd, hdu⟩ := List.any_eq_true.1 hu
      refine List.any_eq_true.2 ⟨d.tidy R.stamp, ?_, (hused d).trans hdu⟩
      rw [Declarator.tidyList_eq_map]
      exact List.mem_map_of_mem hd
    have hu' : ((Declarator.tidyList R.stamp ds).any fun d => !s'.isDead d.site && s'.bindsUsed d.target) = true := by
      simp only [hs.clean'.isDead, Bool.not_false, Bool.true_and]
      obtain ⟨c, rfl⟩ := hs.later
      exact hlive
    have ht' : trimDeclarators kind (Declarator.tidyList R.stamp ds) s' =
        (true, ((Declarator.tidyList R.stamp ds).forM (trimDeclarator kind) s').2) := congrFun (if_pos hu') s'
    refine ⟨_, _, by rw [h₁], ?_, hs₁, ?_, hN fun hcond => absurd hcond Bool.false_ne_true, ?_, fun _ _ => hlive⟩
    · simp only [Stmt.tidy, run_bind, ht', if_true, run_pure, he']
      exact congrArg (fun t => ([t], _)) h₂
    · rintro rfl
      cases hu
    · rw [Stmt.tidy, State.removes, Declarator.tidyList_eq_map, List.any_map, List.any_eq_false]
      intro d hd
      rw [Function.comp, State.removesDeclarator_of_bindsUsed ((hused d).trans (hall d hd))]
      exact Bool.false_ne_true

/-- A statement of a list that is never reached. -/
theorem unreached (h : Repeats R t.tidy (R.NormalParts (t.tidy R.stamp)) t.eliminate (t.tidy R.stamp).eliminate)
    (hs : R.Still s s') (hc : (reduceUnreached t t.eliminate s).2.changes = []) :
    (reduceUnreached t t.eliminate s).1 = (t.tidy id).settle.alone ∧
      (reduceUnreached (t.tidy R.stamp).settle (t.tidy R.stamp).settle.eliminate s').1 =
        (t.tidy R.stamp).settle.alone ∧ R.NormalListed true (t.tidy R.stamp).settle ∧
      R.Still (reduceUnreached t t.eliminate s).2
        (reduceUnreached (t.tidy R.stamp).settle (t.tidy R.stamp).settle.eliminate s').2 := by
  cases t with
  | func f =>
    obtain ⟨h₁, h₂, hN, hs⟩ := h.reduce.still hs hc
    exact ⟨h₁, h₂, ⟨hN.1, hN.2, fun _ _ => rfl⟩, hs⟩
  | empty => exact ⟨rfl, rfl, ⟨⟨trivial, trivial⟩, rfl, nofun⟩, hs⟩
  | decl kind ds =>
    obtain ⟨u, u', he, he', hs, hne, hN⟩ := unreachedDecl h hs hc
    cases ds with
    | nil => exact absurd rfl hne
    | cons d ds => exact ⟨congrArg Prod.fst he, congrArg Prod.fst he', hN, by rw [he]; exact he'.symm ▸ hs⟩
  | cls c =>
    have hname : (c.tidy R.stamp).name = c.name.map R.stamp := by cases c; rfl
    have hused : (c.tidy R.stamp).name.any R.start.isUsed = c.name.any s.isUsed := by
      rw [hname, Option.any_map]
      exact congrArg c.name.any (funext hs.isUsed_start)
    cases hu : c.name.any s.isUsed with
    | false =>
      have he : reduceUnreached (.cls c) (Stmt.cls c).eliminate s = prune (.cls c) s :=
        congrFun (if_neg (Bool.eq_false_iff.1 hu)) s
      rw [he] at hc
      exact absurd hc (prune_changes _ _)
    | true =>
      rw [hu] at hused
      have he : reduceUnreached (.cls c) (Stmt.cls c).eliminate s =
          ([((Stmt.cls c).eliminate s).1], ((Stmt.cls c).eliminate s).2) := congrFun (if_pos hu) s
      have hused' : (c.tidy R.stamp).name.any s'.isUsed = true := by
        obtain ⟨c, rfl⟩ := hs.later
        exact hused
      have he' : reduceUnreached (.cls (c.tidy R.stamp)) (Stmt.cls (c.tidy R.stamp)).eliminate s' =
          ([((Stmt.cls (c.tidy R.stamp)).eliminate s').1], ((Stmt.cls (c.tidy R.stamp)).eliminate s').2) :=
        congrFun (if_pos hused') s'
      rw [he] at hc
      obtain ⟨h₁, h₂, hN, hs₁⟩ := h.still hs hc
      have hrem : R.start.removes (.cls (c.tidy R.stamp)) = false := by
        rw [State.removes]
        cases hn : (c.tidy R.stamp).name with
        | none => rfl
        | some id =>
          rw [hn, Option.any_some] at hused
          rw [Option.any_some, State.isRemovable_of_isUsed hused, Bool.and_false, Bool.false_and]
      have hsettle (f : Ident → Ident) : ((Stmt.cls c).tidy f).settle = .cls (c.tidy f) := rfl
      simp only [hsettle, he, he']
      exact ⟨congrArg (fun t => [t]) h₁, congrArg (fun t => [t]) h₂,
        ⟨hN fun hcond => absurd hcond Bool.false_ne_true, hrem, fun _ _ => hused⟩, hs₁⟩
  | _ => exact absurd hc (prune_changes _ _)

theorem listed (past : Bool)
    (h : Repeats R t.tidy (R.NormalParts (t.tidy R.stamp)) t.eliminate (t.tidy R.stamp).eliminate) :
    Repeats R (fun f => (t.tidy f).settle.alone) (R.NormalListed past (t.tidy R.stamp).settle)
      (reduceListed past t t.eliminate)
      (reduceListed past (t.tidy R.stamp).settle (t.tidy R.stamp).settle.eliminate) where
  grows := reduceListed_changes past h.grows
  still {s s'} hs hc := by
    have halive {s : State} (hs : s.Clean) (t : Stmt) (walk : Pass Stmt) : reduceListed past t walk s =
        (if past then reduceUnreached t walk else do Elimination.list t; Elimination.reduce t walk) s :=
      congrFun (if_neg (Bool.eq_false_iff.1 (hs.isDeadStmt t))) s
    rw [halive hs.clean] at hc ⊢
    rw [halive hs.clean']
    cases past with
    | false => exact h.reached.still hs hc
    | true => exact h.unreached hs hc

/-- A statement that does nothing leaves the state as it is. -/
theorem reduceListed_idle {u : Stmt} (hu : u.isEmpty = true) (hs : s.Clean) {past : Bool}
    (hc : (reduceListed past u u.eliminate s).2.changes = []) : (reduceListed past u u.eliminate s).2 = s := by
  have halive : reduceListed past u u.eliminate s =
      (if past then reduceUnreached u u.eliminate else do Elimination.list u; Elimination.reduce u u.eliminate) s :=
    congrFun (if_neg (Bool.eq_false_iff.1 (hs.isDeadStmt u))) s
  rw [halive] at hc ⊢
  cases u with
  | empty =>
    cases past with
    | true => rfl
    | false => exact congrArg Prod.snd (reduce_empty hs)
  | block body =>
    cases body with
    | cons t ts => cases hu
    | nil =>
      cases past with
      | true => exact absurd hc (prune_changes _ _)
      | false =>
        have hr : Elimination.reduce (.block []) (Stmt.block []).eliminate s = finish (.block []) s := reduce_kept rfl
        show (Elimination.reduce (.block []) (Stmt.block []).eliminate s).2 = s
        rw [hr]
        simp only [finish, run_bind, run_get, hs.renewStmt]
        rfl
  | _ => cases hu

theorem cons (past : Bool) {ts : List Stmt}
    (h : Repeats R t.tidy (R.NormalParts (t.tidy R.stamp)) t.eliminate (t.tidy R.stamp).eliminate)
    (hts : ∀ past, Repeats R (Stmt.tidyList · ts)
      (Stmt.foldList R.start.normal (Stmt.tidyList R.stamp ts) ∧ R.start.NormalList past (Stmt.tidyList R.stamp ts))
      (Stmt.eliminateList past ts) (Stmt.eliminateList past (Stmt.tidyList R.stamp ts))) :
    Repeats R (Stmt.tidyList · (t :: ts))
      (Stmt.foldList R.start.normal (Stmt.tidyList R.stamp (t :: ts)) ∧
        R.start.NormalList past (Stmt.tidyList R.stamp (t :: ts)))
      (Stmt.eliminateList past (t :: ts)) (Stmt.eliminateList past (Stmt.tidyList R.stamp (t :: ts))) where
  grows s := Nat.le_trans ((h.listed past).grows s) ((hts _).grows _)
  still {s s'} hs hc := by
    have hempty : (t.tidy R.stamp).settle.isEmpty = (t.tidy id).settle.isEmpty := Stmt.tidy_isEmpty _ _ t
    obtain ⟨h₁, h₂, hN, hs₁⟩ := (h.listed past).still hs (changes_eq_nil ((hts _).grows _) hc)
    rw [Stmt.eliminateList] at hc ⊢
    simp only [run_bind, run_pure, h₁, Stmt.alone_filter] at hc ⊢
    cases he : (t.tidy id).settle.isEmpty with
    | true =>
      rw [he] at hempty
      have htidy (f : Ident → Ident) (hf : (t.tidy f).settle.isEmpty = true) :
          Stmt.tidyList f (t :: ts) = Stmt.tidyList f ts := by rw [Stmt.tidyList, if_pos hf]
      rw [reduceListed_idle hempty hs.clean' hs₁.clean'.changes] at hs₁
      simp only [he, if_true, List.any_nil, Bool.or_false, List.nil_append, htidy _ he, htidy _ hempty] at hc ⊢
      exact (hts past).still hs₁ hc
    | false =>
      rw [he] at hempty
      have htidy (f : Ident → Ident) (hf : (t.tidy f).settle.isEmpty = false) :
          Stmt.tidyList f (t :: ts) = (t.tidy f).settle :: Stmt.tidyList f ts := by
        rw [Stmt.tidyList, if_neg (Bool.eq_false_iff.1 hf)]
      simp only [he, Bool.false_eq_true, if_false, List.any_cons, List.any_nil, Bool.or_false,
        Stmt.tidy_isCompletion, htidy _ he, htidy _ hempty] at hc ⊢
      obtain ⟨h₃, h₄, hNs, hs₂⟩ := (hts (past || t.isCompletion)).still hs₁ hc
      rw [Stmt.eliminateList]
      simp only [run_bind, run_pure, h₂, Stmt.alone_filter, hempty, Bool.false_eq_true, if_false, List.any_cons,
        List.any_nil, Bool.or_false, Stmt.tidy_isCompletion, h₃, h₄]
      refine ⟨rfl, rfl, ⟨⟨hN.1, hNs.1⟩, ⟨hempty, hN.2.1, fun hp => hN.2.2 hp hempty⟩, ?_⟩, hs₂⟩
      rw [Stmt.tidy_isCompletion]
      exact hNs.2

end Repeats

end Rerun

end Deadwood
