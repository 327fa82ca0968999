import Deadwood.Elimination.Rules
import Deadwood.Proofs.Head

/-!
# What a rule does to the state of a pass

Every rule but inlining, trimming and the definition of what has been visited settles the state: it counts
references out, buries declarations and records changes, and leaves all else as it is.
-/

namespace Deadwood.Elimination

/-- The number of names that have been inlined. -/
def State.inlines (s : State) : Nat := s.changes.countP (·.rule = .inline)

/-- The search for what some name stands for leads around in a circle. -/
def State.IsCircular (s : State) : Prop := ∃ id, s.circles (s.info.bindings.size + 1) [] id = true

/-- Asking what is constant, counting references out, burying declarations and recording changes leads from `s`
to `t`. -/
structure State.Settles (s t : State) : Prop where
  scopes : t.info.scopes = s.info.scopes
  decls : t.info.decls = s.info.decls
  refs : t.info.refs = s.info.refs
  size : t.info.bindings.size = s.info.bindings.size
  bindings : ∀ {i c}, t.info.binding? i = some c →
    ∃ b n, s.info.binding? i = some b ∧ n ≤ b.references ∧ c = { b with references := n }
  cyclic : t.cyclic = s.cyclic
  definitions : t.definitions = s.definitions
  moved : t.moved = s.moved
  listed : t.listed = s.listed
  trimmed : t.trimmed = s.trimmed
  late : t.late = s.late
  circled : t.circled = true → s.circled = true ∨ s.IsCircular
  dead : s.dead ⊆ t.dead
  changes : s.changes.length ≤ t.changes.length
  inlines : t.inlines = s.inlines

namespace State.Settles

variable {s t u : State}

theorem refl (s : State) : s.Settles s where
  scopes := rfl
  decls := rfl
  refs := rfl
  size := rfl
  bindings h := ⟨_, _, h, Nat.le_refl _, rfl⟩
  cyclic := rfl
  definitions := rfl
  moved := rfl
  listed := rfl
  trimmed := rfl
  late := rfl
  circled := .inl
  dead := fun _ h => h
  changes := Nat.le_refl _
  inlines := rfl

theorem binding? (h : s.Settles t) (i : BindingId) : ∃ f : Binding → Binding,
    t.info.binding? i = (s.info.binding? i).map f ∧
      ∀ b, (f b).isConstant = b.isConstant ∧ (f b).isForward = b.isForward ∧ (f b).origin = b.origin := by
  cases hc : t.info.binding? i with
  | some c =>
    obtain ⟨b, n, hb, -, rfl⟩ := h.bindings hc
    exact ⟨fun b => { b with references := n }, by rw [hb]; rfl, fun _ => ⟨rfl, rfl, rfl⟩⟩
  | none =>
    have hb : s.info.binding? i = none := by
      rw [Info.binding?, Array.getElem?_eq_none_iff] at hc ⊢
      exact h.size ▸ hc
    exact ⟨fun b => b, by rw [hb]; rfl, fun _ => ⟨rfl, rfl, rfl⟩⟩

theorem isConstant (h : s.Settles t) (id : Ident) : t.isConstant id = s.isConstant id := by
  have hid : t.info.bindingOf? id = s.info.bindingOf? id := by
    unfold Info.bindingOf?
    rw [h.refs]
  unfold State.isConstant
  rw [hid]
  cases s.info.bindingOf? id with
  | none => rfl
  | some i =>
    obtain ⟨f, hf, he⟩ := h.binding? i
    rw [Option.bind_some, Option.bind_some, hf, Option.any_map]
    exact congrArg (Option.any · _) (funext fun b => by simp only [he b])

theorem origin? (h : s.Settles t) (id : Ident) : t.origin? id = s.origin? id := by
  have hid : t.info.bindingOf? id = s.info.bindingOf? id := by
    unfold Info.bindingOf?
    rw [h.refs]
  unfold State.origin?
  rw [hid]
  cases s.info.bindingOf? id with
  | none => rfl
  | some i =>
    obtain ⟨f, hf, he⟩ := h.binding? i
    rw [Option.bind_some, Option.bind_some, hf, Option.map_map]
    exact congrArg (Option.map · _) (funext fun b => (he b).2.2)

theorem initializer? (h : s.Settles t) (id : Ident) : t.initializer? id = s.initializer? id := by
  unfold State.initializer? State.definition?
  rw [h.origin?, h.definitions]

/-- What leads around in a circle is settled from the start. -/
theorem circles (h : s.Settles t) (bound : Nat) : t.circles bound = s.circles bound := by
  induction bound with
  | zero => rfl
  | succ bound ih =>
    funext path id
    simp only [State.circles, h.isConstant, h.origin?, h.initializer?, ih]

theorem isCircular (h : s.Settles t) (ht : t.IsCircular) : s.IsCircular := by
  obtain ⟨id, hid⟩ := ht
  rw [h.size, h.circles] at hid
  exact ⟨id, hid⟩

theorem trans (h : s.Settles t) (h' : t.Settles u) : s.Settles u where
  scopes := h'.scopes.trans h.scopes
  decls := h'.decls.trans h.decls
  refs := h'.refs.trans h.refs
  size := h'.size.trans h.size
  bindings hc := by
    obtain ⟨b, n, hb, hn, rfl⟩ := h'.bindings hc
    obtain ⟨a, k, ha, hk, rfl⟩ := h.bindings hb
    exact ⟨a, n, ha, Nat.le_trans hn hk, rfl⟩
  cyclic := h'.cyclic.trans h.cyclic
  definitions := h'.definitions.trans h.definitions
  moved := h'.moved.trans h.moved
  listed := h'.listed.trans h.listed
  trimmed := h'.trimmed.trans h.trimmed
  late := h'.late.trans h.late
  circled hu := (h'.circled hu).elim h.circled fun hu => .inr (h.isCircular hu)
  dead := fun _ hx => h'.dead (h.dead hx)
  changes := Nat.le_trans h.changes h'.changes
  inlines := h'.inlines.trans h.inlines

end State.Settles

namespace State

variable {s t : State}

/-- A state with a note if a search has led around in a circle. -/
def noting (s : State) (circled : Bool) : State := { s with circled }

/-! ### References -/

theorem binding?_modifyBinding (info : Info) (i j : BindingId) (f : Binding → Binding) :
    (info.modifyBinding i f).binding? j =
      if i = j then (info.binding? j).map f else info.binding? j := by
  simp only [Info.modifyBinding, Info.binding?, Array.getElem?_modify]

theorem releaseIdent_settles (s : State) (id : Ident) : s.Settles (s.releaseIdent id) := by
  unfold releaseIdent
  split
  · exact .refl s
  split
  · exact .refl s
  next i hi =>
    split
    · refine { Settles.refl s with size := Array.size_modify .., bindings := fun {j c} hc => ?_ }
      rw [binding?_modifyBinding] at hc
      split at hc
      · obtain ⟨b, hb, rfl⟩ := Option.map_eq_some_iff.1 hc
        exact ⟨b, _, hb, Nat.sub_le _ _, rfl⟩
      · exact ⟨c, _, hc, Nat.le_refl _, rfl⟩
    · exact .refl s

theorem releaseIdent_dead (s : State) (id : Ident) : (s.releaseIdent id).dead = s.dead := by
  unfold releaseIdent
  split
  · rfl
  split
  · rfl
  split <;> rfl

theorem releaseIdent_changes (s : State) (id : Ident) : (s.releaseIdent id).changes = s.changes := by
  unfold releaseIdent
  split
  · rfl
  split
  · rfl
  split <;> rfl

theorem releaseAll_settles (ids : List Ident) (s : State) : s.Settles (s.releaseAll ids) := by
  induction ids generalizing s with
  | nil => exact .refl s
  | cons id ids ih => exact (s.releaseIdent_settles id).trans (ih _)

@[simp] theorem releaseAll_dead (ids : List Ident) (s : State) : (s.releaseAll ids).dead = s.dead := by
  induction ids generalizing s with
  | nil => rfl
  | cons id ids ih => exact (ih _).trans (s.releaseIdent_dead id)

@[simp] theorem releaseAll_changes (ids : List Ident) (s : State) :
    (s.releaseAll ids).changes = s.changes := by
  induction ids generalizing s with
  | nil => rfl
  | cons id ids ih => exact (ih _).trans (s.releaseIdent_changes id)

/-! ### References that are counted out -/

/-- The number of references to a binding. -/
def references (s : State) (i : BindingId) : Nat := ((s.info.binding? i).map Binding.references).getD 0

/-- From `s` to `t` no more references are counted out than there are among the given identifiers. -/
def Releases (s t : State) (ids : List Ident) : Prop :=
  ∀ i, s.references i ≤ t.references i + ids.countP fun id => s.info.bindingOf? id = some i

theorem Releases.of_info (h : t.info = s.info) (ids : List Ident) : s.Releases t ids := fun i => by
  rw [references, references, h]
  exact Nat.le_add_right _ _

theorem Releases.trans {u : State} {ids ids' : List Ident} (h : s.Releases t ids) (hs : t.info.refs = s.info.refs)
    (h' : t.Releases u ids') : s.Releases u (ids ++ ids') := fun i => by
  have h₁ := h i
  have h₂ := h' i
  have hb : t.info.bindingOf? = s.info.bindingOf? := by
    funext id
    rw [Info.bindingOf?, Info.bindingOf?, hs]
  rw [hb] at h₂
  rw [List.countP_append]
  omega

theorem releaseIdent_releases (s : State) (id : Ident) : s.Releases (s.releaseIdent id) [id] := fun i => by
  rw [List.countP_singleton]
  unfold releaseIdent
  split
  · exact Nat.le_add_right _ _
  · split
    · exact Nat.le_add_right _ _
    · next j hj =>
      split
      · simp only [references, binding?_modifyBinding, hj, decide_eq_true_eq, Option.some.injEq]
        split
        · cases s.info.binding? i with
          | none => exact Nat.zero_le _
          | some b =>
            show b.references ≤ b.references - 1 + 1
            omega
        · exact Nat.le_refl _
      · exact Nat.le_add_right _ _

/-- Each identifier that is released counts for one reference at most. -/
theorem releaseAll_releases (ids : List Ident) (s : State) : s.Releases (s.releaseAll ids) ids := by
  induction ids generalizing s with
  | nil => exact .of_info rfl []
  | cons id ids ih => exact (s.releaseIdent_releases id).trans (s.releaseIdent_settles id).refs (ih _)

theorem liveIdents_congr (h : t.dead = s.dead) : t.liveIdents = s.liveIdents := by
  unfold liveIdents isDead
  rw [h]

theorem of_guard {p : Prop} [Decidable p] {u : Unit} (h : (guard p : Option Unit) = some u) : p := by
  unfold guard at h
  split at h
  · assumption
  · cases h

/-- What is checked of the value of a reference before anything is asked about it. -/
theorem candidate?_eq_some_iff {id : Ident} {i : BindingId} {b : Binding} {value : Expr} : s.candidate? id = some (i, b, value) ↔
    s.moved.contains id.site = false ∧ s.info.bindingOf? id = some i ∧ s.info.binding? i = some b ∧
      s.isInlinable i b = true ∧ s.valueOf? b = some value := by
  constructor
  · intro h
    obtain ⟨_, hm, h⟩ := Option.bind_eq_some_iff.1 h
    obtain ⟨j, hj, h⟩ := Option.bind_eq_some_iff.1 h
    obtain ⟨c, hc, h⟩ := Option.bind_eq_some_iff.1 h
    obtain ⟨_, hi, h⟩ := Option.bind_eq_some_iff.1 h
    obtain ⟨v, hv, h⟩ := Option.bind_eq_some_iff.1 h
    cases h
    have hm := of_guard hm
    rw [Bool.not_eq_true'] at hm
    exact ⟨hm, hj, hc, of_guard hi, hv⟩
  · rintro ⟨hm, hj, hc, hi, hv⟩
    have hguard {p : Prop} [Decidable p] (h : p) : (guard p : Option Unit) = some () := if_pos h
    refine Option.bind_eq_some_iff.2 ⟨(), hguard (by rw [hm]; rfl), ?_⟩
    refine Option.bind_eq_some_iff.2 ⟨i, hj, Option.bind_eq_some_iff.2 ⟨b, hc, ?_⟩⟩
    exact Option.bind_eq_some_iff.2 ⟨(), hguard hi, Option.bind_eq_some_iff.2 ⟨value, hv, rfl⟩⟩

theorem isReferenced_some (s : State) (i : BindingId) :
    s.isReferenced (some i) =
      ((s.info.binding? i).any Binding.isReferenced && !s.cyclic.contains i) := rfl

/-- A name that is not used does not come into use. -/
theorem Settles.isReferenced (h : s.Settles t) {i : Option BindingId} (hi : s.isReferenced i = false) :
    t.isReferenced i = false := by
  cases i with
  | none => rfl
  | some i =>
    rw [isReferenced_some, Bool.and_eq_false_iff] at hi ⊢
    rw [h.cyclic]
    refine hi.imp (fun hi => ?_) id
    cases hc : t.info.binding? i with
    | none => rfl
    | some c =>
      obtain ⟨b, n, hb, hn, rfl⟩ := h.bindings hc
      simp only [hb, Option.any_some, Binding.isReferenced, decide_eq_false_iff_not] at hi ⊢
      exact fun hn' => hi (Nat.lt_of_lt_of_le hn' hn)

/-- What may go is not used. -/
theorem isReferenced_of_isRemovable {i : Option BindingId} (h : s.isRemovable i = true) :
    s.isReferenced i = false := by
  cases i with
  | none => rfl
  | some i =>
    unfold State.isRemovable at h
    rw [isReferenced_some]
    cases hb : s.info.binding? i with
    | none => rfl
    | some b =>
      simp only [hb, Bool.and_eq_true, Bool.or_eq_true, Bool.not_eq_true'] at h
      rcases h.2 with hr | hc
      · rw [Option.any_some, hr, Bool.false_and]
      · rw [hc, Bool.not_true, Bool.and_false]

end State

/-- A statement is no function, and none of the names that it declares is used. -/
structure State.NeverUsed (s : State) (t : Stmt) : Prop where
  notFunc : ∀ f, t ≠ .func f
  decl : ∀ kind ds, t = .decl kind ds → (ds.any fun d => !s.isDead d.site && s.bindsUsed d.target) = false
  cls : ∀ c, t = .cls c → c.name.any s.isUsed = false

/-! ### Steps -/

section Steps

variable (s : State)

theorem record_settles {rule : Rule} (h : rule ≠ .inline) (name : Option String) :
    s.Settles (record rule name s).2 := by
  refine { State.Settles.refl s with changes := Nat.le_succ _, inlines := ?_ }
  exact List.countP_cons_of_neg (by simpa using h)

@[simp] theorem record_dead (rule : Rule) (name : Option String) : (record rule name s).2.dead = s.dead :=
  rfl

@[simp] theorem record_changes (rule : Rule) (name : Option String) :
    (record rule name s).2.changes = { rule, name } :: s.changes := rfl

theorem ask_settles (e : Option Expr) : s.Settles (ask e s).2 := by
  refine { State.Settles.refl s with circled := fun h => ?_ }
  rcases Bool.or_eq_true_iff.1 h with h | h
  · exact .inl h
  · cases e with
    | none => cases h
    | some e =>
      obtain ⟨id, -, hid⟩ := List.any_eq_true.1 h
      exact .inr ⟨id, hid⟩

theorem bury_settles (site : Site) : s.Settles (bury site s).2 :=
  { State.Settles.refl s with dead := fun _ h => List.mem_cons_of_mem _ h }

theorem releaseExpr_settles (e : Expr) : s.Settles (releaseExpr e s).2 := s.releaseAll_settles _

theorem releaseStmt_settles (t : Stmt) : s.Settles (releaseStmt t s).2 := s.releaseAll_settles _

theorem releaseOpt_settles (e : Option Expr) : s.Settles (releaseOpt e s).2 := by
  cases e with
  | none => exact .refl s
  | some e => exact releaseExpr_settles s e

theorem releaseExpr_releases (e : Expr) : s.Releases (releaseExpr e s).2 (e.fold s.liveIdents) :=
  s.releaseAll_releases _

theorem releaseStmt_releases (t : Stmt) : s.Releases (releaseStmt t s).2 (t.fold s.liveIdents) :=
  s.releaseAll_releases _

theorem releaseOpt_releases (e : Option Expr) : s.Releases (releaseOpt e s).2 (Expr.foldOpt s.liveIdents e) := by
  cases e with
  | none => exact .of_info rfl []
  | some e => exact releaseExpr_releases s e

@[simp] theorem releaseExpr_dead (e : Expr) : (releaseExpr e s).2.dead = s.dead := s.releaseAll_dead _

@[simp] theorem releaseExpr_changes (e : Expr) : (releaseExpr e s).2.changes = s.changes :=
  s.releaseAll_changes _

@[simp] theorem releaseStmt_dead (t : Stmt) : (releaseStmt t s).2.dead = s.dead := s.releaseAll_dead _

@[simp] theorem releaseStmt_changes (t : Stmt) : (releaseStmt t s).2.changes = s.changes :=
  s.releaseAll_changes _

@[simp] theorem releaseOpt_dead (e : Option Expr) : (releaseOpt e s).2.dead = s.dead := by
  cases e with
  | none => rfl
  | some e => exact releaseExpr_dead s e

@[simp] theorem releaseOpt_changes (e : Option Expr) : (releaseOpt e s).2.changes = s.changes := by
  cases e with
  | none => rfl
  | some e => exact releaseExpr_changes s e

end Steps

/-- One change is recorded, and nothing is buried. -/
structure State.Records (s t : State) : Prop extends s.Settles t where
  dead_eq : t.dead = s.dead
  changes_eq : t.changes.length = s.changes.length + 1

/-! ### Removing declarations -/

/-- A declarator is left as it is, or it is a name that is not used and is buried. -/
theorem removeDeclarator_cases (d : Declarator) (s : State) :
    (∃ b, removeDeclarator d s = (s.isDead d.site, s.noting b) ∧ s.Settles (s.noting b)) ∨
      ∃ site id init, d = .mk site (.ident id) init ∧ s.isDead site = false ∧ s.isUsed id = false ∧
        (removeDeclarator d s).1 = true ∧ s.Settles (removeDeclarator d s).2 ∧
        (removeDeclarator d s).2.dead = site :: s.dead ∧
        (removeDeclarator d s).2.changes.length = s.changes.length + 1 ∧
        s.Releases (removeDeclarator d s).2 (Expr.foldOpt s.liveIdents init) := by
  match d with
  | .mk site (.ident id) init =>
    cases hd : s.isDead site with
    | true => exact .inl ⟨_, (congrFun (if_pos hd) s).trans (congrArg (·, s) hd.symm), .refl s⟩
    | false =>
      cases hr : s.isRemovable (s.info.declaration? id) with
      | false =>
        refine .inl ⟨s.circled, ?_, .refl s⟩
        simp only [removeDeclarator, run_bind, run_get, hd, hr, if_false, Bool.false_eq_true, run_pure,
          Declarator.site]
        rfl
      | true =>
        cases hc : s.isConstantInit init with
        | false =>
          refine .inl ⟨(ask init s).2.circled, ?_, ask_settles s init⟩
          simp only [removeDeclarator, run_bind, run_get, hd, hr, hc, if_true, if_false, Bool.false_eq_true,
            run_pure, Declarator.site]
          rfl
        | true =>
          have he : removeDeclarator (.mk site (.ident id) init) s =
              (true, (record .remove id.name (bury site (releaseOpt init (ask init s).2).2).2).2) := by
            simp only [removeDeclarator, run_bind, run_get, hd, hr, hc, if_true, if_false,
              Bool.false_eq_true, run_pure]
          rw [he]
          refine .inr ⟨site, id, init, rfl, hd, State.isReferenced_of_isRemovable hr, rfl, ?_, ?_, ?_, ?_⟩
          · exact (((ask_settles s init).trans (releaseOpt_settles _ init)).trans (bury_settles _ site)).trans
              (record_settles _ (by decide) _)
          · exact congrArg (site :: ·) (releaseOpt_dead _ init)
          · exact congrArg (List.length · + 1) (releaseOpt_changes _ init)
          · exact releaseOpt_releases (ask init s).2 init
  | .mk site .hole _ | .mk site (.array ..) _ | .mk site (.object ..) _ => exact .inl ⟨_, rfl, .refl s⟩

theorem removeDeclarator_settles (d : Declarator) (s : State) :
    s.Settles (removeDeclarator d s).2 := by
  rcases removeDeclarator_cases d s with ⟨b, h, hs⟩ | ⟨_, _, _, _, _, _, _, h, _⟩
  · rw [h]
    exact hs
  · exact h

theorem removeDeclarators_settles (ds : List Declarator) (s : State) :
    s.Settles (removeDeclarators ds s).2 := by
  induction ds generalizing s with
  | nil => exact .refl s
  | cons d ds ih => exact (removeDeclarator_settles d s).trans (ih _)

/-- The name of a declaration of a function or class. -/
def declaredName : Stmt → Option Ident
  | .func f => f.name
  | .cls c => c.name
  | _ => none

/-- A declaration of variables loses those that are not used; one of a function or class may go. -/
theorem removeDeclaration_cases (t : Stmt) (s : State) :
    removeDeclaration t s = (false, s) ∨
      (∃ kind ds, t = .decl kind ds ∧ removeDeclaration t s = removeDeclarators ds s) ∨
      ((declaredName t).isSome ∧ (∀ id ∈ declaredName t, s.isUsed id = false) ∧ (removeDeclaration t s).1 = true ∧
        s.Records (removeDeclaration t s).2 ∧ s.Releases (removeDeclaration t s).2 (t.fold s.liveIdents)) := by
  have hdrop (t : Stmt) (name : Option String) :
      s.Records (record .remove name (releaseStmt t s).2).2 :=
    { (releaseStmt_settles s t).trans (record_settles _ (by decide) _) with
      dead_eq := releaseStmt_dead s t
      changes_eq := congrArg (List.length · + 1) (releaseStmt_changes s t) }
  match t with
  | .func f =>
    cases hn : f.name with
    | none => exact .inl (by simp only [removeDeclaration, run_bind, run_get, hn, run_pure])
    | some id =>
      cases hr : s.isRemovable (s.info.declaration? id) with
      | false => exact .inl (by simp only [removeDeclaration, run_bind, run_get, hn, hr, if_false,
          Bool.false_eq_true, run_pure])
      | true =>
        have he : removeDeclaration (.func f) s =
            (true, (record .remove id.name (releaseStmt (.func f) s).2).2) := by
          simp only [removeDeclaration, run_bind, run_get, hn, hr, if_true, run_pure]
        rw [he]
        refine .inr (.inr ⟨by rw [declaredName, hn]; rfl, fun j hj => ?_, rfl, hdrop (.func f) _,
          releaseStmt_releases s _⟩)
        cases hn.symm.trans hj
        exact State.isReferenced_of_isRemovable hr
  | .cls c =>
    cases hn : c.name with
    | none => exact .inl (by simp only [removeDeclaration, run_bind, run_get, hn, run_pure])
    | some id =>
      cases hr : !c.hasDecorators && s.isRemovable (s.info.declaration? id) && !c.mayHaveEffects with
      | false => exact .inl (by simp only [removeDeclaration, run_bind, run_get, hn, hr, if_false,
          Bool.false_eq_true, run_pure])
      | true =>
        have he : removeDeclaration (.cls c) s =
            (true, (record .remove id.name (releaseStmt (.cls c) s).2).2) := by
          simp only [removeDeclaration, run_bind, run_get, hn, hr, if_true, run_pure]
        rw [he]
        refine .inr (.inr ⟨by rw [declaredName, hn]; rfl, fun j hj => ?_, rfl, hdrop (.cls c) _,
          releaseStmt_releases s _⟩)
        cases hn.symm.trans hj
        simp only [Bool.and_eq_true] at hr
        exact State.isReferenced_of_isRemovable hr.1.2
  | .decl kind ds => exact .inr (.inl ⟨kind, ds, rfl, rfl⟩)
  | .empty | .debugger | .block _ | .expr _ | .cond .. | .ret _ | .throw _ | .brk _ | .cont _
  | .labelled .. | .while .. | .doWhile .. | .for .. | .forIn .. | .forOf .. | .switch ..
  | .tryCatch .. | .tryFinally .. | .importDecl .. | .exportDecl _ | .exportNames ..
  | .exportAll .. | .exportDefault _ | .exportDefaultExpr _ => exact .inl rfl

theorem removeDeclaration_settles (t : Stmt) (s : State) : s.Settles (removeDeclaration t s).2 := by
  rcases removeDeclaration_cases t s with h | ⟨kind, ds, _, h⟩ | ⟨_, _, _, h, _⟩
  · rw [h]
    exact .refl s
  · rw [h]
    exact removeDeclarators_settles ds s
  · exact h.toSettles

/-! ### Folding tests -/

/-- A conditional expression stays, or one of its branches takes its place. -/
theorem foldConditional_cases (role : OperandRole) (test yes no : Expr) (s : State) :
    foldConditional role test yes no s =
        (.cond (s.renewExpr test) (s.renewExpr yes) (s.renewExpr no), s) ∨
      ∃ keep drop, (keep = s.renewExpr yes ∧ drop = s.renewExpr no ∨ keep = s.renewExpr no ∧ drop = s.renewExpr yes) ∧
        ((foldConditional role test yes no s).1 = keep ∨
          (foldConditional role test yes no s).1 = .seq [.number 0 none, keep]) ∧
        s.Records (foldConditional role test yes no s).2 ∧
        s.Releases (foldConditional role test yes no s).2
          ((s.renewExpr test).fold s.liveIdents ++ drop.fold s.liveIdents) := by
  simp only [foldConditional, run_bind, run_get]
  cases (s.renewExpr test).truthy? with
  | none => exact .inl rfl
  | some b =>
    refine .inr ⟨if b then s.renewExpr yes else s.renewExpr no,
      if b then s.renewExpr no else s.renewExpr yes, ?_, ?_, ?_, ?_⟩
    · cases b
      · exact .inr ⟨rfl, rfl⟩
      · exact .inl ⟨rfl, rfl⟩
    · cases h : role.distinguishes (if b then s.renewExpr yes else s.renewExpr no) with
      | true => exact .inr (if_pos h)
      | false => exact .inl (if_neg (Bool.eq_false_iff.1 h))
    · refine { ((releaseExpr_settles s _).trans (releaseExpr_settles _ _)).trans
        (record_settles _ (by decide) _) with dead_eq := ?_, changes_eq := ?_ }
      · exact (releaseExpr_dead _ _).trans (releaseExpr_dead _ _)
      · exact congrArg (List.length · + 1)
          ((releaseExpr_changes _ _).trans (releaseExpr_changes _ _))
    · refine (releaseExpr_releases s _).trans (releaseExpr_settles s _).refs ?_
      rw [← State.liveIdents_congr (releaseExpr_dead s _)]
      exact releaseExpr_releases _ _

/-- An `if` keeps both branches, or loses an empty one. -/
theorem normalize_cases (test : Expr) (yes : Stmt) (no : Option Stmt) (s : State) :
    normalize test yes no s = (.cond test yes no, s) ∨
      ∃ other, no = some other ∧ s.Records (normalize test yes no s).2 ∧
        ((normalize test yes no s).1 = .cond test yes none ∨
          (normalize test yes no s).1 = .cond test.negate other none) := by
  have hrec : s.Records (record .normalize none s).2 :=
    { record_settles s (by decide) none with dead_eq := rfl, changes_eq := rfl }
  cases no with
  | none => exact .inl rfl
  | some other =>
    cases ho : other.isEmpty with
    | true =>
      simp only [normalize, ho, if_true]
      exact .inr ⟨other, rfl, hrec, .inl rfl⟩
    | false =>
      cases hy : yes.isEmpty with
      | true =>
        simp only [normalize, ho, hy, if_true, if_false, Bool.false_eq_true]
        exact .inr ⟨other, rfl, hrec, .inr rfl⟩
      | false =>
        simp only [normalize, ho, hy, if_false, Bool.false_eq_true]
        exact .inl rfl

theorem normalize_info (test : Expr) (yes : Stmt) (no : Option Stmt) (s : State) :
    (normalize test yes no s).2.info = s.info := by
  unfold normalize
  cases no with
  | none => rfl
  | some other =>
    dsimp only
    split
    · rfl
    · split <;> rfl

theorem dropBranch_spec (t : Option Stmt) (s : State) :
    ∃ u, dropBranch t s = ((t.map u.survivingVars).getD [], u) ∧ s.Settles u ∧ u.dead = s.dead ∧
      u.changes = s.changes ∧ s.Releases u (Stmt.foldOpt s.liveIdents t) := by
  cases t with
  | none => exact ⟨s, rfl, .refl s, rfl, rfl, .of_info rfl []⟩
  | some t =>
    exact ⟨_, rfl, releaseStmt_settles s t, releaseStmt_dead s t, releaseStmt_changes s t, releaseStmt_releases s t⟩

/-- An `if` is normalized, or becomes one of its branches, after the variables of the other one. -/
theorem foldIf_cases (test : Expr) (yes : Stmt) (no : Option Stmt) (s : State) :
    foldIf test yes no s = ([(normalize test yes no s).1], (normalize test yes no s).2) ∨
      ∃ keep drop u, (keep = some yes ∧ drop = no ∨ keep = no ∧ drop = some yes) ∧ s.Settles u ∧
        (foldIf test yes no s).1 =
          (drop.map u.survivingVars).getD [] ++ (keep.map branchStmts).getD [] ∧
        s.Records (foldIf test yes no s).2 ∧
        s.Releases (foldIf test yes no s).2 (test.fold s.liveIdents ++ Stmt.foldOpt s.liveIdents drop) := by
  have hfold (drop : Option Stmt) : ∃ u,
      dropBranch drop (releaseExpr test s).2 = ((drop.map u.survivingVars).getD [], u) ∧
        s.Settles u ∧ s.Records (record .fold none u).2 ∧
        s.Releases (record .fold none u).2 (test.fold s.liveIdents ++ Stmt.foldOpt s.liveIdents drop) := by
    obtain ⟨u, hu, hs, hd, hc, hr⟩ := dropBranch_spec drop (releaseExpr test s).2
    rw [State.liveIdents_congr (releaseExpr_dead s test)] at hr
    have hr := (releaseExpr_releases s test).trans (releaseExpr_settles s test).refs hr
    have hs := (releaseExpr_settles s test).trans hs
    refine ⟨u, hu, hs, { hs.trans (record_settles _ (by decide) _) with
      dead_eq := hd.trans (releaseExpr_dead s test), changes_eq := ?_ }, hr⟩
    exact congrArg (List.length · + 1) (hc.trans (releaseExpr_changes s test))
  unfold foldIf
  cases test.truthy? with
  | none => exact .inl rfl
  | some b =>
    cases b with
    | true =>
      obtain ⟨u, hu, hs, hr, hrel⟩ := hfold no
      simp only [run_bind, run_pure, if_true, hu]
      exact .inr ⟨some yes, no, u, .inl ⟨rfl, rfl⟩, hs, rfl, hr, hrel⟩
    | false =>
      obtain ⟨u, hu, hs, hr, hrel⟩ := hfold (some yes)
      simp only [run_bind, run_pure, Bool.false_eq_true, if_false, hu]
      exact .inr ⟨no, some yes, u, .inr ⟨rfl, rfl⟩, hs, rfl, hr, hrel⟩

/-! ### Pruning -/

/-- What is left of a statement that is never reached are its variables that are still used. -/
theorem prune_spec (t : Stmt) (s : State) :
    (prune t s).1 = (prune t s).2.survivingVars t ∧ s.Records (prune t s).2 ∧
      s.Releases (prune t s).2 (t.fold s.liveIdents) :=
  ⟨rfl, { (releaseStmt_settles s t).trans (record_settles _ (by decide) _) with
    dead_eq := releaseStmt_dead s t
    changes_eq := congrArg (List.length · + 1) (releaseStmt_changes s t) }, releaseStmt_releases s t⟩

/-! ### Statements -/

section Statements

variable {t : Stmt} {walk : Pass Stmt} {s : State}

theorem reduce_gone (h : (removeDeclaration t s).1 = true) :
    reduce t walk s = ([], (removeDeclaration t s).2) := by
  simp only [reduce, run_bind, h, if_true, run_pure]

theorem reduce_kept (h : (removeDeclaration t s).1 = false) :
    reduce t walk s =
      finish (walk (removeDeclaration t s).2).1 (walk (removeDeclaration t s).2).2 := by
  simp only [reduce, run_bind, h, Bool.false_eq_true, if_false]

/-- A statement whose parts have been visited is removed, folded, or stays if it is not empty. -/
theorem finish_cases (t : Stmt) (s : State) :
    (removeDeclaration (s.renewStmt t) s).1 = true ∧
        finish t s = ([], (removeDeclaration (s.renewStmt t) s).2) ∨
      (∃ test yes no, s.renewStmt t = .cond test yes no ∧ finish t s = foldIf test yes no s) ∨
      s.renewStmt t = .empty ∧ finish t s = ([], s) ∨
      (removeDeclaration (s.renewStmt t) s).1 = false ∧
        finish t s = ([s.renewStmt t], (removeDeclaration (s.renewStmt t) s).2) := by
  simp only [finish, run_bind, run_get]
  generalize s.renewStmt t = z
  cases hz : (removeDeclaration z s).1 with
  | true => exact .inl ⟨rfl, by simp only [if_true, run_pure]⟩
  | false =>
    simp only [Bool.false_eq_true, if_false]
    cases z with
    | cond test yes no => exact .inr (.inl ⟨test, yes, no, rfl, rfl⟩)
    | empty => exact .inr (.inr (.inl ⟨rfl, rfl⟩))
    | _ => exact .inr (.inr (.inr ⟨trivial, rfl⟩))

/-- What becomes of a statement of a list: a dead one stays as it is, one that is reached is reduced, and
one that is not is pruned, trimmed or, if it declares a function or class, visited all the same. -/
theorem reduceListed_cases (past : Bool) (t : Stmt) (walk : Pass Stmt) (s : State) :
    s.isDeadStmt t = true ∧ reduceListed past t walk s = ([t], s) ∨
      s.isDeadStmt t = false ∧
        (reduceListed past t walk s = reduce t walk (list t s).2 ∨
          reduceListed past t walk s = reduce t walk s ∨
          t = .empty ∧ reduceListed past t walk s = ([], s) ∨
          reduceListed past t walk s = ([(walk s).1], (walk s).2) ∨
          (∃ kind ds, t = .decl kind ds ∧
            (ds.any fun d => !s.isDead d.site && s.bindsUsed d.target) = true ∧
            reduceListed past t walk s =
              ([(walk (ds.forM (trimDeclarator kind) s).2).1],
                (walk (ds.forM (trimDeclarator kind) s).2).2)) ∨
          s.NeverUsed t ∧ reduceListed past t walk s = prune t s) := by
  cases hd : s.isDeadStmt t with
  | true => exact .inl ⟨rfl, congrFun (if_pos hd) s⟩
  | false =>
    refine .inr ⟨rfl, ?_⟩
    have hl : reduceListed past t walk s =
        (if past then reduceUnreached t walk else do list t; reduce t walk) s :=
      congrFun (if_neg (Bool.eq_false_iff.1 hd)) s
    rw [hl]
    cases past with
    | false => exact .inl rfl
    | true =>
      refine .inr ?_
      match t with
      | .func _ => exact .inl rfl
      | .empty => exact .inr (.inl ⟨rfl, rfl⟩)
      | .decl kind ds =>
        refine .inr (.inr (.inr ?_))
        cases hu : ds.any fun d => !s.isDead d.site && s.bindsUsed d.target with
        | true =>
          refine .inl ⟨kind, ds, rfl, hu, ?_⟩
          have ht : trimDeclarators kind ds s = (true, (ds.forM (trimDeclarator kind) s).2) :=
            congrFun (if_pos hu) s
          simp only [if_true, reduceUnreached, run_bind, ht, run_pure]
        | false =>
          refine .inr ⟨⟨nofun, ?_, nofun⟩, ?_⟩
          · rintro _ _ ⟨⟩
            exact hu
          · have ht : trimDeclarators kind ds s = (false, s) := congrFun (if_neg (by simp [hu])) s
            simp only [if_true, reduceUnreached, run_bind, ht, Bool.false_eq_true, if_false]
      | .cls c =>
        cases hu : c.name.any s.isUsed with
        | true => exact .inr (.inr (.inl (congrFun (if_pos hu) s)))
        | false =>
          refine .inr (.inr (.inr (.inr ⟨⟨nofun, nofun, ?_⟩, congrFun (if_neg (Bool.eq_false_iff.1 hu)) s⟩)))
          rintro _ ⟨⟩
          exact hu
      | .debugger | .block _ | .expr _ | .cond .. | .ret _ | .throw _ | .brk _ | .cont _
      | .labelled .. | .while .. | .doWhile .. | .for .. | .forIn .. | .forOf .. | .switch ..
      | .tryCatch .. | .tryFinally .. | .importDecl .. | .exportDecl _ | .exportNames ..
      | .exportAll .. | .exportDefault _ | .exportDefaultExpr _ =>
        exact .inr (.inr (.inr (.inr ⟨⟨nofun, nofun, nofun⟩, rfl⟩)))

end Statements

end Deadwood.Elimination
