import Deadwood.Proofs.Inlining

/-!
# Rules are paid for

Every change that a rule records takes at least as much from the cost of what it is about.  A statement
that is dropped pays for the variables that outlive it.
-/

namespace Deadwood

open Elimination

namespace Ledger

variable {L : Ledger} {a b c : Piece} {s t u : State} {σ : Site}

/-! ### Lists of declarators -/

section Lists

variable (kind : BindingKind) {ds : List Declarator} {d : Declarator}

theorem declarator_outer (d : Declarator) :
    (d.site, d.names.map Ident.site) ∈ (d.fold L.fold kind).outer := by
  have hb := d.fold_binders L kind
  cases d with
  | mk site target init =>
    have hb : ((target.fold L.fold kind).append (Expr.foldOpt L.fold init)).binders = _ := hb
    rw [← hb]
    exact List.mem_cons_self

theorem mem_outer (hd : d ∈ ds) :
    (d.site, d.names.map Ident.site) ∈ (Declarator.foldList L.fold kind ds).outer := by
  induction ds with
  | nil => cases hd
  | cons e ds ih =>
    rcases List.mem_cons.1 hd with rfl | hd
    · exact List.mem_append_left _ (declarator_outer kind d)
    · exact List.mem_append_right _ (ih hd)

theorem mem_contents (hd : d ∈ ds) :
    (d.site, if d.target.isName then some (.variable d.init) else none) ∈
      (Declarator.foldList L.fold kind ds).contents := by
  induction ds with
  | nil => cases hd
  | cons e ds ih =>
    rcases List.mem_cons.1 hd with rfl | hd
    · refine List.mem_append_left _ ?_
      cases d
      exact List.mem_cons_self
    · exact List.mem_append_right _ (ih hd)

theorem site_mem_keys (hd : d ∈ ds) : d.site ∈ (Declarator.foldList L.fold kind ds).keys :=
  Piece.mem_keys (mem_contents kind hd)

/-- What one declarator of a list saves, the list saves. -/
theorem foldList_saves {D D' R R' : List Site} {n : Nat} (hD : D ⊆ D') (hR : R ⊆ R') (hd : d ∈ ds)
    (h : (d.fold L.fold kind).cost.val D' R' + n ≤ (d.fold L.fold kind).cost.val D R) :
    (Declarator.foldList L.fold kind ds).cost.val D' R' + n ≤
      (Declarator.foldList L.fold kind ds).cost.val D R := by
  induction ds with
  | nil => cases hd
  | cons e ds ih =>
    show (e.fold L.fold kind).cost.val D' R' + (Declarator.foldList L.fold kind ds).cost.val D' R' + n ≤
      (e.fold L.fold kind).cost.val D R + (Declarator.foldList L.fold kind ds).cost.val D R
    rcases List.mem_cons.1 hd with rfl | hd
    · have := (Declarator.foldList L.fold kind ds).cost.antitone hD hR
      omega
    · have := ih hd
      have := (e.fold L.fold kind).cost.antitone hD hR
      omega

/-- What is declared costs something. -/
theorem unit_le_nameCost (L : Ledger) {target : Pattern} (h : target.isName = true) :
    L.tariff.unit ≤ L.tariff.nameCost target := by
  cases target with
  | ident id => exact Nat.le_add_right _ _
  | _ => cases h

/-- A declarator that is dead costs nothing, and one that is not costs something. -/
theorem declarator_buried (d : Declarator) {D R : List Site} (hd : d.site ∉ D) :
    (d.fold L.fold kind).cost.val (d.site :: D) R + L.tariff.unit ≤ (d.fold L.fold kind).cost.val D R := by
  cases d with
  | mk site target init =>
    have hz : ((Declarator.mk site target init).fold L.fold kind).cost.val (site :: D) R = 0 :=
      if_pos List.mem_cons_self
    have ho : L.tariff.unit ≤ ((Declarator.mk site target init).fold L.fold kind).cost.val D R :=
      Cost.unit_le_declarator L.unit_le_nameCost hd
    show ((Declarator.mk site target init).fold L.fold kind).cost.val (site :: D) R + L.tariff.unit ≤ _
    omega

end Lists

/-! ### Burying declarators -/

theorem Sound.bury {xs : List Site} (h : L.Sound s) (hs : s.Settles t) (hdead : t.dead = σ :: s.dead)
    (he : (σ, xs) ∈ L.entries) (hu : ∀ x ∈ xs, s.isUsedAt x = false)
    (hv : ∀ d, s.definition? σ = some d → d.isNamed = false) : L.Sound t := by
  refine h.settles hs fun τ hτ => ?_
  rw [hdead] at hτ
  rcases List.mem_cons.1 hτ with rfl | hτ
  · exact .inr ⟨_, he, rfl, fun x hx => hs.grows.isUsedAt (hu x hx), hv⟩
  · exact .inl hτ

/-- The declarators of a list are in the ledger. -/
structure Lists (L : Ledger) (ds : List Declarator) (s : State) : Prop where
  entries : ∀ d ∈ ds, (d.site, d.names.map Ident.site) ∈ L.entries
  unnamed : ∀ d ∈ ds, ∀ e, s.definition? d.site = some e → e.isNamed = false

theorem Lists.settles {ds : List Declarator} (h : L.Lists ds s) (hs : s.Settles t) : L.Lists ds t :=
  ⟨h.entries, fun d hd e he => h.unnamed d hd e (hs.definition? _ ▸ he)⟩

theorem removeDeclarator_sound {d : Declarator} (h : L.Sound s) (hl : L.Lists [d] s) :
    L.Sound (removeDeclarator d s).2 := by
  rcases removeDeclarator_cases d s with ⟨c, he, hs⟩ | ⟨site, id, init, rfl, hd, hu, -, hs, hdead, -⟩
  · rw [he]
    exact h.settles hs fun σ hσ => .inl hσ
  · have hmem := List.mem_singleton_self (Declarator.mk site (.ident id) init)
    refine h.bury hs hdead (hl.entries _ hmem) (fun x hx => ?_) (hl.unnamed _ hmem)
    rw [List.mem_singleton.1 hx]
    exact hu

theorem removeDeclarators_sound {ds : List Declarator} (h : L.Sound s) (hl : L.Lists ds s) :
    L.Sound (removeDeclarators ds s).2 := by
  induction ds generalizing s with
  | nil => exact h
  | cons d ds ih =>
    have hd : L.Lists [d] s :=
      ⟨fun e he => hl.entries e (List.mem_singleton.1 he ▸ List.mem_cons_self),
        fun e he => hl.unnamed e (List.mem_singleton.1 he ▸ List.mem_cons_self)⟩
    have hds : L.Lists ds s :=
      ⟨fun e he => hl.entries e (List.mem_cons_of_mem _ he),
        fun e he => hl.unnamed e (List.mem_cons_of_mem _ he)⟩
    exact ih (removeDeclarator_sound h hd) (hds.settles (removeDeclarator_settles d s))

theorem removeDeclarators_dead {ds : List Declarator} :
    ∀ τ ∈ (removeDeclarators ds s).2.dead, τ ∈ s.dead ∨ ∃ d ∈ ds, d.site = τ := by
  induction ds generalizing s with
  | nil => exact fun τ hτ => .inl hτ
  | cons d ds ih =>
    intro τ hτ
    rcases ih (s := (removeDeclarator d s).2) τ hτ with hτ | ⟨e, he, heτ⟩
    · rcases removeDeclarator_cases d s with ⟨c, h, -⟩ | ⟨site, id, init, rfl, -, -, -, -, hdead, -⟩
      · rw [h] at hτ
        exact .inl hτ
      · rw [hdead] at hτ
        rcases List.mem_cons.1 hτ with rfl | hτ
        · exact .inr ⟨_, List.mem_cons_self, rfl⟩
        · exact .inl hτ
    · exact .inr ⟨e, List.mem_cons_of_mem _ he, heτ⟩

theorem removeDeclarator_cost (kind : BindingKind) (d : Declarator) (R : List Site) :
    (d.fold L.fold kind).cost.val (removeDeclarator d s).2.dead R +
        L.spent (removeDeclarator d s).2 ≤
      (d.fold L.fold kind).cost.val s.dead R + L.spent s := by
  rcases removeDeclarator_cases d s with ⟨c, h, -⟩ | ⟨site, id, init, rfl, hd, -, -, -, hdead, hch, -⟩
  · rw [h]
    exact Nat.le_refl _
  · have hb : ((Declarator.mk site (.ident id) init).fold L.fold kind).cost.val (site :: s.dead) R +
        L.tariff.unit ≤ ((Declarator.mk site (.ident id) init).fold L.fold kind).cost.val s.dead R :=
      declarator_buried kind _ (State.isDead_eq_false_iff.1 hd)
    rw [hdead, L.spent_succ hch]
    omega

theorem removeDeclarators_cost (kind : BindingKind) (ds : List Declarator) (R : List Site) :
    (Declarator.foldList L.fold kind ds).cost.val (removeDeclarators ds s).2.dead R +
        L.spent (removeDeclarators ds s).2 ≤
      (Declarator.foldList L.fold kind ds).cost.val s.dead R + L.spent s := by
  induction ds generalizing s with
  | nil => exact Nat.le_refl _
  | cons d ds ih =>
    have h₁ := removeDeclarator_cost (L := L) (s := s) kind d R
    have h₂ := ih (s := (removeDeclarator d s).2)
    have h₃ := (d.fold L.fold kind).cost.antitone
      (removeDeclarators_settles ds (removeDeclarator d s).2).dead (List.Subset.refl R)
    have h₄ := (Declarator.foldList L.fold kind ds).cost.antitone
      (removeDeclarator_settles d s).dead (List.Subset.refl R)
    show (d.fold L.fold kind).cost.val (removeDeclarators ds (removeDeclarator d s).2).2.dead R +
      (Declarator.foldList L.fold kind ds).cost.val (removeDeclarators ds (removeDeclarator d s).2).2.dead R +
      L.spent (removeDeclarators ds (removeDeclarator d s).2).2 ≤
      (d.fold L.fold kind).cost.val s.dead R + (Declarator.foldList L.fold kind ds).cost.val s.dead R +
        L.spent s
    omega

theorem Ready.lists {kind : BindingKind} {ds : List Declarator}
    (h : L.Ready (Declarator.foldList L.fold kind ds) s) : L.Lists ds s where
  entries d hd := h.entries (Piece.outer_subset _ (mem_outer kind hd))
  unnamed d hd e he := by
    rcases h.contents _ (mem_contents kind hd) with hdef | ⟨-, hv, -⟩
    · rw [he] at hdef
      split at hdef
      · cases hdef
        rfl
      · cases hdef
    · rw [State.form?, he] at hv
      exact Option.some.inj hv

/-- The declarators of a statement that is ready are in the ledger. -/
theorem Ready.declarators {x : Stmt} (h : L.Ready (x.fold L.fold) s) : L.Lists x.declarators s := by
  cases x with
  | decl kind ds =>
    have h' : L.Ready (Declarator.foldList L.fold kind.bindingKind ds) s := { h with }
    exact h'.lists
  | _ => exact ⟨nofun, nofun⟩

theorem declarators_keys {x : Stmt} {d : Declarator} (hd : d ∈ x.declarators) :
    d.site ∈ (x.fold L.fold).keys := by
  cases x with
  | decl kind ds => exact site_mem_keys kind.bindingKind hd
  | _ => cases hd

theorem exists_site_eq {ds ds' : List Declarator} (hh : ds.map Declarator.head = ds'.map Declarator.head)
    {d' : Declarator} (hd' : d' ∈ ds') : ∃ d ∈ ds, d.site = d'.site := by
  have hmem : d'.head ∈ ds.map Declarator.head := hh ▸ List.mem_map_of_mem hd'
  obtain ⟨d, hd, he⟩ := List.mem_map.1 hmem
  have hs (d : Declarator) : d.head.site = d.site := by cases d; rfl
  exact ⟨d, hd, (hs d).symm.trans ((congrArg Declarator.site he).trans (hs d'))⟩

/-- Declarators that a visit has left are in the ledger as they were before. -/
theorem Done.lists {ds ds' : List Declarator} (kind : BindingKind) (hd : L.Done a s b t)
    (hl : L.Lists ds s) (hh : ds.map Declarator.head = ds'.map Declarator.head)
    (ho : (Declarator.foldList L.fold kind ds').outer ⊆ b.outer) : L.Lists ds' t := by
  constructor
  · intro d' hd'
    obtain ⟨d, hmem, he⟩ := exists_site_eq hh hd'
    refine (hd.outer _ (ho (mem_outer kind hd'))).resolve_right fun hz => ?_
    have hpos := L.pos _ (hl.entries d hmem)
    have hz : d'.site = 0 := hz
    rw [he, hz] at hpos
    exact Nat.lt_irrefl 0 hpos
  · intro d' hd' e he
    obtain ⟨d, hmem, hs⟩ := exists_site_eq hh hd'
    have hf := hd.forms d'.site (hs ▸ L.apart _ (hl.entries d hmem))
    rw [State.form?, he, ← hs] at hf
    obtain ⟨e', he', hn⟩ := Option.map_eq_some_iff.1 hf.symm
    exact hn ▸ hl.unnamed d hmem e' he'

/-! ### Removing declarations -/

theorem Sound.records (h : L.Sound s) (hr : s.Records t) : L.Sound t :=
  h.settles hr.toSettles fun _ hτ => .inl (hr.dead_eq ▸ hτ)

theorem unit_le_stmtCost (L : Ledger) (x : Stmt) : L.tariff.unit ≤ L.tariff.stmtCost x := by
  have hb : 1 ≤ x.bulk := by cases x <;> simp [Stmt.bulk]
  exact Nat.le_mul_of_pos_left _ hb

theorem declaredName_cost (L : Ledger) {x : Stmt} (hx : (declaredName x).isSome) :
    L.tariff.stmtCost x = 2 * L.tariff.unit := by
  cases x <;> first | rfl | cases hx

/-- The cost of a statement is that of its parts and its own. -/
theorem fold_stmt (x : Stmt) : ∃ a, x.fold L.fold = L.fold.stmt x a := by
  cases x <;> exact ⟨_, rfl⟩

theorem stmtCost_le (x : Stmt) (D R : List Site) : L.tariff.stmtCost x ≤ (x.fold L.fold).cost.val D R := by
  obtain ⟨a, ha⟩ := fold_stmt (L := L) x
  rw [ha]
  exact Nat.le_add_left _ _

theorem removeDeclaration_sound {x : Stmt} (h : L.Sound s) (hl : L.Lists x.declarators s) :
    L.Sound (removeDeclaration x s).2 := by
  rcases removeDeclaration_cases x s with he | ⟨kind, ds, rfl, he⟩ | ⟨-, -, -, hr, -⟩
  · rw [he]
    exact h
  · rw [he]
    exact removeDeclarators_sound h hl
  · exact h.records hr

theorem removeDeclaration_dead (x : Stmt) :
    ∀ τ ∈ (removeDeclaration x s).2.dead, τ ∈ s.dead ∨ ∃ d ∈ x.declarators, d.site = τ := by
  intro τ hτ
  rcases removeDeclaration_cases x s with he | ⟨kind, ds, rfl, he⟩ | ⟨-, -, -, hr, -⟩
  · rw [he] at hτ
    exact .inl hτ
  · rw [he] at hτ
    exact removeDeclarators_dead τ hτ
  · exact .inl (hr.dead_eq ▸ hτ)

theorem removeDeclaration_keys (x : Stmt) :
    ∀ τ ∈ (removeDeclaration x s).2.dead, τ ∈ s.dead ∨ τ ∈ (x.fold L.fold).keys := by
  intro τ hτ
  rcases removeDeclaration_dead x τ hτ with hτ | ⟨d, hd, rfl⟩
  · exact .inl hτ
  · exact .inr (declarators_keys hd)

/-- A statement that is left when its unused declarators are gone pays for them. -/
theorem kept_cost {x : Stmt} (R : List Site) (hx : (removeDeclaration x s).1 = false) :
    (x.fold L.fold).cost.val (removeDeclaration x s).2.dead R + L.spent (removeDeclaration x s).2 ≤
      (x.fold L.fold).cost.val s.dead R + L.spent s := by
  rcases removeDeclaration_cases x s with he | ⟨kind, ds, rfl, he⟩ | ⟨-, -, he, -⟩
  · rw [he]
  · have hc := removeDeclarators_cost (L := L) (s := s) kind.bindingKind ds R
    rw [he]
    show (Declarator.foldList L.fold kind.bindingKind ds).cost.val _ _ + 1 * L.tariff.unit + _ ≤
      (Declarator.foldList L.fold kind.bindingKind ds).cost.val _ _ + 1 * L.tariff.unit + _
    omega
  · rw [hx] at he
    cases he

/-- A statement that is removed pays for it, and for an empty one in its place. -/
theorem removed_cost {x : Stmt} (R : List Site) (hx : (removeDeclaration x s).1 = true) :
    L.tariff.unit + L.spent (removeDeclaration x s).2 ≤ (x.fold L.fold).cost.val s.dead R + L.spent s := by
  rcases removeDeclaration_cases x s with he | ⟨kind, ds, rfl, he⟩ | ⟨hn, -, -, hr, -⟩
  · rw [he] at hx
    cases hx
  · have hc := removeDeclarators_cost (L := L) (s := s) kind.bindingKind ds R
    rw [he]
    show _ ≤ (Declarator.foldList L.fold kind.bindingKind ds).cost.val _ _ + 1 * L.tariff.unit + _
    omega
  · have hb := stmtCost_le (L := L) x s.dead R
    rw [L.spent_succ hr.changes_eq]
    rw [L.declaredName_cost hn] at hb
    omega

/-- A step that only settles the state comes before a visit. -/
theorem Before.of_settles (hr : L.Ready a s) (hs : s.Settles t) (hsound : L.Sound t)
    (hdead : ∀ τ ∈ t.dead, τ ∈ s.dead ∨ τ ∈ a.keys)
    (hcost : a.cost.val t.dead s.trimmed + L.spent t ≤ a.cost.val s.dead s.trimmed + L.spent s) :
    L.Before a s t where
  ready :=
    { hsound with
      nodup := hr.nodup
      entries := hr.entries
      elems := hr.elems
      unboxed := hr.unboxed
      contents := fun c hc => by
        rw [hs.definition?, hs.trimmed]
        exact (hr.contents c hc).imp id fun ⟨hc, hv, hd⟩ =>
          ⟨hc, (hs.form? _).trans hv, hd.imp (@hs.dead c.1) id⟩ }
  dead := hdead
  definitions τ _ := hs.definition? τ
  forms := fun τ _ => hs.form? τ
  term τ := L.term_le (hs.definition? τ) hs.dead
  cost := hs.trimmed ▸ hcost

namespace Visit

theorem entered {x : Stmt} (hx : (removeDeclaration x s).1 = false)
    (h : L.Visit (x.fold L.fold) (removeDeclaration x s).2 b t) : L.Visit (x.fold L.fold) s b t := by
  have hs := removeDeclaration_settles x s
  refine h.before hs.grows fun hr _ => .of_settles hr hs ?_ (removeDeclaration_keys x) (kept_cost _ hx)
  exact removeDeclaration_sound hr.toSound hr.declarators

theorem removed {x : Stmt} (hx : (removeDeclaration x s).1 = true) :
    L.Visit (x.fold L.fold) s L.fold.empty (removeDeclaration x s).2 ∧
      L.Visit (x.fold L.fold) s (Stmt.empty.fold L.fold) (removeDeclaration x s).2 := by
  have hc := removed_cost (L := L) s.trimmed hx
  have hs := removeDeclaration_settles x s
  constructor
  · refine discard hs rfl rfl nofun fun hr _ => ⟨?_, removeDeclaration_keys x, ?_⟩
    · exact removeDeclaration_sound hr.toSound hr.declarators
    · show 0 + _ ≤ _
      omega
  · refine discard hs rfl rfl nofun fun hr _ => ⟨?_, removeDeclaration_keys x, ?_⟩
    · exact removeDeclaration_sound hr.toSound hr.declarators
    · show 0 + 1 * L.tariff.unit + _ ≤ _
      omega

/-- The declarators in the head of a loop are removed after they have been visited. -/
theorem loopHead (kind : BindingKind) {ds ds' : List Declarator}
    (hh : ds.map Declarator.head = ds'.map Declarator.head)
    (h : L.Visit (Declarator.foldList L.fold kind ds) s (Declarator.foldList L.fold kind ds') t) :
    L.Visit (Declarator.foldList L.fold kind ds) s (Declarator.foldList L.fold kind ds')
      (removeDeclarators ds' t).2 := by
  refine h.after (removeDeclarators_settles ds' t) fun hr hb hd => ?_
  have hl := hd.lists kind hr.lists hh (List.Subset.refl _)
  refine ⟨removeDeclarators_sound hd.sound hl, fun τ hτ => ?_, List.Subset.refl _, List.Subset.refl _,
    fun e he => .inl he, removeDeclarators_cost kind ds' []⟩
  rcases removeDeclarators_dead τ hτ with hτ | ⟨d, hmem, rfl⟩
  · exact .inl hτ
  · obtain ⟨e, he, hes⟩ := exists_site_eq hh hmem
    exact .inr (hes ▸ site_mem_keys kind he)

end Visit

/-! ### Folding conditional expressions -/

theorem After.of_same {K : List Site} (h : L.Sound t) (hs : b.Same c) : L.After K b t c t where
  sound := h
  dead _ hσ := .inl hσ
  refs := hs.refs ▸ List.Subset.refl _
  own := hs.own ▸ List.Subset.refl _
  outer _ he := .inl (hs.outer ▸ he)
  cost := by rw [hs.cost]

theorem foldConditional_settles (role : OperandRole) (test yes no : Expr) (s : State) :
    s.Settles (foldConditional role test yes no s).2 := by
  rcases foldConditional_cases role test yes no s with he | ⟨_, _, -, -, hr, -⟩
  · rw [he]
    exact .refl s
  · exact hr.toSettles

/-- A branch takes the place of a conditional expression, which pays for the change. -/
theorem Visit.conditional (role : OperandRole) {test yes no test' yes' no' : Expr}
    (h : L.Visit ((Expr.cond test yes no).fold L.fold) s ((Expr.cond test' yes' no').fold L.fold) t) :
    L.Visit ((Expr.cond test yes no).fold L.fold) s ((foldConditional role test' yes' no' t).1.fold L.fold)
      (foldConditional role test' yes' no' t).2 := by
  refine h.after (foldConditional_settles ..) fun hr hb hd => ?_
  have hk := hd.sound.knows (hb.of_grows (foldConditional_settles ..).grows)
  have hrem := renewal_removes hk
  rcases foldConditional_cases role test' yes' no' t with he | ⟨keep, _, hkeep, hres, hrec, -⟩
  · rw [he]
    refine .of_same hd.sound ?_
    exact hrem.expr (fun _ h => by cases h) (fun _ h => by cases h) rfl (hrem.append (renewExpr_same hk test')
      (hrem.append (renewExpr_same hk yes') (renewExpr_same hk no')))
  · have hb : L.After ((Expr.cond test yes no).fold L.fold).keys ((Expr.cond test' yes' no').fold L.fold) t
        (keep.fold L.fold) (foldConditional role test' yes' no' t).2 := by
      obtain ⟨branch, hbranch, hs⟩ : ∃ branch, (branch = yes' ∨ branch = no') ∧
          (branch.fold L.fold).Same (keep.fold L.fold) := by
        rcases hkeep with ⟨rfl, -⟩ | ⟨rfl, -⟩
        · exact ⟨yes', .inl rfl, renewExpr_same hk yes'⟩
        · exact ⟨no', .inr rfl, renewExpr_same hk no'⟩
      refine ⟨hd.sound.records hrec, fun τ hτ => .inl (hrec.dead_eq ▸ hτ), fun x hx => ?_, fun x hx => ?_,
        fun e he => ?_, ?_⟩
      · rw [← hs.refs] at hx
        refine List.mem_append_right _ (List.mem_append.2 ?_)
        rcases hbranch with rfl | rfl
        · exact .inl hx
        · exact .inr hx
      · rw [← hs.own] at hx
        refine List.mem_append_right _ (List.mem_append.2 ?_)
        rcases hbranch with rfl | rfl
        · exact .inl hx
        · exact .inr hx
      · rw [keep.fold_outer L] at he
        cases he
      · rw [← hs.cost, hrec.dead_eq, L.spent_succ hrec.changes_eq]
        show _ ≤ (test'.fold L.fold).cost.val _ _ + ((yes'.fold L.fold).cost.val _ _ +
          (no'.fold L.fold).cost.val _ _) + (1 * L.tariff.unit + L.tariff.expr _) + _
        rcases hbranch with rfl | rfl <;> omega
    rcases hres with hres | hres
    · rw [hres]
      exact hb
    · rw [hres]
      refine ⟨hb.sound, hb.dead, ?_, ?_, fun _ h => absurd h List.not_mem_nil, ?_⟩
      · show [] ++ ((keep.fold L.fold).refs ++ []) ⊆ _
        rw [List.append_nil]
        exact hb.refs
      · show [] ++ ((keep.fold L.fold).own ++ []) ⊆ _
        rw [List.append_nil]
        exact hb.own
      · show 0 + (0 * _ + L.tariff.expr (.number 0 none)) + ((keep.fold L.fold).cost.val _ _ + 0) +
          (0 * _ + L.tariff.expr (.seq [.number 0 none, keep])) + _ ≤ _
        rw [L.tariff.number, L.tariff.seq]
        have := hb.cost
        omega

end Ledger

end Deadwood
