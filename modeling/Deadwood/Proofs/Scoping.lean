import Deadwood.Proofs.Lodging

/-!
# Declarations are referred to in their rooms

Both walks of resolution leave rooms that stand apart.
-/

namespace Deadwood

open ScopeWalk

variable {i : Declares} {a b b' : Rooms} {s t u : Places}

/-- Walking on from a place, both walks leave a piece with the rooms `b`. -/
def Lodging (i : Declares) (_ : Rooms) (s : Places) (b : Rooms) (t : Places) : Prop :=
  (∀ σ, i.origin? = some (.declarator σ) → σ < s.1.decls.size) → Joined s → Joined t ∧ Lodged i b s t

theorem Lodging.inner (h : Lodging i a s b t) (hi : i.origin? = none) (hj : Joined s) : Joined t ∧ Lodged i b s t :=
  h (fun _ hσ => absurd (hi.symm.trans hσ) (Option.some_ne_none _).symm) hj

namespace Lodged

/-- A piece without rooms of its own. -/
theorem bare (ha : Hoist.Adds i s.1 t.1) (hr : Resolve.Refers b.sites b.exported s.2 t.2) (hv : b.vars = [])
    (hh : b.heads = []) (hf : b.fixed = []) (hl : b.loose = []) (hrooms : b.rooms = []) : Lodged i b s t where
  adds := ha
  refers := hr
  tops σ hσ := by
    rw [hv, hh, hf, hl] at hσ
    rcases hσ with h | h | h | h <;> cases h
  plain σ hσ := by
    rw [hv, hl] at hσ
    rcases hσ with h | h <;> cases h
  heads _ σ hσ := by
    rw [hh] at hσ
    cases hσ
  fixed σ hσ := by
    rw [hf] at hσ
    cases hσ
  rooms room hroom := by
    rw [hrooms] at hroom
    cases hroom

/-- A piece is left that begins with a step that leaves nothing. -/
theorem after (h : Lodged i b t u) (ha : Hoist.Adds i s.1 t.1) (hr : Resolve.Refers [] [] s.2 t.2) :
    Lodged i b s u where
  adds := ha.trans h.adds
  refers := hr.trans h.refers
  tops σ hσ := ⟨Nat.le_trans ha.decls (h.tops σ hσ).1, (h.tops σ hσ).2⟩
  plain := h.plain
  heads := h.heads
  fixed := h.fixed
  rooms room hroom := by
    obtain ⟨x, x', m, m', hw⟩ := h.rooms room hroom
    exact ⟨x, x', m, m', hw.earlier ha⟩

/-- What stands in a statement that is none of the names of a declarator from before. -/
theorem statements {c : Option Container} (h : Lodged i b s t)
    (hi : ∀ σ, i.origin? = some (.declarator σ) → s.1.Numbered t.1 σ) (hh : b.heads = []) :
    Lodged (.statements c) b s t :=
  { h with
    adds := h.adds.statements hi
    heads := fun _ σ hσ => by
      rw [hh] at hσ
      cases hσ }

theorem inScope {c : Option Container} {kind : ScopeKind} {opener : Opener} {s' : Places} (hi : i.Around c)
    (h : Lodged (.statements c) b
      (s.1.entering kind opener, { s.2 with entered := s.2.entered + 1, path := (s.2.entered + 1) :: s.2.path }) s') :
    Lodged i b s ({ s'.1 with path := s.1.path }, { s'.2 with path := s.2.path }) where
  adds := h.adds.inScope.weaken
  refers := h.refers.inScope
  tops := h.tops
  plain := h.plain
  heads he σ hσ j d hj ho := by
    rcases hi with rfl | rfl
    · cases he
    · exact h.heads he σ hσ hj ho
  fixed := h.fixed
  rooms room hroom := by
    obtain ⟨x, x', m, m', hw⟩ := h.rooms room hroom
    refine ⟨x, x', m, m', ⟨hw.sites, ⟨Nat.le_of_succ_le ?_, hw.scopes.2⟩, hw.tops, hw.inside, hw.refs⟩⟩
    simpa [Hoist.State.entering] using hw.scopes.1

end Lodged

theorem Joined.entering (h : Joined s) (kind : ScopeKind) (opener : Opener) :
    Joined (s.1.entering kind opener,
      { s.2 with entered := s.2.entered + 1, path := (s.2.entered + 1) :: s.2.path }) where
  entered := by simp [Hoist.State.entering, h.entered]
  path := by simp [Hoist.State.entering, h.entered, h.path]
  marks m hm := by
    have hsize : (s.1.entering kind opener).scopes.size = s.1.scopes.size + 1 := by simp [Hoist.State.entering]
    rw [hsize]
    rcases List.mem_cons.1 hm with rfl | hm
    · exact Nat.le_refl _
    · exact Nat.le_succ_of_le (h.marks m hm)
  origins := h.origins
  bound hj hd := by
    have hsize : (s.1.entering kind opener).scopes.size = s.1.scopes.size + 1 := by simp [Hoist.State.entering]
    rw [hsize]
    exact Nat.le_succ_of_le (h.bound hj hd)
  held := h.held

/-- Out of a scope again. -/
theorem Joined.leaving {s' : Places} (h : Joined s) (h' : Joined s') (hs : s.1.scopes.size ≤ s'.1.scopes.size) :
    Joined ({ s'.1 with path := s.1.path }, { s'.2 with path := s.2.path }) where
  entered := h'.entered
  path := h.path
  marks m hm := Nat.le_trans (h.marks m hm) hs
  origins := h'.origins
  bound := h'.bound
  held := h'.held

namespace Lodging

/-- A step that opens no scope. -/
theorem single (ha : Hoist.Adds i s.1 t.1) (hr : s.2.info.Held → Resolve.Refers b.sites b.exported s.2 t.2)
    (hs : t.1.scopes.size = s.1.scopes.size) (he : t.2.entered = s.2.entered) (hv : b.vars = [])
    (hh : b.heads = []) (hf : b.fixed = []) (hl : b.loose = []) (hrooms : b.rooms = []) :
    Lodging i a s b t := fun hi h =>
  ⟨h.lead ha (hr h.held) hi (he.trans (h.entered.trans hs.symm)), .bare ha (hr h.held) hv hh hf hl hrooms⟩

theorem append {a' : Rooms} (h : Lodging i a s b t) (h' : Lodging i a' t b' u) :
    Lodging i (a.append a') s (b.append b') u :=
  fun hi hs => by
    obtain ⟨ht, hb⟩ := h hi hs
    obtain ⟨hu, hb'⟩ := h' (fun σ hσ => Nat.lt_of_lt_of_le (hi σ hσ) hb.adds.decls) ht
    exact ⟨hu, hb.append hb' hs ht hi⟩

theorem mono (h : Lodging i a s b t) {a' : Rooms} (hs : b.sites ⊆ b'.sites) (he : b.exported ⊆ b'.exported)
    (hv : b'.vars ⊆ b.vars) (hh : b'.heads ⊆ b.heads) (hf : b'.fixed ⊆ b.fixed) (hl : b'.loose ⊆ b.loose)
    (hr : b'.rooms ⊆ b.rooms) : Lodging i a' s b' t := fun hi hj => ⟨(h hi hj).1, (h hi hj).2.mono hs he hv hh hf hl hr⟩

theorem swap {a' : Rooms} (h : Lodging i a' s b' t) (h' : Lodging i a t b u) :
    Lodging i (a.append a') s (b.append b') u := by
  have hsub {α : Type} (xs ys : List α) : xs ++ ys ⊆ ys ++ xs := fun x hx => by
    rw [List.mem_append] at hx ⊢
    exact hx.symm
  exact (h.append h').mono (hsub ..) (hsub ..) (hsub ..) (hsub ..) (hsub ..) (hsub ..) (hsub ..)

/-- What goes before a piece and leaves nothing. -/
theorem after {a' : Rooms} (h : Lodging i a t b u) (ha : Hoist.Adds i s.1 t.1)
    (hr : Resolve.Refers [] [] s.2 t.2) (hs : t.1.scopes.size = s.1.scopes.size) (he : t.2.entered = s.2.entered) :
    Lodging i a' s b u := fun hi hj => by
  have ht : Joined t := hj.lead ha hr hi (he.trans (hj.entered.trans hs.symm))
  obtain ⟨hu, hb⟩ := h (fun σ hσ => Nat.lt_of_lt_of_le (hi σ hσ) ha.decls) ht
  exact ⟨hu, hb.after ha hr⟩

/-- What goes after a piece and leaves nothing. -/
theorem before (h : Lodging i a s b t) (ha : Hoist.Adds i t.1 u.1) (hr : Resolve.Refers [] [] t.2 u.2)
    (hs : u.1.scopes.size = t.1.scopes.size) (he : u.2.entered = t.2.entered) : Lodging i a s b u := by
  have hstep : Lodging i a t .empty u := .single ha (fun _ => hr) hs he rfl rfl rfl rfl rfl
  refine (h.append hstep).mono ?_ ?_ ?_ ?_ ?_ ?_ ?_ <;> simp [Rooms.append, Rooms.empty]

end Lodging

theorem Resolve.refer_entered (writing : Bool) (id : Ident) (s : Resolve.State) :
    (Resolve.refer writing id s).2.entered = s.entered := by
  simp only [Resolve.refer, run_bind, run_get]
  cases s.info.lookupIn s.path id.name <;> rfl

theorem Resolve.exportName_entered (id : Ident) (s : Resolve.State) :
    (Resolve.exportName id s).2.entered = s.entered := by
  refine Eq.trans ?_ (Resolve.refer_entered false id s)
  simp only [Resolve.exportName, run_bind, run_pure]
  generalize Resolve.refer false id s = r
  simp only [modify, modifyGet, MonadStateOf.modifyGet, StateT.modifyGet]
  split <;> rfl

theorem Resolve.declare_entered (id : Ident) (s : Resolve.State) : (Resolve.declare id s).2.entered = s.entered := by
  simp only [Resolve.declare, run_bind, run_get]
  cases s.info.declaration? id <;> rfl

theorem Resolve.called_entered (id : Ident) (s : Resolve.State) : (Resolve.called id s).2.entered = s.entered := by
  show (if id.name = "eval" ∧ id.mark = 0 then _ else s).entered = _
  split <;> rfl

/-- Nothing is done by either walk. -/
theorem Resolve.Refers.refl (s : Resolve.State) : Resolve.Refers [] [] s s :=
  .still rfl rfl rfl (.refl _) (fun _ _ => rfl) rfl

theorem Hoist.Adds.still {s t : Hoist.State} (hp : t.path = s.path) (hs : t.scopes = s.scopes)
    (hd : t.decls.size = s.decls.size) (hb : t.bindings.size = s.bindings.size)
    (ho : Outlasts s.bindings t.bindings) : Hoist.Adds i s t where
  path := hp
  scopes := by rw [hs]
  decls := Nat.le_of_eq hd.symm
  outlasts := ho
  fresh hj hdj := absurd (Array.getElem?_eq_some_iff.1 hdj).1 (Nat.not_lt.2 (hb ▸ hj))

theorem Rooms.stmt_form (x : Stmt) (b : Rooms) : b.stmt x.form = b.stmt x := by
  cases x <;> rfl

/-- Statements leave rooms that stand apart. -/
theorem Lodging.stmt {c : Option Container} (x : Stmt) (h : Lodging (x.declares c) a s b t) :
    Lodging (.statements c) (a.stmt x) s (b.stmt x) t := by
  have hi : (x.declares c).origin? = none := x.declares_origin? c
  intro _ hj
  obtain ⟨ht, hb⟩ := h.inner hi hj
  refine ⟨ht, ?_⟩
  have hout {b' : Rooms} (hb' : Lodged (x.declares c) b' s t) (hh : b'.heads = []) : Lodged (.statements c) b' s t :=
    hb'.statements (fun _ hσ => absurd (hi.symm.trans hσ) (Option.some_ne_none _).symm) hh
  cases x with
  | exportDecl | exportDefault => exact hout (hb.fix rfl) rfl
  | decl | func | cls => exact hb
  | block | switch | tryCatch | tryFinally => exact hout (hb.close hj) rfl
  | _ => exact hout hb.shut rfl

theorem Rooms.all_exported (specs : List ExportSpec) :
    (Fold.rooms.all (fun e : ExportSpec => Fold.rooms.ident .exported e.source) specs).fixed = [] ∧
      (Fold.rooms.all (fun e : ExportSpec => Fold.rooms.ident .exported e.source) specs).vars = [] ∧
      (Fold.rooms.all (fun e : ExportSpec => Fold.rooms.ident .exported e.source) specs).loose = [] ∧
      (Fold.rooms.all (fun e : ExportSpec => Fold.rooms.ident .exported e.source) specs).rooms = [] := by
  induction specs with
  | nil => exact ⟨rfl, rfl, rfl, rfl⟩
  | cons e specs ih => exact ⟨ih.1, ih.2.1, ih.2.2.1, ih.2.2.2⟩

/-- A function or class that is declared in an export is exported. -/
theorem Hoist.declare_exported {inHead : Bool} {id : Ident} {kind : BindingKind} {origin : Site → Origin}
    {s : Hoist.State} (hs : ∀ {j : Nat} {d : Binding} {σ : Site},
      s.bindings[j]? = some d → d.origin.site? = some σ → σ < s.decls.size)
    (he : (s.containerFor kind).any Container.isExport = true) {j : Nat} {d : Binding}
    (hj : (Hoist.declare inHead id kind origin s).2.bindings[j]? = some d) (ho : d.origin.site? = some s.decls.size) :
    d.isExported = true := by
  obtain ⟨-, -, ⟨hsize, hout⟩ | ⟨b, hb, -, -, -, -, hexp⟩⟩ := Hoist.declare_bindings inHead id kind origin s
  · obtain ⟨c, hc, hst⟩ := hout.stays (hsize ▸ (Array.getElem?_eq_some_iff.1 hj).1) hj
    exact absurd (hs hc (hst.origin ▸ ho)) (Nat.lt_irrefl _)
  · rw [hb, Array.getElem?_push] at hj
    split at hj
    · cases hj
      exact hexp.trans he
    · exact absurd (hs hj ho) (Nat.lt_irrefl _)

/-- The name of a function or class is declared in a statement inside of `c`. -/
theorem Lodging.head (inHead : Bool) (c : Option Container) (id : Ident) (kind : BindingKind) (origin : Site → Origin)
    (s : Places) (ho : ∀ x, (origin x).site? = some x) (hv : kind ≠ .var)
    (hc : ∀ h : Hoist.State, h.containerFor kind = h.container) :
    Lodging (.statements c) a s
      { Rooms.empty with heads := [(fused.declare inHead id kind origin (fused.contain c s).2).1.site] }
      (fused.declare inHead id kind origin (fused.contain c s).2).2 := by
  intro hi hj
  have hsite : (fused.declare inHead id kind origin (fused.contain c s).2).1.site = s.1.decls.size :=
    (Resolve.declare_keeps _ s.2).1.trans (Hoist.declare_site inHead id kind origin { s.1 with container := c })
  have hdecls := Hoist.declare_decls inHead id kind origin { s.1 with container := c }
  obtain ⟨-, hsize, -⟩ := Hoist.declare_bindings inHead id kind origin { s.1 with container := c }
  have hnum : s.1.Numbered (fused.declare inHead id kind origin (fused.contain c s).2).2.1 s.1.decls.size :=
    ⟨Nat.le_refl _, Nat.lt_of_lt_of_eq (Nat.lt_succ_self _) hdecls.symm⟩
  have hadd : Hoist.Adds (.statements c) s.1 (fused.declare inHead id kind origin (fused.contain c s).2).2.1 := by
    refine Hoist.Adds.trans (t := { s.1 with container := c }) (.still rfl rfl rfl rfl (.refl _)) ?_
    refine Hoist.declare_adds inHead id kind origin { s.1 with container := c } (by simp) (fun σ hσ => .inl ?_) fun h =>
      absurd h hv
    obtain rfl : s.1.decls.size = σ := Option.some.inj ((ho _).symm.trans hσ)
    exact hnum
  have href : Resolve.Refers [] [] s.2 (fused.declare inHead id kind origin (fused.contain c s).2).2.2 :=
    Resolve.declare_refers _ s.2
  refine ⟨hj.lead hadd href hi ((Resolve.declare_entered _ s.2).trans (hj.entered.trans hsize.symm)),
    { adds := hadd, refers := href, tops := ?_, plain := by (rintro σ (hσ | hσ) <;> cases hσ), heads := ?_,
      fixed := List.forall_mem_nil _, rooms := List.forall_mem_nil _ }⟩
  · rintro σ (hσ | hσ | hσ | hσ)
    · cases hσ
    · rw [hsite] at hσ
      exact List.mem_singleton.1 hσ ▸ hnum
    · cases hσ
    · cases hσ
  · intro he σ hσ j d hjd hod
    rw [hsite] at hσ
    obtain rfl := List.mem_singleton.1 hσ
    refine Hoist.declare_exported (s := { s.1 with container := c }) hj.origins ?_ hjd hod
    rw [hc]
    exact he

/-- What is inside of a function or class is a room. -/
theorem Lodging.close {c : Option Container} (h : Lodging .nothing a s b t) :
    Lodging (.statements c) a s b.close t := fun _ hj => by
  obtain ⟨ht, hb⟩ := h.inner rfl hj
  exact ⟨ht, (hb.close hj).statements (fun _ hσ => absurd hσ (Option.some_ne_none _).symm) rfl⟩

/-- The initializer of a declarator is walked before its names, and nothing but these has it for its origin. -/
theorem Lodging.declarator {kind : BindingKind} {site : Site} {target target' : Pattern} {init init' : Option Expr}
    {c : Option Container}
    (h : Lodging .nothing (Expr.foldOpt Fold.rooms init) (fused.site site s).2 (Expr.foldOpt Fold.rooms init') t)
    (h' : Lodging (.names (.declarator (fused.site site s).1)) (target.fold Fold.rooms kind) t
      (target'.fold Fold.rooms kind) u) :
    Lodging (.statements c) ((Declarator.mk site target init).fold Fold.rooms kind) s
      ((Declarator.mk (fused.site site s).1 target' init').fold Fold.rooms kind) u := fun _ hj => by
  have hfresh : Joined (fused.site site s).2 :=
    hj.lead (i := .nothing) (Hoist.fresh_adds s.1) (.refl s.2)
      (fun _ hσ => absurd hσ (Option.some_ne_none _).symm) hj.entered
  have hsite (σ : Site) (hσ : some (Origin.declarator (fused.site site s).1) = some (.declarator σ)) :
      σ < (fused.site site s).2.1.decls.size := by
    cases hσ
    exact Nat.lt_of_lt_of_eq (Nat.lt_succ_self _) (Hoist.fresh_size s.1).symm
  obtain ⟨ht, hb⟩ := h.inner rfl hfresh
  obtain ⟨hu, hb'⟩ := h' (fun σ hσ => Nat.lt_of_lt_of_le (hsite σ hσ) hb.adds.decls) ht
  have hall := ((hb.weaken rfl).append hb' hfresh ht hsite).after (Hoist.fresh_adds s.1) (.refl s.2)
  have hnum : s.1.Numbered u.1 (fused.site site s).1 :=
    ⟨Nat.le_refl _, Nat.lt_of_lt_of_le (hsite _ rfl) (Nat.le_trans hb.adds.decls hb'.adds.decls)⟩
  -- What has the site for its origin is a name of the declarator.
  have hown {j : Nat} {d : Binding} (hjd : u.1.bindings[j]? = some d)
      (ho : d.origin.site? = some (fused.site site s).1) :
      d.origin = .declarator (fused.site site s).1 := by
    by_cases hlt : j < s.1.bindings.size
    · obtain ⟨c, hc, hst⟩ := hall.adds.outlasts.stays hlt hjd
      exact absurd (hj.origins hc (hst.origin ▸ ho)) (Nat.lt_irrefl _)
    · rcases (((hb.weaken rfl).append hb' hfresh ht hsite).adds.fresh (Nat.not_lt.1 hlt) hjd).source _ ho with hn | hd
      · exact absurd (Nat.lt_of_lt_of_le (hsite _ rfl) hn.1) (Nat.lt_irrefl _)
      · exact hd.2
  have hswap {α : Type} (xs ys : List α) : xs ++ ys ⊆ ys ++ xs := fun x hx => by
    rw [List.mem_append] at hx ⊢
    exact hx.symm
  have hpart : Lodged _ ((target'.fold Fold.rooms kind).append (Expr.foldOpt Fold.rooms init')) s u :=
    hall.mono (hswap ..) (hswap ..) (hswap ..) (hswap ..) (hswap ..) (hswap ..) (hswap ..)
  have hout := hpart.shut.statements (c := c) (fun σ hσ => by cases hσ; exact hnum) rfl
  refine ⟨hu, { hout with tops := fun σ hσ => ?_, plain := fun σ hσ j d hjd ho => ?_ }⟩
  · rcases hσ with hσ | hσ
    · exact List.mem_singleton.1 hσ ▸ hnum
    · exact hout.tops σ (.inr hσ)
  · refine hσ.elim (fun hσ => ?_) fun hσ => hout.plain σ (.inr hσ) hjd ho
    cases List.mem_singleton.1 hσ
    exact hown hjd ho

/-- Both walks leave rooms that stand apart. -/
theorem lodging_walks : Walks fused Fold.rooms Fold.rooms Lodging where
  empty _ h := ⟨h, .refl _⟩
  append h h' := h.append h'
  swap h h' := h.swap h'
  assoc h := by
    refine h.mono ?_ ?_ ?_ ?_ ?_ ?_ ?_ <;> simp [Fold.rooms, Rooms.append]
  weaken hi h _ hj := by
    obtain ⟨ht, hb⟩ := h.inner rfl hj
    exact ⟨ht, hb.weaken hi⟩
  literal {o a b s t} ho h _ hj := by
    have hno (σ : Site) : some o = some (.declarator σ) → False := by
      rintro ⟨⟩
      cases ho
    obtain ⟨ht, hb⟩ := h (fun σ hσ => (hno σ hσ).elim) hj
    exact ⟨ht, { hb with
      adds := hb.adds.statements fun σ hσ => (hno σ hσ).elim
      heads := fun he => absurd he Bool.false_ne_true }⟩
  hole _ h := ⟨h, .refl _⟩
  label _ _ h := ⟨h, .refl _⟩
  propertyName _ _ h := ⟨h, .refl _⟩
  refer w id s := by
    have hsite : (fused.refer w id s).1.site = (Hoist.number id s.1).1.site := Resolve.refer_site w _ s.2
    refine .single (Hoist.fresh_adds s.1) (fun hs => ?_) rfl (Resolve.refer_entered w _ s.2) rfl rfl rfl rfl rfl
    show Resolve.Refers [(fused.refer w id s).1.site] [] _ _
    rw [hsite]
    exact Resolve.refer_refers w _ hs
  declare inHead id kind origin s hk := by
    obtain ⟨-, hsize, -⟩ := Hoist.declare_bindings inHead id kind (fun _ => origin) s.1
    refine .single (Hoist.declare_adds inHead id kind (fun _ => origin) s.1 (by simp) (fun σ hσ => ?_) fun _ =>
      hk.2.resolve_left)
      (fun _ => Resolve.declare_refers _ s.2) hsize (Resolve.declare_entered _ s.2) rfl rfl rfl rfl rfl
    obtain ⟨τ, rfl⟩ := hk.2.resolve_left fun hno => Option.some_ne_none σ (hσ.symm.trans hno)
    cases hσ
    exact .inr ⟨rfl, rfl⟩
  exportName id s := by
    have hsite : (fused.exportName id s).1.site = (Hoist.number id s.1).1.site := Resolve.exportName_site _ s.2
    refine .single (Hoist.fresh_adds s.1) (fun hs => ?_) rfl (Resolve.exportName_entered _ s.2) rfl rfl rfl rfl rfl
    show Resolve.Refers [] [(fused.exportName id s).1.site] _ _
    rw [hsite]
    exact Resolve.exportName_refers _ hs
  exportDeclared ids h := by
    obtain ⟨hp, hs, hb, ho⟩ := Hoist.exportDeclared_outlasts ids _
    exact h.before (.still hp hs (Hoist.exportDeclared_decls ids _) hb ho) (.refl _) (congrArg Array.size hs) rfl
  contain c h := h.after (.still rfl rfl rfl rfl (.refl _)) (.refl _) rfl rfl
  called id h := h.before (.still rfl rfl rfl rfl (.refl _))
    (Resolve.called_refers id _) rfl (Resolve.called_entered id _)
  inScope hi act k kind opener h s := fun _ hj => by
    obtain ⟨ht, hb⟩ := (h _).inner rfl (hj.entering kind opener)
    have hin := Lodged.inScope hi hb
    exact ⟨hj.leaving ht hin.adds.scopes, hin⟩
  straddle {γ a b c b' r} act k l kind opener h s hb := by
    have hac : Lodging .nothing (a.append c) s _ (fused.inScope kind opener act s).2 := fun _ hj => by
      obtain ⟨t, ha, hc⟩ := h (s.1.entering kind opener,
        { s.2 with entered := s.2.entered + 1, path := (s.2.entered + 1) :: s.2.path })
      obtain ⟨ht, hb⟩ := (ha.append hc).inner rfl (hj.entering kind opener)
      have hin := Lodged.inScope (.inl rfl) hb
      exact ⟨hj.leaving ht hin.adds.scopes, hin⟩
    refine (hb.append hac).mono ?_ ?_ ?_ ?_ ?_ ?_ ?_
    all_goals
      intro x hx
      simp only [Fold.rooms, Rooms.append, List.mem_append] at hx ⊢
      tauto
  scope_map f act _ _ := rfl
  expr _ h _ hj := by
    obtain ⟨ht, hb⟩ := h.inner rfl hj
    exact ⟨ht, hb.close hj⟩
  stmt {c x x' a b s t} hx _ h := by
    show Lodging _ (a.stmt x) s (b.stmt x') t
    rw [← Rooms.stmt_form x', ← hx, Rooms.stmt_form]
    exact .stmt x h
  foreign specs source s _ h := by
    obtain ⟨hf, hv, hl, hr⟩ := Rooms.all_exported specs
    exact ⟨h, .bare (.refl _) ((Resolve.Refers.refl s.2).mono (List.nil_subset _) (List.nil_subset _)) rfl rfl hf
      (List.append_eq_nil_iff.2 ⟨hv, hl⟩) hr⟩
  property _ h := h
  element {o a b site target target' init init' s t} _ _ h := by
    have hb : Lodging _ a s b t := h.after (Hoist.fresh_adds s.1) (.refl s.2) rfl rfl
    exact fun hi hj => ⟨(hb hi hj).1, (hb hi hj).2.shut⟩
  declarator _ _ h h' := .declarator h h'
  func {f f' a b s t c} hf hf' h := by
    show Lodging _ _ s (Rooms.named f'.name (Rooms.empty.append b)) t
    rw [hf']
    exact Lodging.close (a := a) h
  funcNamed inHead c id f f' a b s t hf hf' h := by
    have hhead := Lodging.head (a := a) inHead c id .func .func s (fun _ => rfl) (by decide) fun _ => rfl
    show Lodging _ _ s (Rooms.named f'.name _) t
    rw [hf']
    exact (hhead.append h.close).mono (fun _ h => h) (fun _ h => h) (fun _ h => h) (fun _ h => h) (fun _ h => h)
      (fun _ h => h) fun _ h => h
  cls {i c c' a b a' b' s t u} hc hn hn' h h' := by
    show Lodging _ _ s (Rooms.named c'.name (a'.append (Rooms.empty.append b'))) t
    rw [hn']
    exact Lodging.close (h.append h')
  clsNamed inHead container id c c' a b a' b' s t u hc hn hn' h h' := by
    have hhead := Lodging.head (a := a) inHead container id .cls .cls t (fun _ => rfl) (by decide) fun _ => rfl
    show Lodging _ _ s (Rooms.named c'.name _) _
    rw [hn']
    have hall := (Lodging.close (c := container) (h.append h')).append hhead
    refine hall.mono ?_ ?_ ?_ ?_ ?_ ?_ ?_ <;> simp [Rooms.append, Rooms.close, Rooms.named, Rooms.empty, Fold.rooms]

/-! ### The names of scopes -/

namespace Hoist

/-- What a scope names is a binding that is held by it, or by none where no scope is around. -/
def State.Held (s : State) : Prop := ∀ m sc, s.scopes[m]? = some sc → ∀ p ∈ sc.names,
  ∃ d, s.bindings[p.2]? = some d ∧ (d.scope = m + 1 ∨ d.scope = 0)

theorem State.Held.info {s : State} (h : s.Held) : s.info.Held := by
  intro m n j hj
  obtain ⟨sc, hsc, hn⟩ := Option.bind_eq_some_iff.1 hj
  obtain ⟨_, _, hnames, -⟩ := List.lookup_eq_some_iff.1 hn
  unfold Info.scope? at hsc
  split at hsc
  · cases hsc
  next hm =>
    obtain ⟨d, hd, hs⟩ := h (m - 1) sc hsc (n, j) (by simp [hnames])
    refine ⟨d, hd, hs.imp (fun hs => hs.trans ?_) id⟩
    exact Nat.sub_add_cancel (Nat.one_le_iff_ne_zero.2 hm)

/-- Bindings stay where they are, and no scope gets another name. -/
theorem State.Held.congr {s t : State} (h : s.Held) (hs : t.scopes = s.scopes) (hb : t.bindings.size = s.bindings.size)
    (ho : Outlasts s.bindings t.bindings) : t.Held := by
  intro m sc hsc p hp
  obtain ⟨b, hb', hbs⟩ := h m sc (hs ▸ hsc) p hp
  obtain ⟨d, hd⟩ : ∃ d, t.bindings[p.2]? = some d :=
    ⟨_, Array.getElem?_eq_some_iff.2 ⟨hb ▸ (Array.getElem?_eq_some_iff.1 hb').1, rfl⟩⟩
  obtain ⟨b', hb'', hst⟩ := ho.stays (Array.getElem?_eq_some_iff.1 hb').1 hd
  cases hb'.symm.trans hb''
  exact ⟨d, hd, hst.scope ▸ hbs⟩

theorem declare_held (inHead : Bool) (id : Ident) (kind : BindingKind) (origin : Site → Origin) {s : State}
    (h : s.Held) :
    (declare inHead id kind origin s).2.Held := by
  simp only [declare, run_bind, run_get]
  cases ((fresh s).2.scope? ((fresh s).2.holder kind)).bind (·.binding? id.name) with
  | some b =>
    simp only [run_bind, run_set, run_pure]
    refine State.Held.congr (s := (fresh s).2) h rfl (Array.size_modify ..) ?_
    dsimp only
    refine .modify _ _ ?_
    exact fun b => ⟨rfl, rfl, rfl, rfl, fun h => by simp [h]⟩
  | none =>
    simp only [run_bind, run_set, run_pure]
    have hold {b : Binding} {m : Nat} {p : String × BindingId}
        (hd : ∃ d, s.bindings[p.2]? = some d ∧ (d.scope = m + 1 ∨ d.scope = 0)) :
        ∃ d, (s.bindings.push b)[p.2]? = some d ∧ (d.scope = m + 1 ∨ d.scope = 0) := by
      obtain ⟨d, hd, hs⟩ := hd
      refine ⟨d, ?_, hs⟩
      rw [Array.getElem?_push, if_neg (Nat.ne_of_lt (Array.getElem?_eq_some_iff.1 hd).1)]
      exact hd
    intro m sc hsc p hp
    change ((fresh s).2.scopes.modify _ _)[m]? = some sc at hsc
    rw [Array.getElem?_modify] at hsc
    split at hsc
    next hm =>
      obtain ⟨sc', hsc', rfl⟩ := Option.map_eq_some_iff.1 hsc
      rcases List.mem_append.1 hp with hp | hp
      · exact hold (h m sc' hsc' p hp)
      · cases List.mem_singleton.1 hp
        refine ⟨_, Array.getElem?_push_size, ?_⟩
        show (fresh s).2.holder kind = m + 1 ∨ (fresh s).2.holder kind = 0
        rw [← hm]
        generalize (fresh s).2.holder kind = k
        cases k with
        | zero => exact .inr rfl
        | succ k => exact .inl rfl
    · exact hold (h m sc hsc p hp)

theorem State.Held.entering {s : State} (h : s.Held) (kind : ScopeKind) (opener : Opener) :
    (s.entering kind opener).Held := by
  intro m sc hsc p hp
  change (s.scopes.push _)[m]? = some sc at hsc
  rw [Array.getElem?_push] at hsc
  split at hsc
  · cases hsc
    cases hp
  · exact h m sc hsc p hp

theorem held_walks : Walks visitor Fold.unit Fold.unit fun _ _ s _ t => s.Held → t.Held where
  empty hs := hs
  append h h' hs := h' (h hs)
  swap h h' hs := h' (h hs)
  assoc h := h
  weaken _ h := h
  literal _ h := h
  hole hs := hs
  label _ hs := hs
  propertyName _ hs := hs
  refer _ _ _ hs := hs
  declare inHead id _ _ _ _ hs := declare_held inHead id _ _ hs
  exportName _ _ hs := hs
  exportDeclared ids h hs := by
    obtain ⟨-, hsc, hb, ho⟩ := exportDeclared_outlasts ids _
    exact (h hs).congr hsc hb ho
  contain _ h := h
  called _ h := h
  inScope _ act k kind opener h s hs := h _ (hs.entering kind opener)
  straddle act k l kind opener h s hb hs := by
    obtain ⟨t, ha, hc⟩ := h (s.entering kind opener)
    exact hc (ha ((hb hs).entering kind opener))
  scope_map f act _ _ := rfl
  expr _ h := h
  stmt _ _ h := h
  foreign _ _ _ hs := hs
  property _ h := h
  element _ _ h := h
  declarator _ _ h h' hs := h' (h hs)
  func _ _ h := h
  funcNamed inHead container id _ _ _ _ _ _ _ _ h hs :=
    h (declare_held inHead id .func .func (s := (visitor.contain container _).2) hs)
  cls _ _ _ h h' hs := h' (h hs)
  clsNamed inHead container id _ _ _ _ _ _ _ _ _ _ _ _ h h' hs :=
    declare_held inHead id .cls .cls (s := (visitor.contain container _).2) (h' (h hs))

end Hoist

/-- The fused walk of a program is the one walk after the other. -/
theorem Program.walkScopes_fused (p : Program) :
    p.walkScopes fused = both (p.walkScopes Hoist.visitor) fun p => p.walkScopes Resolve.visitor := by
  funext s
  simp only [Program.walkScopes, Stmt.walkScopesList_fused]
  rfl

/-- The states that both walks of resolution end in, with the rooms of the program they leave. -/
theorem Program.resolve_lodged (p : Program) {q : Program} {info : Info} (hq : p.resolve = (q, info)) :
    ∃ h : Hoist.State, ∃ r : Resolve.State, r.info = info ∧ h.info.bindings.size = info.bindings.size ∧
      Joined (h, r) ∧ Lodged .nothing (q.fold Fold.rooms) (Hoist.State.start, h.resolving) (h, r) := by
  have hheld := Program.walkScopes_walks Hoist.held_walks p Hoist.State.start
    (by simp [Hoist.State.Held, Hoist.State.start])
  have hwalk := Program.walkScopes_walks lodging_walks p
    (Hoist.State.start, (p.walkScopes Hoist.visitor Hoist.State.start).2.resolving)
  rw [Program.resolve_eq] at hq
  rw [Program.walkScopes_fused, both_run] at hwalk
  generalize p.walkScopes Hoist.visitor Hoist.State.start = h at hq hheld hwalk
  have hj : Joined (Hoist.State.start, h.2.resolving) :=
    { entered := rfl
      path := rfl
      marks := List.forall_mem_nil _
      origins := by simp [Hoist.State.start]
      bound := fun {y j d} hj => by
        change (Array.replicate h.2.decls.size none)[y]?.join.map Prod.fst = some j at hj
        rw [Array.getElem?_replicate] at hj
        split at hj <;> cases hj
      held := hheld.info }
  obtain ⟨hend, hl⟩ := hwalk.inner rfl hj
  dsimp only at hend hl
  generalize h.1.walkScopes Resolve.visitor h.2.resolving = r at hq hend hl
  cases hq
  exact ⟨h.2, r.2, rfl, hl.refers.size.symm, hend, hl⟩

section

variable {p q : Program} {info : Info} {j : BindingId} {d : Binding}

/-- The first walk leaves each binding of a resolved program where it stays. -/
theorem Program.resolve_stays (hq : p.resolve = (q, info)) :
    ∃ h : Hoist.State, ∃ r : Resolve.State, r.info = info ∧
      Lodged .nothing (q.fold Fold.rooms) (Hoist.State.start, h.resolving) (h, r) ∧
      ∀ {j : BindingId} {d : Binding}, info.binding? j = some d → ∃ c, h.bindings[j]? = some c ∧ c.Stays d := by
  obtain ⟨h, r, rfl, -, -, hl⟩ := p.resolve_lodged hq
  exact ⟨h, r, rfl, hl, fun hd => hl.refers.binding hd⟩

/-- What is declared in a room of a resolved program is only referred to in it. -/
theorem Program.resolve_rooms (hq : p.resolve = (q, info)) (hd : info.binding? j = some d)
    (hscope : d.scope = d.declScope) (he : d.isExported = false) :
    ∀ room ∈ (q.fold Fold.rooms).rooms, ∀ σ ∈ room.1, d.origin.site? = some σ →
      ∀ y, info.boundAt? y = some j → y ∈ room.2 := by
  intro room hroom σ hσ ho y hy
  obtain ⟨h, r, rfl, hl, hstays⟩ := p.resolve_stays hq
  obtain ⟨c, hc, hst⟩ := hstays hd
  obtain ⟨x, x', m, m', hw⟩ := hl.rooms room hroom
  obtain ⟨hx, hx'⟩ := hw.tops σ hσ
  obtain ⟨hlo, hhi⟩ := hw.inside hc (hst.origin ▸ ho) hx hx'
  rw [← hst.declScope, ← hscope] at hlo hhi
  refine (hw.refs hy hd hlo hhi).resolve_right fun hexp => ?_
  cases he.symm.trans hexp

/-- The functions and classes in exports of a resolved program are exported. -/
theorem Program.resolve_fixed (hq : p.resolve = (q, info)) (hd : info.binding? j = some d) {σ : Site}
    (hσ : σ ∈ (q.fold Fold.rooms).fixed) (ho : d.origin.site? = some σ) : d.isExported = true := by
  obtain ⟨h, r, rfl, hl, hstays⟩ := p.resolve_stays hq
  obtain ⟨c, hc, hst⟩ := hstays hd
  exact hst.exported (hl.fixed σ hσ hc (hst.origin ▸ ho))

/-- What declarators declare has them for its origin. -/
theorem Program.resolve_declarator (hq : p.resolve = (q, info)) (hd : info.binding? j = some d) {σ : Site}
    (hσ : σ ∈ (q.fold Fold.rooms).vars ∨ σ ∈ (q.fold Fold.rooms).loose) (ho : d.origin.site? = some σ) :
    d.origin = .declarator σ := by
  obtain ⟨h, r, rfl, hl, hstays⟩ := p.resolve_stays hq
  obtain ⟨c, hc, hst⟩ := hstays hd
  exact hst.origin.trans (hl.plain σ hσ hc (hst.origin ▸ ho))

/-- Only a `var` and an import go out of the scope in which they are declared. -/
theorem Program.resolve_scope (hq : p.resolve = (q, info)) (hd : info.binding? j = some d)
    (ho : d.origin.site? ≠ none) :
    d.scope = d.declScope ∨ d.kind = .module ∨ d.kind = .var ∧ ∃ σ, d.origin = .declarator σ := by
  obtain ⟨h, r, rfl, hl, hstays⟩ := p.resolve_stays hq
  obtain ⟨c, hc, hst⟩ := hstays hd
  have hf := hl.adds.fresh (Nat.zero_le j) hc
  rw [hst.scope, hst.declScope, hst.kind, hst.origin]
  exact hf.scope (hst.origin ▸ ho)

end

end Deadwood
