import Deadwood.Proofs.Watched

/-!
# Which names a pass inlines

Whatever a pass goes through, a name goes out of its scope only where a reference to it stands in what has been
gone through, outside of dead and trimmed declarations; and a variable only after its declarator has been listed,
which is one that stands in a list of statements.
-/

namespace Deadwood

open Elimination

section

variable {α β : Type} {F : Fold α} {G : Fold β}

/-- A visit of two folds at once is one of the first. -/
theorem Visits.fst {V : Place → α → State → α → State → Prop} {S R : α → State → α → State → Prop}
    (h : Visits F V S R) (hG : G.Lawful) : Visits (F.both G) (fun m a s b t => V m a.1 s b.1 t)
      (fun a s b t => S a.1 s b.1 t) fun a s b t => R a.1 s b.1 t where
  lawful := Fold.both_lawful h.lawful hG
  empty := h.empty
  ident role id _ := h.ident role id
  hole := h.hole
  append := h.append
  part := h.part
  expr {e e' a a' s t} hf hc he hv :=
    h.expr (fun f hf' => by simpa using congrArg Prod.fst (hf f hf'))
      (fun c hc' => by simpa using congrArg Prod.fst (hc c hc')) he hv
  stmt := h.stmt
  property := h.property
  inlineExpr id s := by simpa only [Expr.fold_both] using h.inlineExpr id s
  inlineProperty id s := by simpa only [Property.fold_both] using h.inlineProperty id s
  conditional role _ _ _ _ _ _ _ _ hv := by
    simp only [Expr.fold_both] at hv ⊢
    exact h.conditional role hv
  deadDeclarator kind _ _ hd := by simpa only [Declarator.fold_both] using h.deadDeclarator kind hd
  deadStmt hd := by simpa only [Stmt.fold_both] using h.deadStmt hd
  declarator kind _ _ _ _ _ _ _ _ hs ht hh hn hi hv hw := by
    simp only [Declarator.fold_both, Pattern.fold_both, Expr.foldOpt_both] at hv hw ⊢
    exact h.declarator kind hs ht hh hn hi hv hw
  trimmed kind _ _ _ _ _ _ hs ht hh hn hv := by
    simp only [Declarator.fold_both, Pattern.fold_both] at hv ⊢
    exact h.trimmed kind hs ht hh hn hv
  deadElement kind _ _ hd := by simpa only [Declarator.foldElem_both] using h.deadElement kind hd
  element kind _ _ _ _ _ _ _ _ hh hn hi hv hw := by
    simp only [Declarator.foldElem_both, Pattern.fold_both, Expr.foldOpt_both] at hv hw ⊢
    exact h.element kind hh hn hi hv hw
  trimmedElement kind _ _ _ _ _ _ hh hn hv := by
    simp only [Declarator.foldElem_both, Pattern.fold_both] at hv ⊢
    exact h.trimmedElement kind hh hn hv
  funcDecl hh hv := by
    simp only [Stmt.fold_both, Func.fold_both] at hv ⊢
    exact h.funcDecl hh hv
  clsDecl hh hv := by
    simp only [Stmt.fold_both, Class.fold_both] at hv ⊢
    exact h.clsDecl hh hv
  loopHead kind _ _ _ _ hh hv := by
    simp only [Declarator.foldList_both] at hv ⊢
    exact h.loopHead kind hh hv
  entered hx hv := by
    simp only [Stmt.fold_both] at hv ⊢
    exact h.entered hx hv
  removed hx := by
    simp only [Stmt.fold_both]
    exact h.removed hx
  finished hh hd hv := by
    simp only [Stmt.fold_both, Stmt.foldList_both] at hv ⊢
    exact h.finished hh hd hv
  unfinished hv := by
    simp only [Stmt.fold_both] at hv ⊢
    exact h.unfinished hv
  slot hv := by
    simp only [Stmt.fold_both] at hv ⊢
    exact h.slot hv
  kept hx hv := by
    simp only [Stmt.fold_both] at hv ⊢
    exact h.kept hx hv
  listed hv := by
    simp only [Stmt.fold_both] at hv ⊢
    exact h.listed hv
  pruned hx := by
    simp only [Stmt.fold_both, Stmt.foldList_both]
    exact h.pruned hx
  trimming kind _ _ _ _ hu hv := by
    simp only [Stmt.fold_both] at hv ⊢
    exact h.trimming kind hu hv
  vanished := by
    simp only [Stmt.fold_both]
    exact h.vanished
  filtered hv := by
    simp only [Stmt.foldList_both] at hv ⊢
    exact h.filtered hv

end

namespace Elimination.State

/-- From `s` to `t` no name goes out of its scope, and nothing is listed. -/
structure Holds (s t : State) : Prop extends s.Leads t where
  bound : ∀ {j}, t.Unbound j → s.Unbound j
  listed_eq : t.listed = s.listed

variable {s t u : State}

theorem Holds.refl (s : State) : s.Holds s := { Leads.refl s with bound := id, listed_eq := rfl }

theorem Holds.trans (h : s.Holds t) (h' : t.Holds u) : s.Holds u :=
  { h.toLeads.trans h'.toLeads with
    bound := fun hj => h.bound (h'.bound hj)
    listed_eq := h'.listed_eq.trans h.listed_eq }

theorem Settles.holds (h : s.Settles t) : s.Holds t :=
  { h.leads with bound := h.unbound_iff.1, listed_eq := h.listed }

theorem put_holds {σ : Site} {d : Definition} {late : List (Site × Definition)}
    (h : s.late.map Prod.fst ⊆ late.map Prod.fst) : s.Holds (s.put σ d late) :=
  { put_leads h with bound := id, listed_eq := rfl }

theorem defineVariable_holds (d : Declarator) (s : State) : s.Holds (defineVariable d s).2 := by
  cases d with
  | mk site target init =>
    cases target with
    | ident id => exact put_holds (d := .variable init) (List.Subset.refl _)
    | _ => exact .refl s

theorem defineNamed_holds (name : Option Ident) (d : Definition) (s : State) :
    s.Holds (defineNamed name d s).2 := by
  cases name with
  | none => exact .refl s
  | some id =>
    rw [Ledger.defineNamed_eq]
    exact put_holds Ledger.lateWith_subset

theorem trimming_holds (s : State) (σ : Site) : s.Holds (Ledger.trimming s σ) :=
  { Leads.refl s with
    toGrows := Ledger.trimming_grows s σ
    size := rfl
    bound := id
    listed_eq := rfl }

theorem trimDeclarator_holds (kind : DeclKind) (d : Declarator) (s : State) : s.Holds (trimDeclarator kind d s).2 := by
  rcases Ledger.trimDeclarator_cases kind d s with he | ⟨-, -, hs, -⟩ | ⟨_, _, _, v, -, -, -, hs, -, -, -, he⟩
  · rw [he]
    exact .refl s
  · exact hs.holds
  · rw [he]
    exact hs.holds.trans (trimming_holds v _)

theorem forM_trimDeclarator_holds (kind : DeclKind) (ds : List Declarator) (s : State) :
    s.Holds (ds.forM (trimDeclarator kind) s).2 := by
  induction ds generalizing s with
  | nil => exact .refl s
  | cons d ds ih => exact (trimDeclarator_holds kind d s).trans (ih _)

theorem list_leads (x : Stmt) (s : State) : s.Leads (list x s).2 := by
  cases x with
  | decl kind ds => exact { Leads.refl s with listed := List.subset_append_right _ _ }
  | _ => exact .refl s

theorem list_unbound (x : Stmt) (s : State) {j : BindingId} : (list x s).2.Unbound j ↔ s.Unbound j := by
  cases x <;> exact Iff.rfl

end Elimination.State

namespace Watch.Run

variable {W : Watch} {L : Ledger} {xs ys : List Site} {a a' b b' c : Piece × Uses W} {s t u : State}

theorem mono (h : W.Run L xs a s b t) (hx : xs ⊆ ys) : W.Run L ys a s b t :=
  { h with listed := fun σ hσ => (h.listed σ hσ).imp id (@hx σ) }

/-- A visit that does not inline anything. -/
theorem still (hs : s.Holds t) (h : L.Visit a.1 s b.1 t) : W.Run L xs a s b t where
  visit := h
  leads := hs.toLeads
  kills _ hj := .inl (hs.bound hj)
  chosen _ hj := .inl (hs.bound hj)
  listed _ hσ := .inl (hs.listed_eq ▸ hσ)

theorem idle (h : L.Visit a.1 s b.1 s) : W.Run L xs a s b s := still (.refl s) h

/-- What holds of the parts holds of the whole. -/
theorem whole (h : W.Run L xs a s b t) (hs : t.Holds u) (hv : L.Visit a'.1 s c.1 u)
    (hr : a.2.refs s.dead s.trimmed ⊆ a'.2.refs s.dead s.trimmed) (hx : xs ⊆ ys) : W.Run L ys a' s c u where
  visit := hv
  leads := h.leads.trans hs.toLeads
  kills j hj := (h.kills j (hs.bound hj)).imp id fun ⟨y, hy, hrest⟩ => ⟨y, hr hy, hrest⟩
  chosen j hj := (h.chosen j (hs.bound hj)).imp id hs.chosen
  listed σ hσ := (h.listed σ (hs.listed_eq ▸ hσ)).imp id (@hx σ)

theorem after (h : W.Run L xs a s b t) (hs : t.Holds u) (hv : L.Visit a.1 s c.1 u) : W.Run L xs a s c u :=
  h.whole hs hv (List.Subset.refl _) (List.Subset.refl _)

theorem before (h : W.Run L xs a t b u) (hs : s.Leads t) (hb : ∀ j, t.Unbound j → s.Unbound j)
    (hl : ∀ σ ∈ t.listed, σ ∈ s.listed ∨ σ ∈ xs) (hv : L.Visit a.1 s b.1 u) : W.Run L xs a s b u where
  visit := hv
  leads := hs.trans h.leads
  kills j hj := (h.kills j hj).imp (hb j) fun ⟨y, hy, hm, hbd, href⟩ =>
    ⟨y, a.2.refs_anti hs.dead hs.trimmed hy, fun hmem => hm (hs.moved hmem), hs.boundAt? y ▸ hbd, hs.referenced href⟩
  chosen j hj := (h.chosen j hj).imp (hb j) id
  listed σ hσ := (h.listed σ hσ).elim (hl σ) .inr

theorem append (h : W.Run L xs a s a' t) (h' : W.Run L ys b t b' u) :
    W.Run L (xs ++ ys) ((L.fold.both W.fold).append a b) s ((L.fold.both W.fold).append a' b') u where
  visit := h.visit.append h'.visit
  leads := h.leads.trans h'.leads
  kills j hj := by
    rcases h'.kills j hj with hj | ⟨y, hy, hm, hbd, href⟩
    · refine (h.kills j hj).imp id fun ⟨y, hy, hrest⟩ => ⟨y, List.mem_append_left _ hy, hrest⟩
    · refine .inr ⟨y, List.mem_append_right _ (b.2.refs_anti h.leads.dead h.leads.trimmed hy), ?_, ?_, ?_⟩
      · exact fun hmem => hm (h.leads.moved hmem)
      · exact h.leads.boundAt? y ▸ hbd
      · exact h.leads.referenced href
  chosen j hj := (h'.chosen j hj).elim (fun hj => (h.chosen j hj).imp id h'.leads.chosen) .inr
  listed σ hσ := by
    rcases h'.listed σ hσ with hσ | hσ
    · exact (h.listed σ hσ).imp id (List.mem_append_left _)
    · exact .inr (List.mem_append_right _ hσ)

/-- A reference is inlined, or stays. -/
theorem inline {id : Ident} (hr : id.site ∈ a.2.refs s.dead s.trimmed) (hv : L.Visit a.1 s b.1 (inline id s).2) :
    W.Run L xs a s b (inline id s).2 := by
  obtain ⟨n, hs, h | ⟨i, c, value, hi, h⟩⟩ := State.inline_cases id s
  · rw [h] at hv ⊢
    exact still hs.holds hv
  · rw [h] at hv ⊢
    refine ⟨hv, hs.leads.trans (State.inlining_leads hi), fun j hj => ?_, fun j hj => ?_, fun σ hσ => .inl hσ⟩
    · rcases (State.inlining_unbound hi).1 hj with rfl | hj
      · exact .inr ⟨id.site, hr, hi.moved, hi.bound, hi.referenced⟩
      · exact .inl hj
    · rcases (State.inlining_unbound hi).1 hj with rfl | hj
      · exact .inr hi.chosen
      · exact .inl hj

end Watch.Run

/-! ### Parts and wholes -/

namespace Uses

variable {W : Watch}

theorem refs_close (a : Uses W) (D R : List Site) : a.refs D R ⊆ a.close.refs D R :=
  a.refs_anti (List.Subset.refl D) (List.nil_subset R)

theorem refs_stmt (m : Place) (a : Uses W) (D R : List Site) : a.refs D R ⊆ (a.stmt m).refs D R := by
  cases m with
  | part => exact List.Subset.refl _
  | _ => exact a.refs_close D R

theorem refs_named (name : Option Ident) (a : Uses W) (D R : List Site) : a.refs D R ⊆ (a.named name).refs D R := by
  cases name <;> exact a.refs_close D R

theorem refs_declarator {d : Declarator} (a : Uses W) {D R : List Site} (hD : d.site ∉ D) (hR : d.site ∉ R) :
    a.refs D R ⊆ (a.declarator d).refs D R := by
  show _ ⊆ if d.site ∈ D ∨ d.target.isName = true ∧ d.site ∈ R then [] else a.refs D []
  rw [if_neg fun h => h.elim hD fun h => hR h.2]
  exact a.refs_close D R

/-- There is no reference in a name. -/
theorem refs_target (kind : BindingKind) {site : Site} (target : Pattern) (init : Option Expr) {D : List Site}
    (R : List Site) (hD : site ∉ D) :
    (target.fold W.fold kind).refs D R ⊆ ((Declarator.mk site target init).fold W.fold kind).refs D R := by
  have hparts : (target.fold W.fold kind).refs D R ⊆
      ((target.fold W.fold kind).append (Expr.foldOpt W.fold init)).refs D [] :=
    fun _ h => List.mem_append_left _ (Uses.refs_close _ D R h)
  show _ ⊆ if site ∈ D ∨ target.isName = true ∧ site ∈ R then [] else _
  cases target with
  | ident id => exact List.nil_subset _
  | _ =>
    rw [if_neg]
    · exact hparts
    · rintro (h | ⟨h, -⟩)
      · exact hD h
      · cases h

theorem lists_named (name : Option Ident) (a : Uses W) : (a.named name).lists = a.lists ++ a.tops := by
  cases name <;> rfl

end Uses

namespace Place

theorem subset_lists {W : Watch} (m : Place) (a : Uses W) : a.lists ⊆ m.lists a := by
  unfold lists
  split
  · exact List.subset_append_left _ _
  · exact List.Subset.refl _

theorem lists_append {W : Watch} (m : Place) (a b : Uses W) : m.lists a ++ m.lists b ⊆ m.lists (a.append b) := by
  unfold lists
  split
  · intro x hx
    simp only [Uses.append, List.mem_append] at hx ⊢
    tauto
  · exact List.Subset.refl _

theorem lists_stmt {W : Watch} (m : Place) (a : Uses W) : m.lists a = (a.stmt m).lists := by
  cases m <;> rfl

end Place

/-- The declarators of a declaration can be referred to from outside. -/
theorem Watch.sites_tops (W : Watch) (kind : DeclKind) (ds : List Declarator) :
    ds.map Declarator.site ⊆ ((Stmt.decl kind ds).fold W.fold).tops := by
  show _ ⊆ (Declarator.foldList W.fold kind.bindingKind ds).tops
  induction ds with
  | nil => exact List.nil_subset _
  | cons d ds ih =>
    refine List.cons_subset.2 ⟨List.mem_append_left _ ?_, fun σ hσ => List.mem_append_right _ (ih hσ)⟩
    cases d
    exact List.mem_cons_self

/-- Only declarators that can be referred to from outside are listed. -/
theorem Watch.list_listed (W : Watch) (x : Stmt) (s : State) :
    ∀ σ ∈ (list x s).2.listed, σ ∈ s.listed ∨ σ ∈ (x.fold W.fold).tops := by
  intro σ hσ
  cases x with
  | decl kind ds => exact (List.mem_append.1 hσ).symm.imp id (@W.sites_tops kind ds σ)
  | _ => exact .inl hσ

namespace Watch

variable (W : Watch) (L : Ledger)

/-- Every rule keeps to this. -/
theorem runs : Visits (L.fold.both W.fold) (fun m a => W.Run L (m.lists a.2) a) (fun a => W.Run L a.2.lists a)
    fun a => W.Run L a.2.lists a :=
  have hv := L.visits.fst W.fold_lawful
  { lawful := hv.lawful
    empty := .idle (hv.empty (m := .part))
    ident := fun role id _ => .idle (hv.ident role id)
    hole := .idle hv.hole
    append := fun h h' => (h.append h').mono (Place.lists_append ..)
    part := fun h => h.mono (Place.subset_lists ..)
    expr := fun hf hc he h => h.whole (.refl _) (hv.expr hf hc he h.visit) (Uses.refs_close ..) (List.Subset.refl _)
    stmt := fun hx h => h.whole (.refl _) (hv.stmt hx h.visit) (Uses.refs_stmt ..)
      (Place.lists_stmt .. ▸ List.Subset.refl _)
    property := fun hp h => h.whole (.refl _) (hv.property hp h.visit) (List.Subset.refl _) (List.Subset.refl _)
    inlineExpr := fun id s => .inline (by simp only [Expr.fold_both]; exact List.mem_singleton_self _)
      (hv.inlineExpr id s)
    inlineProperty := fun id s =>
      .inline (by simp only [Property.fold_both]; exact List.mem_singleton_self _) (hv.inlineProperty id s)
    conditional := fun role _ _ _ _ _ _ _ _ h =>
      h.after (Ledger.foldConditional_settles ..).holds (hv.conditional role h.visit)
    deadDeclarator := fun kind _ _ hd => .idle (hv.deadDeclarator kind hd)
    deadStmt := fun hd => .idle (hv.deadStmt hd)
    declarator := fun kind _ _ _ _ _ _ _ _ hs htrim hh hn hi h h' =>
      (h.append h').whole (State.defineVariable_holds ..) (hv.declarator kind hs htrim hh hn hi h.visit h'.visit)
        (Uses.refs_declarator _ (State.isDead_eq_false_iff.1 hs)
          (mt (@h.leads.trimmed _) (List.contains_iff_mem.not.1 (Bool.not_eq_true _ ▸ htrim))))
        (List.Subset.refl _)
    trimmed := fun kind _ target _ init _ _ hs htrim hh hn h =>
      h.whole (State.defineVariable_holds ..) (hv.trimmed kind hs htrim hh hn h.visit)
        (by
          simp only [Pattern.fold_both, Declarator.fold_both]
          exact Uses.refs_target kind target init _ (State.isDead_eq_false_iff.1 hs))
        (List.subset_append_left _ _)
    deadElement := fun kind _ _ hd => .idle (hv.deadElement kind hd)
    element := fun kind _ _ _ _ _ _ _ _ hh hn hi h h' =>
      (h.append h').whole (State.defineVariable_holds ..) (hv.element kind hh hn hi h.visit h'.visit)
        (Uses.refs_close ..) (List.Subset.refl _)
    trimmedElement := fun kind _ _ _ _ _ _ hh hn h =>
      h.whole (State.defineVariable_holds ..) (hv.trimmedElement kind hh hn h.visit)
        (fun _ hy => List.mem_append_left _ (Uses.refs_close _ _ _ hy)) (List.subset_append_left _ _)
    funcDecl := fun hh h => h.whole (State.defineNamed_holds ..) (hv.funcDecl hh h.visit)
      (Uses.refs_named ..) (Uses.lists_named .. ▸ List.Subset.refl _)
    clsDecl := fun hh h => h.whole (State.defineNamed_holds ..) (hv.clsDecl hh h.visit)
      (Uses.refs_named ..) (Uses.lists_named .. ▸ List.Subset.refl _)
    loopHead := fun kind _ _ _ _ hh h => h.after (removeDeclarators_settles _ _).holds (hv.loopHead kind hh h.visit)
    entered := fun hx h => h.before (removeDeclaration_settles _ _).leads
      (fun _ => (removeDeclaration_settles _ _).unbound_iff.1)
      (fun σ hσ => .inl ((removeDeclaration_settles _ _).listed ▸ hσ)) (hv.entered hx h.visit)
    removed := fun hx => ⟨.still (removeDeclaration_settles _ _).holds (hv.removed hx).1,
      .still (removeDeclaration_settles _ _).holds (hv.removed hx).2⟩
    finished := fun hh hd h => ⟨h.after (Ledger.finish_settles _ _).holds (hv.finished hh hd h.visit).1,
      h.after (Ledger.finish_settles _ _).holds (hv.finished hh hd h.visit).2⟩
    unfinished := fun h => { h with visit := hv.unfinished h.visit }
    slot := fun h => h.mono (Place.subset_lists ..)
    kept := fun _ h => h.mono (Place.subset_lists ..)
    listed := fun {x _ s _} h => h.before (State.list_leads x s) (fun _ => (State.list_unbound x s).1)
      (fun σ hσ => (W.list_listed x s σ hσ).imp id fun hσ => by
        simp only [Stmt.fold_both]
        exact List.mem_append_right _ hσ)
      (hv.listed h.visit)
    pruned := fun hx => .still (prune_spec _ _).2.1.toSettles.holds (hv.pruned hx)
    trimming := fun kind ds _ s _ hu h =>
      have hs := State.forM_trimDeclarator_holds kind ds s
      (h.mono (Place.subset_lists .list _)).before hs.toLeads (fun _ => hs.bound) (fun _ hσ => .inl (hs.listed_eq ▸ hσ))
        (hv.trimming kind hu h.visit)
    vanished := .idle hv.vanished
    filtered := fun h => { h with visit := hv.filtered h.visit } }

end Watch

end Deadwood
