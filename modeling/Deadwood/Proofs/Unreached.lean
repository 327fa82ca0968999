import Deadwood.Proofs.Discards

/-!
# What is never reached, and every other rule

A statement that is never reached has all of its references counted out, or those of the initializers that are
trimmed.  With this, no rule counts out more references than uses go.
-/

namespace Deadwood

open Elimination

namespace Watch

variable {W : Watch} {L : Ledger} {R xs : List Site} {a b : Piece × Uses W} {s t u v : State}

/-! ### Pruning -/

theorem bindsUsed_eq_false {d : Declarator} (h : s.bindsUsed d.target = false) :
    ∀ y ∈ d.names.map Ident.site, s.isUsedAt y = false := by
  intro y hy
  obtain ⟨id, hid, rfl⟩ := List.mem_map.1 hy
  cases d
  exact Bool.eq_false_iff.2 (List.any_eq_false.1 h id hid)

/-- No declaration of a statement is inlined any more that is pruned. -/
theorem NeverUsed.buried {x : Stmt} (hx : s.NeverUsed x) (ho : W.Open s) (hw : W.Sound s)
    (hr : L.Ready (x.fold L.fold) s) :
    W.Buried (x.fold W.fold).tops s.dead := by
  intro σ hσ hg
  by_contra hdead
  have htop := hσ
  rw [Uses.fold_tops, List.mem_append] at hσ
  rcases hσ with hσ | hσ
  · obtain ⟨d, hd, rfl⟩ := List.mem_map.1 hσ
    refine ho.spared hw hr.toSound (hr.declarators.entries d hd) (bindsUsed_eq_false ?_) hdead hg
    cases x with
    | decl kind ds =>
      have h := List.any_eq_false.1 (hx.decl kind ds rfl) d hd
      rw [State.isDead_eq_false_iff.2 hdead, Bool.not_false, Bool.true_and] at h
      exact Bool.eq_false_iff.2 h
    | _ => cases hd
  · obtain ⟨id, hid, rfl⟩ : ∃ id, declaredName x = some id ∧ σ = id.site := by
      cases hn : declaredName x with
      | none =>
        rw [hn] at hσ
        cases hσ
      | some id =>
        rw [hn] at hσ
        exact ⟨id, rfl, List.mem_singleton.1 hσ⟩
    refine hdead (ho.buried hw hr.toSound hid (declared_entry hid hr) ?_ _ htop hg)
    cases x with
    | func f => exact absurd rfl (hx.notFunc f)
    | cls c =>
      have h := hx.cls c rfl
      rw [show c.name = some id from hid] at h
      exact h
    | _ => cases hid

theorem Part.pruned {x : Stmt} (hx : s.NeverUsed x) :
    W.Part L .list (x.fold (L.fold.both W.fold)) s (Stmt.foldList (L.fold.both W.fold) (prune x s).1)
      (prune x s).2 := by
  refine ⟨(W.runs L).pruned hx, fun hr _ => ?_⟩
  obtain ⟨hp, hrec, hrel⟩ := prune_spec x s
  have hs := hrec.toSettles
  simp only [Stmt.fold_both, Stmt.foldList_both] at hr ⊢
  have hpaid := hr.discarded hs.holds (NeverUsed.buried hx (hr.calm.open.holds hs.holds) hr.sound hr.ready)
  refine .discard hs (hr.sound.settles hs fun σ hσ => .inl (hrec.dead_eq ▸ hσ)) ?_ ?_
  · rw [hp]
    exact Uses.survivingVars_idle W _ x
  · have := hr.sound.released_stmt hrel
    show s.references W.target ≤ ((x.fold W.fold).cost []).val s.dead [] + _
    dsimp only at hpaid
    omega

/-! ### Trimming -/

section Trimming

variable {kind : DeclKind} {ds : List Declarator} {d : Declarator}

/-- A declarator that loses its initializer keeps the uses of its name, and those of its value are released. -/
theorem trimming_released {site : Site} {id : Ident} {e : Expr} {w : State}
    (hr : L.Ready ((Stmt.decl kind ds).fold L.fold) v) (hw : W.Sound v) (hd : .mk site (.ident id) (some e) ∈ ds)
    (hdead : site ∉ v.dead) (htrim : site ∉ v.trimmed) (hs : v.Settles w) (hwd : w.dead = v.dead)
    (hrel : v.Releases w (e.fold v.liveIdents))
    (hc : W.Clear [.mk site (.ident id) (some e)] v (Ledger.trimming w site)) :
    W.Sound (Ledger.trimming w site) ∧ ∀ X, L.Spares X ((Stmt.decl kind ds).fold L.fold) v →
      (((Declarator.mk site (.ident id) (some e)).fold W.fold kind.bindingKind).cost []).val
        (Ledger.trimming w site).dead (Ledger.trimming w site).trimmed +
          v.references W.target + W.stake X (Ledger.trimming w site) ≤
        (((Declarator.mk site (.ident id) (some e)).fold W.fold kind.bindingKind).cost []).val v.dead [] +
          (Ledger.trimming w site).references W.target + W.stake X v := by
  have hsw := hw.settles hs fun σ hσ => .inl (hwd ▸ hσ)
  have hput : W.Sound (w.put site (.variable none) w.late) := hsw.put nofun fun _ D _ _ => Nat.le_refl 0
  refine ⟨⟨hput.bound, hput.origin, hput.before, hput.late, hput.dead, hput.named, hput.homes⟩, fun X hX => ?_⟩
  have hcl : (e.fold W.fold).live v.dead ≤ ((e.fold W.fold).cost []).val v.dead [] :=
    hc _ (List.mem_singleton_self _) (.inr ⟨rfl, List.mem_cons_self⟩) v.dead (List.Subset.refl _) hdead
  have hrel := hw.released_expr hrel
  have hrefs : (Ledger.trimming w site).references W.target = w.references W.target := rfl
  have hstake : W.stake X (Ledger.trimming w site) = W.stake X (w.put site (.variable none) w.late) := rfl
  have hcut : (((Declarator.mk site (.ident id) (some e)).fold W.fold kind.bindingKind).cost []).val
      (Ledger.trimming w site).dead (Ledger.trimming w site).trimmed ≤ W.uses id := by
    have hnot : site ∉ w.dead := hwd ▸ hdead
    refine Nat.le_trans (Nat.le_of_eq (Cost.declared_cut hnot ⟨rfl, .inr List.mem_cons_self⟩)) (Nat.min_le_left _ _)
  have hfull := name_charge (W := W) kind.bindingKind id (some e) (D := v.dead) (R := []) hdead List.not_mem_nil
  rw [hfull, hrefs, hstake]
  by_cases hg : site ∈ W.gone
  · have hX' : site ∉ X := fun hmem => (hX _ hmem).1 (Ledger.site_mem_keys kind.bindingKind hd)
    have hdef : v.definition? site = some (.variable (some e)) := by
      rcases hr.contents _ (Ledger.mem_contents kind.bindingKind hd) with hdef | ⟨-, -, h | h⟩
      · exact hdef
      · exact absurd h hdead
      · exact absurd h htrim
    have hlt : site < w.definitions.size := by
      rw [hs.definitions]
      exact State.lt_of_definition? hdef
    have hz : W.term (w.put site (.variable none) w.late) site = 0 := by
      refine (term_eq (d := .variable none) ?_ (hwd ▸ hdead)).trans rfl
      rw [State.definition?_put, if_pos ⟨rfl, hlt⟩]
    have hst := W.stake_settles hs (X := insert site X)
    rw [if_pos hg, stake_defined hg hX' hdef hdead, W.stake_insert hg hX',
      stake_put fun _ => Finset.mem_insert_self _ _, hz]
    simp only [Definition.uses, Expr.foldOpt]
    omega
  · have hst := W.stake_settles hs (X := X)
    rw [if_neg hg, stake_put fun h => absurd h hg]
    simp only [Expr.foldOpt]
    omega

/-- A declarator that is never reached stays, is buried, or loses its initializer. -/
theorem trimDeclarator_released (hr : L.Ready ((Stmt.decl kind ds).fold L.fold) v) (hw : W.Sound v) (hd : d ∈ ds)
    (ho : W.Open v) (hc : W.Clear [d] v (trimDeclarator kind d v).2) :
    W.Sound (trimDeclarator kind d v).2 ∧ ∀ X, L.Spares X ((Stmt.decl kind ds).fold L.fold) v →
      ((d.fold W.fold kind.bindingKind).cost []).val (trimDeclarator kind d v).2.dead
        (trimDeclarator kind d v).2.trimmed +
          v.references W.target + W.stake X (trimDeclarator kind d v).2 ≤
        ((d.fold W.fold kind.bindingKind).cost []).val v.dead [] + (trimDeclarator kind d v).2.references W.target +
          W.stake X v := by
  have hl := hr.declarators
  have hmem := List.mem_singleton_self d
  rcases Ledger.trimDeclarator_cases kind d v with he | ⟨hdead, hu, hs, hd', -, hrel⟩ |
    ⟨site, id, e, w, rfl, hdead, htrim, hs, hwd, -, hrel, he⟩
  · rw [he]
    refine ⟨hw, fun X _ => ?_⟩
    have := ((d.fold W.fold kind.bindingKind).cost []).antitone (List.Subset.refl v.dead) (List.nil_subset v.trimmed)
    omega
  · have hdead := State.isDead_eq_false_iff.1 hdead
    have hg : d.site ∉ W.gone := ho.spared hw hr.toSound (hl.entries d hd) (bindsUsed_eq_false hu) hdead
    refine ⟨hw.settles hs fun σ hσ => ?_, fun X _ => ?_⟩
    · rw [hd'] at hσ
      rcases List.mem_cons.1 hσ with rfl | hσ
      · exact .inr (hl.unnamed d hd)
      · exact .inl hσ
    · have hz := dead_charge (W := W) kind.bindingKind d (D := (trimDeclarator kind d v).2.dead)
        (trimDeclarator kind d v).2.trimmed (hd' ▸ List.mem_cons_self)
      have hp := place_charge (W := W) kind.bindingKind d (D := v.dead) (G := []) hdead fun h => absurd h hg
      have hcl := hc _ hmem (.inl (hd' ▸ List.mem_cons_self)) v.dead (List.Subset.refl _) hdead
      have hst := W.stake_settles hs (X := X)
      have hrel := hw.released_opt hrel
      omega
  · rw [he] at hc ⊢
    exact trimming_released hr hw hd hdead htrim hs hwd hrel hc

/-- The declarators of a declaration are trimmed one after another. -/
theorem forM_trimDeclarator_released (es : List Declarator) (hes : es ⊆ ds)
    (hr : L.Ready ((Stmt.decl kind ds).fold L.fold) v) (hw : W.Sound v)
    (ho : W.Open (es.forM (trimDeclarator kind) v).2)
    (hc : W.Clear es v (es.forM (trimDeclarator kind) v).2) :
    W.Sound (es.forM (trimDeclarator kind) v).2 ∧ ∀ X, L.Spares X ((Stmt.decl kind ds).fold L.fold) v →
      ((Declarator.foldList W.fold kind.bindingKind es).cost []).val (es.forM (trimDeclarator kind) v).2.dead
          (es.forM (trimDeclarator kind) v).2.trimmed + v.references W.target +
            W.stake X (es.forM (trimDeclarator kind) v).2 ≤
        ((Declarator.foldList W.fold kind.bindingKind es).cost []).val v.dead [] +
          (es.forM (trimDeclarator kind) v).2.references W.target + W.stake X v := by
  induction es generalizing v with
  | nil => exact ⟨hw, fun X _ => Nat.le_refl _⟩
  | cons d es ih =>
    have hd := hes List.mem_cons_self
    have hbefore := Ledger.trimDeclarator_before hr hd
    have hs := State.trimDeclarator_holds kind d v
    have hs' := State.forM_trimDeclarator_holds kind es (trimDeclarator kind d v).2
    have hone := trimDeclarator_released hr hw hd (ho.holds (hs.trans hs')) fun e he hu => by
      refine hc e (List.mem_singleton.1 he ▸ List.mem_cons_self) (hu.imp (fun h => hs'.dead h) fun h => ⟨h.1, ?_⟩)
      exact hs'.trimmed h.2
    have hrest := ih (fun e he => hes (List.mem_cons_of_mem _ he)) hbefore.ready hone.1 ho
      (hc.mono (List.subset_cons_self _ _) hs.dead)
    refine ⟨hrest.1, fun X hX => ?_⟩
    have h₁ := hone.2 X hX
    have h₂ := hrest.2 X fun σ hσ => ⟨(hX σ hσ).1, fun e he => (hX σ hσ).2 e (hbefore.definitions σ (hX σ hσ).1 ▸ he)⟩
    have h₃ := ((d.fold W.fold kind.bindingKind).cost []).antitone hs'.dead hs'.trimmed
    have h₄ := ((Declarator.foldList W.fold kind.bindingKind es).cost []).antitone hs.dead (List.Subset.refl [])
    show ((d.fold W.fold kind.bindingKind).cost []).val
      (es.forM (trimDeclarator kind) (trimDeclarator kind d v).2).2.dead
        (es.forM (trimDeclarator kind) (trimDeclarator kind d v).2).2.trimmed +
      ((Declarator.foldList W.fold kind.bindingKind es).cost []).val
        (es.forM (trimDeclarator kind) (trimDeclarator kind d v).2).2.dead
        (es.forM (trimDeclarator kind) (trimDeclarator kind d v).2).2.trimmed + v.references W.target +
      W.stake X (es.forM (trimDeclarator kind) (trimDeclarator kind d v).2).2 ≤
      ((d.fold W.fold kind.bindingKind).cost []).val v.dead [] +
        ((Declarator.foldList W.fold kind.bindingKind es).cost []).val v.dead [] +
      (es.forM (trimDeclarator kind) (trimDeclarator kind d v).2).2.references W.target + W.stake X v
    omega

/-- A declaration that is never reached is trimmed before it is visited. -/
theorem Part.trimming (hu : (ds.any fun d => !s.isDead d.site && s.bindsUsed d.target) = true)
    (h : W.Parts L ((Stmt.decl kind ds).fold (L.fold.both W.fold)) (ds.forM (trimDeclarator kind) s).2 b t) :
    W.Part L .list ((Stmt.decl kind ds).fold (L.fold.both W.fold)) s b t := by
  refine ⟨(W.runs L).trimming kind hu h.run, fun hr _ => ?_⟩
  rw [Stmt.fold_both] at h hr ⊢
  have hs := State.forM_trimDeclarator_holds kind ds s
  have hbefore := Ledger.forM_trimDeclarator ds (List.Subset.refl _) hr.ready
  have hrel := forM_trimDeclarator_released ds (List.Subset.refl _) hr.ready hr.sound (hr.calm.open.run h.run)
    (hr.clear hs h.run.found)
  have hk := h.kept { hr with ready := hbefore.ready, sound := hrel.1 } fun σ hσ => by
    rw [Uses.fold_heads] at hσ
    cases hσ
  refine hk.before (fun X hX σ hσ => ?_) fun X hX => hrel.2 X hX
  exact ⟨(hX σ hσ).1, fun e he => (hX σ hσ).2 e (hbefore.definitions σ (hX σ hσ).1 ▸ he)⟩

end Trimming

/-! ### Statements that stand alone or in a list -/

section Places

variable {x : Stmt}

/-- A function or class is not dead before a visit if it is not inlined, or as a statement of a list that is not passed
over. -/
theorem heads_alive (hr : W.Ready L (x.fold L.fold, x.fold W.fold) s t)
    (h : ∀ id, declaredName x = some id → id.site ∈ s.dead → id.site ∉ W.gone) :
    ∀ σ ∈ (x.fold W.fold).heads, σ ∉ s.dead := by
  intro σ hσ hd
  rw [Uses.fold_heads] at hσ
  cases hn : declaredName x with
  | none =>
    rw [hn] at hσ
    cases hσ
  | some id =>
    rw [hn] at hσ
    cases List.mem_singleton.1 hσ
    obtain ⟨d, hdef, hnamed⟩ := declared_definition hn hr.ready
    exact h id hn hd (hr.sound.named hd hdef hnamed)

theorem Part.slot (h : W.Whole L (x.fold (L.fold.both W.fold)) s b t) :
    W.Part L .slot (x.fold (L.fold.both W.fold)) s b t := by
  refine ⟨(W.runs L).slot h.run, fun hr hok => h.kept hr ?_⟩
  rw [Stmt.fold_both] at hr hok ⊢
  refine heads_alive hr fun id hid _ => hok rfl id.site ?_
  show id.site ∈ (x.fold W.fold).tops
  rw [Uses.fold_tops_named hid]
  exact List.mem_singleton_self _

theorem Part.inList (hx : s.isDeadStmt x = false) (h : W.Whole L (x.fold (L.fold.both W.fold)) s b t) :
    W.Part L .list (x.fold (L.fold.both W.fold)) s b t := by
  refine ⟨(W.runs L).kept hx h.run, fun hr _ => h.kept hr ?_⟩
  rw [Stmt.fold_both] at hr ⊢
  refine heads_alive hr fun id hid hd => ?_
  have hx : s.isDead id.site = false := by
    cases x with
    | func f =>
      rw [State.isDeadStmt, show f.name = some id from hid] at hx
      exact hx
    | cls c =>
      rw [State.isDeadStmt, show c.name = some id from hid] at hx
      exact hx
    | _ => cases hid
  exact absurd hd (State.isDead_eq_false_iff.1 hx)

theorem Whole.unfinished (h : W.Parts L (x.fold (L.fold.both W.fold)) s b t) :
    W.Whole L (x.fold (L.fold.both W.fold)) s b t :=
  ⟨(W.runs L).unfinished h.run, fun hr hok => (h.kept hr hok).mono (List.nil_subset _)⟩

/-- What is listed does not matter here. -/
theorem Part.listed (h : W.Part L .list (x.fold (L.fold.both W.fold)) (list x s).2 b t) :
    W.Part L .list (x.fold (L.fold.both W.fold)) s b t := by
  refine ⟨(W.runs L).listed h.run, fun hr hok => ?_⟩
  obtain ⟨sites, he⟩ : ∃ sites, (list x s).2 = { s with listed := sites } := by
    cases x <;> exact ⟨_, rfl⟩
  rw [he] at h
  have hl := hr.ready
  have hk := h.kept
    { hr with
      ready := ⟨⟨hl.dead, hl.origins, hl.defined, hl.buried, hl.late⟩, hl.nodup, hl.entries, hl.elems, hl.unboxed,
        hl.contents⟩
      sound := ⟨hr.sound.bound, hr.sound.origin, hr.sound.before, hr.sound.late, hr.sound.dead, hr.sound.named,
        hr.sound.homes⟩ }
    hok
  exact ⟨hk.sound, hk.settled, hk.account⟩

theorem Part.vanished : W.Part L .list (Stmt.empty.fold (L.fold.both W.fold)) s (L.fold.both W.fold).empty s :=
  ⟨(W.runs L).vanished, fun hr _ => .discard (.refl s) hr.sound (.refl _) (Nat.le_add_left _ _)⟩

theorem Part.filtered {ts : List Stmt} (h : W.Part L .list a s (Stmt.foldList (L.fold.both W.fold) ts) t) :
    W.Part L .list a s (Stmt.foldList (L.fold.both W.fold) (ts.filter fun y => !y.isEmpty)) t := by
  refine ⟨(W.runs L).filtered h.run, fun hr hok => ?_⟩
  have hk := h.kept hr hok
  rw [Stmt.foldList_both] at hk ⊢
  rw [Uses.foldList_filter]
  exact ⟨hk.sound, hk.settled, hk.account⟩

end Places

variable (W L)

/-- Every rule counts out as many references as uses go, at most. -/
theorem visits : Visits (L.fold.both W.fold) (W.Part L) (W.Parts L) (W.Whole L) where
  lawful := (W.runs L).lawful
  empty := Part.empty
  ident role id _ := Part.ident role id
  hole := ⟨(W.runs L).hole, fun hr _ => .idle hr (fun _ _ => Nat.le_refl _) (Nat.le_refl _)⟩
  append := Part.append
  part h := ⟨(W.runs L).part h.run, fun hr _ => (h.kept hr nofun).mono (Place.trims_subset _ _)⟩
  expr := Part.expr
  stmt := Part.stmt
  property hp h := ⟨(W.runs L).property hp h.run, h.kept⟩
  inlineExpr := Part.inlineExpr
  inlineProperty := Part.inlineProperty
  conditional role _ _ _ _ _ _ _ _ := Part.conditional role
  deadDeclarator kind _ _ := Part.deadDeclarator kind
  deadStmt := Part.deadStmt
  declarator kind _ _ _ _ _ _ _ _ := Part.declarator kind
  trimmed kind _ _ _ _ _ _ := Part.trimmed kind
  deadElement kind _ _ := Part.deadElement kind
  element kind _ _ _ _ _ _ _ _ := Part.element kind
  trimmedElement kind _ _ _ _ _ _ := Part.trimmedElement kind
  funcDecl := Parts.funcDecl
  clsDecl := Parts.clsDecl
  loopHead kind _ _ _ _ := Part.loopHead kind
  entered := Whole.entered
  removed := Whole.removed
  finished := Whole.finished
  unfinished := Whole.unfinished
  slot := Part.slot
  kept := Part.inList
  listed := Part.listed
  pruned := Part.pruned
  trimming _ _ _ _ _ := Part.trimming
  vanished := Part.vanished
  filtered := Part.filtered

end Watch

end Deadwood
