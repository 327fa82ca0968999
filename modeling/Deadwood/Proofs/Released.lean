import Deadwood.Proofs.Inlined

/-!
# References are counted out no faster than uses go
-/

namespace Deadwood

open Elimination

namespace Watch

variable {W : Watch} {L : Ledger} {R xs : List Site} {X : Finset Site} {a a' b b' c : Piece × Uses W} {s t u : State}

/-! ### States of a pass -/

theorem Bounds.of_leads (h : W.Bounds t) (hs : s.Leads t) : W.Bounds s where
  unbound j hj := h.unbound j (hs.unbound hj)
  target hj := h.target (hs.unbound hj)

theorem Sound.of_leads (h : W.Sound s) (hs : s.Leads t) (hlate : t.late = [])
    (hdead : ∀ j ∈ W.inlined, t.Unbound j → ∀ σ, W.origin j = some σ → σ ∈ t.dead)
    (hnamed : ∀ {σ d}, σ ∈ t.dead → t.definition? σ = some d → d.isNamed = true → σ ∈ W.gone)
    (hhomes : ∀ {σ d}, σ ∈ W.gone → t.definition? σ = some d → (d.uses W).Home t.dead) : W.Sound t where
  bound x := (hs.boundAt? x).trans (h.bound x)
  origin hc := by
    obtain ⟨b, n, hb, rfl⟩ := hs.bindings hc
    exact (h.origin hb : _ = b.origin.site?)
  before j hj := hs.unbound (h.before j hj)
  late := hlate
  dead := hdead
  named := hnamed
  homes := hhomes

/-- Steps that only settle the state keep it sound, if they bury no functions and classes. -/
theorem Sound.settles (h : W.Sound s) (hs : s.Settles t)
    (hd : ∀ σ ∈ t.dead, σ ∈ s.dead ∨ ∀ d, s.definition? σ = some d → d.isNamed = false) : W.Sound t := by
  refine h.of_leads hs.leads (hs.late.trans h.late) (fun j hj hu σ hσ => ?_) (fun {σ d} hσ hdef hn => ?_)
    fun {σ d} hσ hdef => ?_
  · exact hs.dead (h.dead j hj (hs.unbound_iff.1 hu) σ hσ)
  · rw [hs.definition?] at hdef
    rcases hd σ hσ with hσ | hv
    · exact h.named hσ hdef hn
    · rw [hv d hdef] at hn
      cases hn
  · rw [hs.definition?] at hdef
    exact (h.homes hσ hdef).mono hs.dead

/-- A new definition keeps the state sound. -/
theorem Sound.put {σ : Site} {d : Definition} (h : W.Sound t) (hn : d.isNamed = true → σ ∈ t.dead → σ ∈ W.gone)
    (hd : σ ∈ W.gone → (d.uses W).Home t.dead) : W.Sound (t.put σ d t.late) := by
  refine h.of_leads (State.put_leads (List.Subset.refl _)) h.late h.dead
    (fun {τ e} hτ hdef hn' => ?_) fun {τ e} hτ hdef => ?_
  · rw [State.definition?_put] at hdef
    split at hdef
    · next heq =>
      cases hdef
      exact heq.1 ▸ hn hn' (heq.1 ▸ hτ)
    · exact h.named hτ hdef hn'
  · rw [State.definition?_put] at hdef
    split at hdef
    · next heq =>
      cases hdef
      exact hd (heq.1 ▸ hτ)
    · exact h.homes hτ hdef

theorem Calm.mono {x y : Uses W} (h : W.Calm x t) (hs : y.sites ⊆ x.sites) : W.Calm y t := fun j hj =>
  (h j hj).imp id fun ⟨z, hz, hrest⟩ => ⟨z, fun hmem => hz (hs hmem), hrest⟩

/-- What is inlined and referred to in the piece only has been inlined. -/
theorem Calm.covered {x : Uses W} (h : W.Calm x t) {j : BindingId} (hj : j ∈ W.inlined) (hc : W.Covered j x.sites) :
    t.Unbound j :=
  (h j hj).resolve_right fun ⟨y, hy, _, hb, _⟩ => hy (hc y hb)

theorem Calm.settled {x : Uses W} (h : W.Calm x t) (hs : W.Sound t) : W.Settled x.sites t.dead := fun j hj σ hσ hc =>
  hs.dead j hj (h.covered hj hc) σ hσ

theorem Calm.buried {x : Uses W} (h : W.Calm x t) (hs : W.Sound t) (hx : x.close.closed) : W.Buried x.tops t.dead := by
  intro σ hσ hg
  obtain ⟨j, hj, ho⟩ := W.mem_gone.1 hg
  exact h.settled hs j hj σ ho (hx.2 j hj σ hσ ho)

/-- Every binding that is inlined either has been, or is referred to. -/
def Open (W : Watch) (s : State) : Prop := ∀ j ∈ W.inlined, s.Unbound j ∨ s.isReferenced (some j) = true

theorem Calm.open {x : Uses W} (h : W.Calm x t) : W.Open t := fun j hj =>
  (h j hj).imp id fun ⟨_, _, _, _, hr⟩ => hr

theorem Open.run (h : W.Open t) (hr : W.Run L xs a s b t) : W.Open s := fun j hj => by
  rcases h j hj with hu | hu
  · exact (hr.kills j hu).imp id fun ⟨_, _, _, _, hr⟩ => hr
  · exact .inr (hr.leads.referenced hu)

theorem Open.holds (h : W.Open t) (hs : s.Holds t) : W.Open s := fun j hj =>
  (h j hj).imp hs.bound hs.referenced

/-- A declaration that is not dead is not inlined, if its names are not used. -/
theorem Open.spared {σ : Site} {ys : List Site} (h : W.Open s) (hw : W.Sound s) (hl : L.Sound s)
    (he : (σ, ys) ∈ L.entries) (hu : ∀ y ∈ ys, s.isUsedAt y = false) (hd : σ ∉ s.dead) : σ ∉ W.gone := by
  intro hg
  obtain ⟨j, hj, ho⟩ := W.mem_gone.1 hg
  rcases h j hj with hj' | hr
  · exact hd (hw.dead j hj hj' σ ho)
  · rw [State.isReferenced_some, Bool.and_eq_true, Option.any_eq_true] at hr
    obtain ⟨⟨c, hc, hcr⟩, hcy⟩ := hr
    obtain ⟨e, hmem, heσ, y, hy, hyj⟩ := hl.origins hc ((hw.origin hc).symm.trans ho)
    cases L.entry_unique hmem he heσ
    have hu := hu y hy
    rw [State.isUsedAt, hyj, Option.join_some, State.isReferenced_some, hc, Option.any_some, hcr, hcy] at hu
    cases hu

/-! ### Visits -/

theorem Ready.inner (h : W.Ready L b s t) (hr : L.Ready a.1 s) (hc : a.2.closed) (hs : a.2.sites = b.2.sites) :
    W.Ready L a s t where
  ready := hr
  bounds := h.bounds
  sound := h.sound
  limits := h.limits
  closed := hc
  nodup := hs ▸ h.nodup
  calm := h.calm.mono (hs ▸ List.Subset.refl _)

theorem Kept.mono {R' : List Site} (h : W.Kept L R a s b t) (hR : R' ⊆ R) : W.Kept L R' a s b t where
  sound := h.sound
  settled := h.settled
  account X hX := Nat.le_trans (h.account X hX)
    (Nat.add_le_add_right (Nat.add_le_add_right ((a.2.cost []).antitone (List.Subset.refl _) hR) _) _)

theorem Kept.live_le (h : W.Kept L R a s b t) (hb : W.Buried a.2.tops t.dead) {D : List Site} (hD : t.dead ⊆ D) :
    b.2.live D ≤ (b.2.cost []).val D [] :=
  Nat.le_trans (h.settled D hD) (b.2.cost_buried [] fun σ hσ hg => hD (hb σ hσ hg))

/-- A visit of the parts is one of the whole. -/
theorem Kept.whole (h : W.Kept L R a s b t) (hb : ∀ D, t.dead ⊆ D → b'.2.live D ≤ (b'.2.cost a'.2.tops).val D [])
    (hX : ∀ X, L.Spares X a'.1 s → L.Spares X a.1 s) {R' : List Site}
    (ha : (a.2.cost []).val s.dead R ≤ (a'.2.cost []).val s.dead R')
    (hb' : (b'.2.cost []).val t.dead [] ≤ (b.2.cost []).val t.dead []) : W.Kept L R' a' s b' t where
  sound := h.sound
  settled := hb
  account X hX' := by
    have := h.account X (hX X hX')
    omega

/-- A piece is left as it is. -/
theorem Kept.idle (h : W.Ready L a s s) (hb : ∀ D, s.dead ⊆ D → a.2.live D ≤ (a.2.cost a.2.tops).val D [])
    (ha : (a.2.cost []).val s.dead [] ≤ (a.2.cost []).val s.dead R) : W.Kept L R a s a s where
  sound := h.sound
  settled := hb
  account X _ := by omega

theorem Ready.left (h : W.Ready L ((L.fold.both W.fold).append a b) s u) (ha : W.Run L xs a s a' t)
    (hb : W.Run L R b t b' u) : W.Ready L a s t where
  ready := h.ready.left
  bounds := h.bounds.of_grows hb.visit.grows
  sound := h.sound
  limits := h.limits.of_leads hb.leads
  closed := h.closed.1
  nodup := (List.nodup_append.1 h.nodup).1
  calm j hj := by
    rcases h.calm j hj with hj | ⟨y, hy, hm, hbd, href⟩
    · refine (hb.kills j hj).imp id fun ⟨y, hy, hm, hbd, href⟩ => ⟨y, fun hya => ?_, hm, ?_, href⟩
      · exact (List.nodup_append.1 h.nodup).2.2 y hya y (b.2.refs_subset _ _ hy) rfl
      · rw [← hbd, ha.leads.boundAt?, h.sound.bound]
    · exact .inr ⟨y, fun hya => hy (List.mem_append_left _ hya), fun hmem => hm (hb.leads.moved hmem), hbd,
        hb.leads.referenced href⟩

theorem Ready.right (h : W.Ready L ((L.fold.both W.fold).append a b) s u) (ha : W.Run L xs a s a' t)
    (hb : W.Run L R b t b' u) (hs : W.Sound t) : W.Ready L b t u where
  ready := h.ready.right ha.visit.grows (ha.visit.done h.ready.left (h.bounds.of_grows hb.visit.grows))
  bounds := h.bounds
  sound := hs
  limits := h.limits
  closed := h.closed.2
  nodup := (List.nodup_append.1 h.nodup).2.1
  calm := h.calm.mono (List.subset_append_right _ _)

end Watch

theorem Place.trims_subset (m : Place) (s : State) : m.trims s ⊆ s.trimmed := by
  unfold trims
  split
  · exact List.Subset.refl _
  · exact List.nil_subset _

theorem Place.trims_mono {m : Place} {s t : State} (h : s.Grows t) : m.trims s ⊆ m.trims t := by
  unfold trims
  split
  · exact h.trimmed
  · exact List.Subset.refl _

namespace Watch

variable {W : Watch} {L : Ledger} {m : Place} {R xs : List Site} {a a' b b' c : Piece × Uses W} {s t u : State}

theorem Part.append (h : W.Part L m a s a' t) (h' : W.Part L m b t b' u) :
    W.Part L m ((L.fold.both W.fold).append a b) s ((L.fold.both W.fold).append a' b') u where
  run := (W.runs L).append h.run h'.run
  kept hr hok := by
    have ha := h.kept (hr.left h.run h'.run) fun hm σ hσ => hok hm σ (List.mem_append_left _ hσ)
    have hb := h'.kept (hr.right h.run h'.run ha.sound) fun hm σ hσ => hok hm σ (List.mem_append_right _ hσ)
    have hdone := h.run.visit.done hr.ready.left (hr.bounds.of_grows h'.run.visit.grows)
    refine ⟨hb.sound, fun D hD => ?_, fun X hX => ?_⟩
    · refine Nat.add_le_add ?_ ?_
      · exact Nat.le_trans (ha.settled D (List.Subset.trans h'.run.leads.dead hD))
          (a'.2.cost_mono D [] (List.subset_append_left _ _))
      · exact Nat.le_trans (hb.settled D hD) (b'.2.cost_mono D [] (List.subset_append_right _ _))
    · have h₁ := ha.account X hX.left
      have h₂ := hb.account X (hX.right hdone)
      have h₃ := (a'.2.cost []).antitone h'.run.leads.dead (List.Subset.refl [])
      have h₄ := (b.2.cost []).antitone h.run.leads.dead (Place.trims_mono (m := m) h.run.visit.grows)
      show (a'.2.cost []).val u.dead [] + (b'.2.cost []).val u.dead [] + W.stake X u + _ ≤
        (a.2.cost []).val s.dead (m.trims s) + (b.2.cost []).val s.dead (m.trims s) + _ + _
      omega

/-- A visit of a piece with statements of its own. -/
theorem Kept.close (h : W.Kept L [] a s b t) (hc : W.Calm a.2 t) (hcl : a.2.close.closed) {p q : Piece}
    (hX : ∀ X, L.Spares X p s → L.Spares X a.1 s) : W.Kept L R (p, a.2.close) s (q, b.2.close) t :=
  h.whole (fun _ hD => h.live_le (hc.buried h.sound hcl) hD) hX (Nat.le_refl _) (Nat.le_refl _)

/-- A visit of a piece whose declarations stand alone. -/
theorem Kept.shut (h : W.Kept L [] a s b t) (hn : ∀ σ ∈ a.2.tops, σ ∉ W.gone) {p q : Piece}
    (hX : ∀ X, L.Spares X p s → L.Spares X a.1 s) : W.Kept L R (p, a.2.shut) s (q, b.2.shut) t :=
  h.whole (fun _ hD => h.live_le (fun σ hσ hg => absurd hg (hn σ hσ)) hD) hX (Nat.le_refl _) (Nat.le_refl _)

/-- What is ready apart from a charge is ready. -/
theorem charged_ready {p : Piece} {n : Nat} (h : L.Ready (p.charged n) s) : L.Ready p s := { h with }

theorem Part.expr {e e' : Expr} (hf : ∀ f, e = .func f → a = f.fold (L.fold.both W.fold) .own)
    (hc : ∀ c, e = .cls c → a = c.fold (L.fold.both W.fold) .own) (he : e.head = e'.head) (h : W.Part L .list a s b t) :
    W.Part L .part ((L.fold.both W.fold).expr e a) s ((L.fold.both W.fold).expr e' b) t where
  run := (W.runs L).expr hf hc he h.run
  kept hr _ := by
    have hno (σ : Site) (hσ : e.ownSite? = some σ) : σ ∉ L.late :=
      Ledger.Visit.ownSite_not_late (fun f hf' => by rw [hf f hf', Func.fold_both])
        (fun c hc' => by rw [hc c hc', Class.fold_both]) hr.ready hσ
    have hbox : L.fold.expr e a.1 = L.inside e a.1 := Ledger.Visit.unboxed_expr hno
    have hready : L.Ready (L.inside e a.1) s := hbox ▸ hr.ready
    have ha : W.Ready L a s t := hr.inner { hready with } hr.closed.1 rfl
    refine (h.kept ha nofun).close ha.calm hr.closed fun X hX => ?_
    have hX : L.Spares X (L.inside e a.1) s := hbox ▸ hX
    exact hX

theorem Part.stmt {x x' : Stmt} (hx : x.head = x'.head) (h : W.Part L x.place a s b t) :
    W.Parts L ((L.fold.both W.fold).stmt x a) s ((L.fold.both W.fold).stmt x' b) t where
  run := (W.runs L).stmt hx h.run
  kept hr _ := by
    have hplace : x'.place = x.place := by
      have hh (x : Stmt) : x.head.place = x.place := by cases x <;> rfl
      rw [← hh x', ← hx, hh]
    have hr : W.Ready L ((L.fold.stmt x a.1), a.2.stmt x.place) s t := hr
    show W.Kept L s.trimmed (L.fold.stmt x a.1, a.2.stmt x.place) s (L.fold.stmt x' b.1, b.2.stmt x'.place) t
    rw [hplace]
    have hready : L.Ready a.1 s := charged_ready hr.ready
    have ha (hc : a.2.closed) : W.Ready L a s t := hr.inner hready hc (Uses.stmt_sites ..).symm
    cases hm : x.place with
    | part =>
      rw [hm] at hr h
      have hk := h.kept (ha hr.closed) nofun
      exact ⟨hk.sound, hk.settled, hk.account⟩
    | list =>
      rw [hm] at hr h
      have ha := ha hr.closed.1
      exact (h.kept ha nofun).close ha.calm hr.closed fun X hX => hX
    | slot =>
      rw [hm] at hr h
      exact (h.kept (ha hr.closed.1) fun _ => hr.closed.2).shut hr.closed.2 fun X hX => hX

/-- An identifier is charged where it stands. -/
theorem Part.ident (role : Role) (id : Ident) :
    W.Part L .part ((L.fold.both W.fold).ident role id) s ((L.fold.both W.fold).ident role id) s :=
  ⟨(W.runs L).ident role id, fun hr _ => .idle hr (fun _ _ => Nat.le_refl _) (Nat.le_refl _)⟩

theorem Part.empty : W.Part L m (L.fold.both W.fold).empty s (L.fold.both W.fold).empty s :=
  ⟨(W.runs L).empty, fun hr _ => .idle hr (fun _ _ => Nat.le_refl _) (Nat.le_refl _)⟩

theorem Part.deadDeclarator (kind : BindingKind) {d : Declarator} (hd : s.isDead d.site = true) :
    W.Part L .part (d.fold (L.fold.both W.fold) kind) s (d.fold (L.fold.both W.fold) kind) s := by
  refine ⟨(W.runs L).deadDeclarator kind hd, fun hr _ => ?_⟩
  rw [Declarator.fold_both] at hr ⊢
  have hd := State.isDead_iff.1 hd
  cases d with
  | mk site target init =>
    refine .idle hr (fun D hD => ?_) ?_
    · exact Nat.le_trans (Nat.le_of_eq (if_pos (hD hd))) (Nat.zero_le _)
    · exact Nat.le_trans (Nat.le_of_eq (Cost.declared_dead hd)) (Nat.zero_le _)

theorem Part.deadStmt {x : Stmt} (hx : s.isDeadStmt x = true) :
    W.Part L .list (x.fold (L.fold.both W.fold)) s (x.fold (L.fold.both W.fold)) s := by
  refine ⟨(W.runs L).deadStmt hx, fun hr _ => ?_⟩
  rw [Stmt.fold_both] at hr ⊢
  refine .idle hr (fun D hD => ?_) (Nat.le_refl _)
  have hnamed {name : Option Ident} (hn : (name.any fun id => s.isDead id.site) = true) (a : Uses W) :
      (a.named name).live D = 0 := by
    cases name with
    | none => cases hn
    | some id => exact if_pos (hD (State.isDead_iff.1 hn))
  have hz : (x.fold W.fold).live D = 0 := by
    cases x with
    | func f => exact hnamed hx _
    | cls c => exact hnamed hx _
    | _ => cases hx
  exact hz ▸ Nat.zero_le _

/-! ### Inlining -/

end Watch

/-- What binds a name does not use one. -/
theorem Uses.ident_binding (W : Watch) (kind kind' : BindingKind) (id : Ident) :
    Uses.ident W (.binding kind) id = Uses.ident W (.binding kind') id := by
  ext <;> simp [Uses.ident]

/-- A value uses what its definition does. -/
theorem Elimination.Definition.uses_value {d : Definition} {e : Expr} (W : Watch) (h : d.value? = some e) :
    e.fold W.fold = d.uses W := by
  have hname (kind kind' : BindingKind) (name : Option Ident) :
      W.fold.optIdent (.binding kind) name = W.fold.optIdent (.binding kind') name := by
    cases name with
    | none => rfl
    | some id => exact Uses.ident_binding W kind kind' id
  cases d with
  | «variable» init =>
    cases h
    rfl
  | func f =>
    cases h
    cases f with
    | mk name params rest body async generator =>
      simp only [Expr.fold, Definition.uses, Func.fold, hname .own .func]
      rfl
  | cls c =>
    cases h
    cases c with
    | mk name superclass body decorators =>
      simp only [Expr.fold, Definition.uses, Class.fold, hname .own .cls]
      rfl

theorem Expr.references_sites (W : Watch) (e : Expr) : (e.fold W.fold).sites = e.references.map Ident.site :=
  e.fold_related W.references_relates

theorem Elimination.State.renewExpr_early {s : State} (h : s.late = []) (e : Expr) : s.renewExpr e = e := by
  rw [State.renewExpr, h]
  rfl

theorem Elimination.State.renewStmt_early {s : State} (h : s.late = []) (x : Stmt) : s.renewStmt x = x := by
  rw [State.renewStmt, h]
  rfl

namespace Watch

section Inlining

variable {W : Watch} {L : Ledger} {R : List Site} {a : Piece × Uses W} {s t : State} {σ : Site} {d : Definition}
  {id : Ident} {i : BindingId} {b : Binding} {value : Expr}

/-- The binding that is inlined is one of those that are inlined in the pass. -/
theorem Bounds.inlined (h : W.Bounds (s.inlining i b value)) (hs : W.Sound s) (hi : s.Inlines id i b value) :
    i ∈ W.inlined := by
  refine (h.unbound i ((State.inlining_unbound hi).2 (.inl rfl))).resolve_left fun hb => ?_
  have hf := hs.before i hb b hi.binding
  rw [State.isBound_of_isInlinable hi.inlinable] at hf
  cases hf

theorem Sound.inlining (h : W.Sound s) (hi : s.Inlines id i b value) (hmem : i ∈ W.inlined) (ho : W.origin i = some σ)
    (hdead : (s.inlining i b value).dead = σ :: s.dead) : W.Sound (s.inlining i b value) := by
  refine h.of_leads (State.inlining_leads hi) h.late (fun j hj hu τ hτ => ?_)
    (fun {τ e} hτ hdef hn => ?_) fun {τ e} hτ hdef => ?_
  · rw [hdead]
    rcases (State.inlining_unbound hi).1 hu with rfl | hu
    · cases ho.symm.trans hτ
      exact List.mem_cons_self
    · exact List.mem_cons_of_mem _ (h.dead j hj hu τ hτ)
  · rw [hdead] at hτ
    rcases List.mem_cons.1 hτ with rfl | hτ
    · exact W.mem_gone.2 ⟨i, hmem, ho⟩
    · exact h.named hτ hdef hn
  · exact (h.homes hτ hdef).mono (hdead ▸ List.subset_cons_self _ _)

/-- The uses in a value move from the state to the place of the reference. -/
theorem Kept.inlines (hrefs : a.1.refs = [id.site]) (hi : s.Inlines id i b value)
    (hr : W.Ready L a s (s.inlining i b value)) :
    W.Kept L R a s (value.fold L.fold, value.fold W.fold) (s.inlining i b value) := by
  have hk : L.Knows s := hr.ready.toSound.knows (hr.bounds.of_grows State.inlining_grows)
  obtain ⟨σ, d, e, ho, hdef, he, hv⟩ := State.valueOf?_spec hi.valueOf
  have ho : b.origin.site? = some σ := ho ▸ d.origin_site? σ
  have hmem := hr.limits.inlined hr.sound hi
  have hog : W.origin i = some σ := (hr.sound.origin hi.binding).trans ho
  have hg : σ ∈ W.gone := W.mem_gone.2 ⟨i, hmem, hog⟩
  have hσ : σ ∉ s.dead := hr.ready.toSound.not_dead hi ho hdef
  have hblock := hr.ready.toSound.inlined_outside hk hi ho hdef he hv
  have hdead : (s.inlining i b value).dead = σ :: s.dead := by
    show b.origin.site?.toList ++ s.dead = _
    rw [ho]
    rfl
  have hsub : s.dead ⊆ (s.inlining i b value).dead := hdead ▸ List.subset_cons_self _ _
  have hsound := hr.sound.inlining hi hmem hog hdead
  rw [State.renewExpr_early hr.sound.late] at hv
  subst hv
  rw [Definition.uses_value W he]
  refine ⟨hsound, fun D hD => ?_, fun X hX => ?_⟩
  · -- What is inlined and referred to in the value only has been inlined, as these references have moved.
    have hs : W.Settled (d.uses W).sites D := fun j hj τ hτ hc => by
      refine hD (hsound.dead j hj ?_ τ hτ)
      refine (hr.calm j hj).resolve_right fun ⟨y, _, hm, hy, _⟩ => hm (List.mem_append_left _ ?_)
      have hy := hc y hy
      rwa [← Definition.uses_value W he, Expr.references_sites] at hy
    exact Nat.le_trans (hr.sound.homes hg hdef D (List.Subset.trans hsub hD) hs)
      ((d.uses W).cost_mono D [] (List.nil_subset _))
  · have hX' : σ ∉ X := fun hσX => hblock ((hX σ hσX).2 d hdef (hrefs ▸ List.mem_singleton_self _))
    have htarget : W.target ≠ i := fun h => hr.limits.target (h ▸ (State.inlining_unbound hi).2 (.inl rfl))
    have hst : W.stake (insert σ X) (s.inlining i b value) ≤ W.stake (insert σ X) s :=
      W.stake_le fun τ _ => W.term_le rfl hsub
    have hz : W.term (s.inlining i b value) σ = 0 := if_pos (hdead ▸ List.mem_cons_self)
    have hc := ((d.uses W).cost []).antitone hsub (List.Subset.refl [])
    rw [stake_defined hg hX' hdef hσ, W.stake_insert hg hX', hz, State.inlining_references htarget]
    dsimp only
    omega

/-- A note may be made before a visit. -/
theorem Ready.noted {n : Bool} (h : W.Ready L a s t) : W.Ready L a (s.noting n) t where
  ready :=
    { h.ready with
      toSound := ⟨h.ready.dead, h.ready.origins, h.ready.defined, h.ready.buried, h.ready.late⟩ }
  bounds := h.bounds
  sound := ⟨h.sound.bound, h.sound.origin, h.sound.before, h.sound.late, h.sound.dead, h.sound.named, h.sound.homes⟩
  limits := h.limits
  closed := h.closed
  nodup := h.nodup
  calm := h.calm

/-- A reference stays, or its value takes its place. -/
theorem Kept.inline (out : Option Expr → Piece × Uses W) (hnone : out none = a)
    (hsome : ∀ value, out (some value) = (value.fold L.fold, value.fold W.fold)) (hrefs : a.1.refs = [id.site])
    (hl : ∀ D, a.2.live D = ((a.2.cost a.2.tops).val D []))
    (hc : (a.2.cost []).val s.dead [] ≤ (a.2.cost []).val s.dead R)
    (hr : W.Ready L a s (inline id s).2) : W.Kept L R a s (out (inline id s).1) (inline id s).2 := by
  obtain ⟨n, -, h | ⟨i, b, value, hi, h⟩⟩ := State.inline_cases id s
  · rw [h] at hr ⊢
    rw [hnone]
    have hk := Kept.idle { hr.noted with calm := hr.calm } (fun D _ => Nat.le_of_eq (hl D)) hc
    exact ⟨hk.sound, hk.settled, hk.account⟩
  · rw [h] at hr ⊢
    rw [hsome]
    have hk := Kept.inlines (R := R) hrefs hi hr.noted
    exact ⟨hk.sound, hk.settled, hk.account⟩

theorem Part.inlineExpr (id : Ident) (s : State) : W.Part L .part ((Expr.ident id).fold (L.fold.both W.fold)) s
    (((Elimination.inline id s).1.getD (.ident id)).fold (L.fold.both W.fold)) (Elimination.inline id s).2 := by
  refine ⟨(W.runs L).inlineExpr id s, fun hr _ => ?_⟩
  rw [Expr.fold_both] at hr
  rw [Expr.fold_both (.ident id)]
  exact Kept.inline (fun v => (v.getD (.ident id)).fold (L.fold.both W.fold)) (Expr.fold_both _)
    (fun _ => Expr.fold_both _) rfl (fun _ => rfl) (Nat.le_refl _) hr

theorem Part.inlineProperty (id : Ident) (s : State) :
    W.Part L .part ((Property.short id none).fold (L.fold.both W.fold)) s
    ((Property.inlined id (Elimination.inline id s).1).fold (L.fold.both W.fold)) (Elimination.inline id s).2 := by
  refine ⟨(W.runs L).inlineProperty id s, fun hr _ => ?_⟩
  rw [Property.fold_both] at hr
  rw [Property.fold_both (.short id none)]
  refine Kept.inline (fun v => (Property.inlined id v).fold (L.fold.both W.fold)) (Property.fold_both _)
    (fun value => ?_) rfl (fun _ => rfl) (Nat.le_refl _) hr
  rw [Property.fold_both]
  exact Prod.ext (L.fold_lawful.empty_left _) (W.fold_lawful.empty_left _)

end Inlining

end Watch

/-! ### Declarators -/

/-- A declaration in its place is charged what its parts are. -/
theorem Uses.declared_live_le {W : Watch} {a : Uses W} {D : List Site} (h : a.live D ≤ (a.cost []).val D [])
    (site : Site) (isName : Bool) (n : Nat) :
    (a.declared site isName n).live D ≤ ((a.declared site isName n).cost [site]).val D [] := by
  show (if site ∈ D then 0 else a.live D) ≤ _
  by_cases hD : site ∈ D
  · rw [if_pos hD]
    exact Nat.zero_le _
  · rw [if_neg hD]
    exact Nat.le_trans h (Nat.le_of_eq (Cost.declared_place hD fun _ => ⟨by simp, List.not_mem_nil⟩).symm)

namespace Watch

section Declarators

variable {W : Watch} {L : Ledger} {s t u : State} (kind : BindingKind) {site : Site} {target target' : Pattern}
  {init init' : Option Expr} {id : Ident}

theorem name_uses (kind : BindingKind) (id : Ident) (init : Option Expr) (D R : List Site) :
    ((((Pattern.ident id).fold W.fold kind).append (Expr.foldOpt W.fold init)).cost []).val D R =
      W.uses id + ((Expr.foldOpt W.fold init).cost []).val D R := rfl

/-- What the declarator of a name is charged that is neither dead nor trimmed. -/
theorem name_charge (kind : BindingKind) (id : Ident) (init : Option Expr) {D R : List Site} (hD : site ∉ D)
    (hR : site ∉ R) :
    (((Declarator.mk site (.ident id) init).fold W.fold kind).cost []).val D R =
      W.uses id + if site ∈ W.gone then 0 else ((Expr.foldOpt W.fold init).cost []).val D [] := by
  by_cases hg : site ∈ W.gone
  · refine (Cost.declared_cut hD ⟨rfl, .inl (decide_eq_true ⟨hg, List.not_mem_nil⟩)⟩).trans ?_
    rw [if_pos hg]
    exact Nat.min_eq_left (Nat.le_add_right _ _)
  · refine (Cost.declared_place hD fun _ => ⟨decide_eq_false fun h => hg h.1, hR⟩).trans ?_
    rw [if_neg hg]
    exact name_uses kind id init D []

/-- What is collected from the parts of a declarator. -/
abbrev parts (W : Watch) (L : Ledger) (kind : BindingKind) (target : Pattern) (init : Option Expr) : Piece × Uses W :=
  ((target.fold L.fold kind).append (Expr.foldOpt L.fold init),
    (target.fold W.fold kind).append (Expr.foldOpt W.fold init))

/-- What is collected from a declarator. -/
abbrev decl (W : Watch) (L : Ledger) (kind : BindingKind) (d : Declarator) : Piece × Uses W :=
  (d.fold L.fold kind, d.fold W.fold kind)

theorem decl_sites (W : Watch) (kind : BindingKind) (site : Site) (target : Pattern) (init : Option Expr) :
    ((Declarator.mk site target init).fold W.fold kind).sites =
      ((target.fold W.fold kind).append (Expr.foldOpt W.fold init)).sites := Uses.declared_sites ..

/-- The parts of a declarator are ready with it. -/
theorem Ready.parts (hr : W.Ready L (W.decl L kind (.mk site target init)) s t) :
    W.Ready L (W.parts L kind target init) s t :=
  hr.inner (hr.ready.inner rfl rfl rfl (List.subset_cons_self _ _)) hr.closed.1
    (decl_sites W kind site target init).symm

theorem Ready.put {a : Piece × Uses W} {d : Definition} (hr : W.Ready L a s (t.put site d t.late)) :
    W.Ready L a s t where
  ready := hr.ready
  bounds := hr.bounds.of_grows (State.put_grows (List.Subset.refl _))
  sound := hr.sound
  limits := hr.limits.of_leads (State.put_leads (List.Subset.refl _))
  closed := hr.closed
  nodup := hr.nodup
  calm := hr.calm

/-- A declarator of a name is visited. -/
theorem Kept.name (hs : site ∉ s.dead) (htrim : site ∉ s.trimmed)
    (h : W.Part L .part (W.parts L kind (.ident id) init) s (W.parts L kind (.ident id) init') t)
    (hr : W.Ready L (W.decl L kind (.mk site (.ident id) init)) s (t.put site (.variable init') t.late)) :
    W.Kept L s.trimmed (W.decl L kind (.mk site (.ident id) init)) s (W.decl L kind (.mk site (.ident id) init'))
      (t.put site (.variable init') t.late) := by
  have hk := h.kept hr.put.parts nofun
  have hin := h.run.visit.done hr.put.parts.ready hr.put.bounds
  have hdef := Ledger.Visit.name_definition kind hr.ready hs htrim
  have hdead := Ledger.Visit.name_alive kind hr.ready hs hdef hin
  have hlive {D : List Site} (hD : t.dead ⊆ D) := hk.live_le (fun σ hσ hg => absurd hg (hr.closed.2 σ hσ)) hD
  refine ⟨hk.sound.put nofun fun _ D hD _ => ?_, fun D hD => Uses.declared_live_le (hlive hD) site true _,
    fun X hX => ?_⟩
  · exact Nat.le_of_add_le_add_left (hlive hD)
  · have hin' : t.definition? site = some (.variable init) :=
      (hin.definitions _ (Ledger.Visit.name_apart kind hr.ready)).trans hdef
    have hdef' : (t.put site (.variable init') t.late).definition? site = some (.variable init') := by
      rw [State.definition?_put, if_pos ⟨rfl, State.lt_of_definition? hin'⟩]
    have hX' : site ∉ X := fun hmem => (hX _ hmem).1 List.mem_cons_self
    have hle := ((Expr.foldOpt W.fold init).cost []).antitone (List.Subset.refl s.dead) (List.nil_subset s.trimmed)
    show (((Declarator.mk site (.ident id) init').fold W.fold kind).cost []).val t.dead [] +
      W.stake X (t.put site (.variable init') t.late) + _ ≤ _ + _ + t.references W.target
    rw [name_charge kind id init' hdead List.not_mem_nil, name_charge kind id init hs htrim]
    by_cases hg : site ∈ W.gone
    · have hacc := hk.account (insert site X) (Ledger.Visit.name_spares kind hr.ready hdef hX)
      simp only [name_uses, Place.trims, if_true] at hacc
      rw [if_pos hg, if_pos hg, stake_defined hg hX' hdef hs, stake_defined hg hX' hdef' hdead,
        stake_put fun _ => Finset.mem_insert_self _ _]
      simp only [Definition.uses, State.put]
      omega
    · have hacc := hk.account X (hX.mono (List.subset_cons_self _ _) (List.Subset.refl _))
      simp only [name_uses, Place.trims, if_true] at hacc
      rw [if_neg hg, if_neg hg, stake_put fun h => absurd h hg]
      omega

/-- What the declarator of a pattern is charged that is not dead. -/
theorem pattern_charge (init : Option Expr) {D : List Site} (R : List Site) (hD : site ∉ D)
    (hp : target.isName = false) :
    (((Declarator.mk site target init).fold W.fold kind).cost []).val D R =
      (((target.fold W.fold kind).append (Expr.foldOpt W.fold init)).cost []).val D [] :=
  Cost.declared_place hD fun h => absurd (hp.symm.trans h) Bool.false_ne_true

/-- A declarator whose target is a pattern is visited. -/
theorem Kept.pattern (hs : site ∉ s.dead) (hp : target.isName = false)
    (h : W.Part L .part (W.parts L kind target init) s (W.parts L kind target' init') t)
    (hr : W.Ready L (W.decl L kind (.mk site target init)) s t) :
    W.Kept L s.trimmed (W.decl L kind (.mk site target init)) s (W.decl L kind (.mk site target' init')) t := by
  have hk := h.kept hr.parts nofun
  have hle : (((Declarator.mk site target' init').fold W.fold kind).cost []).val t.dead [] ≤
      (((target'.fold W.fold kind).append (Expr.foldOpt W.fold init')).cost []).val t.dead [] := Cost.declared_le
  refine hk.whole ?_ ?_ ?_ hle
  · exact fun D hD => Uses.declared_live_le (hk.live_le (fun σ hσ hg => absurd hg (hr.closed.2 σ hσ)) hD) site _ _
  · exact fun X hX => hX.mono (List.subset_cons_self _ _) (List.Subset.refl _)
  · rw [pattern_charge kind init _ hs hp]
    exact (Uses.cost _ []).antitone (List.Subset.refl _) (List.nil_subset _)

theorem Part.declarator (hs : s.isDead site = false) (htrim : t.trimmed.contains site = false)
    (hhead : target.head = target'.head) (hnames : target.names = target'.names) (hinit : init.isSome = init'.isSome)
    (ht : W.Part L .part (target.fold (L.fold.both W.fold) kind) s (target'.fold (L.fold.both W.fold) kind) t)
    (hi : W.Part L .part (Expr.foldOpt (L.fold.both W.fold) init) t (Expr.foldOpt (L.fold.both W.fold) init') u) :
    W.Part L .part ((Declarator.mk site target init).fold (L.fold.both W.fold) kind) s
      ((Declarator.mk site target' init').fold (L.fold.both W.fold) kind)
      (defineVariable (.mk site target' init') u).2 := by
  refine ⟨(W.runs L).declarator kind hs htrim hhead hnames hinit ht.run hi.run, fun hr _ => ?_⟩
  have hs := State.isDead_eq_false_iff.1 hs
  have htrim : site ∉ s.trimmed := fun hmem => by
    rw [List.contains_iff_mem.2 (ht.run.visit.grows.trimmed hmem)] at htrim
    cases htrim
  have hparts := ht.append hi
  simp only [Pattern.fold_both, Expr.foldOpt_both, Declarator.fold_both] at hparts hr ⊢
  cases hp : target.isName with
  | true =>
    cases target with
    | ident id =>
      cases Ledger.Visit.ident_of_head hhead
      exact Kept.name kind hs htrim hparts hr
    | _ => cases hp
  | false =>
    have hp' : target'.isName = false := Pattern.isName_of_head hhead ▸ hp
    cases target' with
    | ident id => cases hp'
    | _ => exact Kept.pattern kind hs hp hparts hr

/-- What the state owes does not grow where a declarator loses its initializer. -/
theorem stake_trimmed (X : Finset Site) (site : Site) (t : State) :
    W.stake X (t.put site (.variable none) t.late) ≤ W.stake X t := by
  refine W.stake_le fun τ _ => ?_
  by_cases hτ : τ = site
  · subst hτ
    have hz : W.term (t.put τ (.variable none) t.late) τ ≤ W.term t τ ∨
        W.term (t.put τ (.variable none) t.late) τ = 0 := by
      unfold term
      by_cases hd : τ ∈ t.dead
      · exact .inr (if_pos hd)
      · rw [if_neg hd, State.definition?_put, show (t.put τ (.variable none) t.late).dead = t.dead from rfl, if_neg hd]
        split
        · exact .inr rfl
        · exact .inl (Nat.le_refl _)
    omega
  · exact Nat.le_of_eq (term_put_ne hτ)

/-- A declarator of a name that has been trimmed loses its initializer. -/
theorem Kept.trimmedName (hs : site ∉ s.dead)
    (h : W.Part L .part ((Pattern.ident id).fold (L.fold.both W.fold) kind) s
      ((Pattern.ident id).fold (L.fold.both W.fold) kind) t)
    (hr : W.Ready L (W.decl L kind (.mk site (.ident id) init)) s (t.put site (.variable none) t.late)) :
    W.Kept L s.trimmed (W.decl L kind (.mk site (.ident id) init)) s (W.decl L kind (.mk site (.ident id) none))
      (t.put site (.variable none) t.late) := by
  rw [Pattern.fold_both] at h
  have hr' := (Ready.parts kind hr.put)
  have hk := h.kept
    { hr' with
      ready := hr'.ready.left
      closed := trivial
      nodup := List.nodup_nil
      calm := hr'.calm.mono (List.nil_subset _) } nofun
  refine ⟨hk.sound.put nofun fun _ D _ _ => Nat.le_refl 0, fun D _ => ?_, fun X hX => ?_⟩
  · exact Uses.declared_live_le (Nat.le_refl _) site true _
  · have hacc := hk.account X (hX.mono (fun _ hx =>
      List.mem_cons_of_mem _ ((Piece.append_keys _ _).mem_iff.2 (List.mem_append_left _ hx)))
      fun _ hx => List.mem_append_left _ hx)
    have hst := W.stake_trimmed X site t
    have hA : W.uses id ≤ (((Declarator.mk site (.ident id) init).fold W.fold kind).cost []).val s.dead s.trimmed :=
      Cost.le_declared hs (Nat.le_add_right _ _)
    have hB : (((Declarator.mk site (.ident id) none).fold W.fold kind).cost []).val t.dead [] ≤ W.uses id + 0 :=
      Cost.declared_le
    have hacc : W.uses id + W.stake X t + s.references W.target ≤ W.uses id + W.stake X s + t.references W.target :=
      hacc
    show (((Declarator.mk site (.ident id) none).fold W.fold kind).cost []).val t.dead [] +
      W.stake X (t.put site (.variable none) t.late) + _ ≤
        (((Declarator.mk site (.ident id) init).fold W.fold kind).cost []).val s.dead s.trimmed + _ +
          t.references W.target
    omega

/-- The initializer of a trimmed declarator never runs, and goes without a visit. -/
theorem Part.withoutInit (init : Option Expr) (t : State) :
    W.Part L .part (Expr.foldOpt (L.fold.both W.fold) init) t (Expr.foldOpt (L.fold.both W.fold) none) t := by
  rw [Expr.foldOpt_both, Expr.foldOpt_both]
  refine ⟨.idle (.withoutInit init t), fun hr _ => ⟨hr.sound, fun _ _ => Nat.le_refl 0, fun X _ => ?_⟩⟩
  exact Nat.add_le_add_right (Nat.add_le_add_right (Nat.zero_le _) _) _

theorem Part.trimmed (hs : s.isDead site = false) (htrim : t.trimmed.contains site = true)
    (hhead : target.head = target'.head) (hnames : target.names = target'.names)
    (ht : W.Part L .part (target.fold (L.fold.both W.fold) kind) s (target'.fold (L.fold.both W.fold) kind) t) :
    W.Part L .part ((Declarator.mk site target init).fold (L.fold.both W.fold) kind) s
      ((Declarator.mk site target' none).fold (L.fold.both W.fold) kind)
      (defineVariable (.mk site target' none) t).2 := by
  refine ⟨(W.runs L).trimmed kind hs htrim hhead hnames ht.run, fun hr _ => ?_⟩
  have hs := State.isDead_eq_false_iff.1 hs
  have hparts := ht.append (Part.withoutInit init t)
  simp only [Pattern.fold_both, Expr.foldOpt_both, Declarator.fold_both] at hparts hr ⊢
  cases hp : target.isName with
  | true =>
    cases target with
    | ident id =>
      cases Ledger.Visit.ident_of_head hhead
      exact Kept.trimmedName kind hs ht hr
    | _ => cases hp
  | false =>
    have hp' : target'.isName = false := Pattern.isName_of_head hhead ▸ hp
    cases target' with
    | ident id => cases hp'
    | _ => exact Kept.pattern kind hs hp hparts hr

/-! ### Elements -/

/-- What is collected from an element. -/
abbrev elem (W : Watch) (L : Ledger) (kind : BindingKind) (d : Declarator) : Piece × Uses W :=
  (d.foldElem L.fold kind, d.foldElem W.fold kind)

/-- Elements are not inlined. -/
theorem Open.elem (h : W.Open s) (hw : W.Sound s) (hl : L.Sound s) {σ : Site} (hσ : σ ∈ L.elems) : σ ∉ W.gone := by
  intro hg
  obtain ⟨j, hj, ho⟩ := W.mem_gone.1 hg
  rcases h j hj with hu | hr
  · exact hl.not_elem (hw.dead j hj hu σ ho) hσ
  · rw [State.isReferenced_some, Bool.and_eq_true, Option.any_eq_true] at hr
    obtain ⟨⟨c, hc, -⟩, -⟩ := hr
    obtain ⟨e, he, heσ, -⟩ := hl.origins hc ((hw.origin hc).symm.trans ho)
    exact L.apart e he (heσ ▸ hσ)

theorem Part.deadElement (kind : BindingKind) {d : Declarator} (hd : s.isDead d.site = true) :
    W.Part L .part (d.foldElem (L.fold.both W.fold) kind) s (d.foldElem (L.fold.both W.fold) kind) s := by
  refine ⟨(W.runs L).deadElement kind hd, fun hr _ => ?_⟩
  rw [Declarator.foldElem_both] at hr
  refine absurd (hr.ready.elems ?_) (hr.ready.toSound.not_elem (State.isDead_iff.1 hd))
  cases d
  exact List.mem_cons_self

/-- An element is ready together with its parts. -/
theorem Ready.elemParts (hr : W.Ready L (W.elem L kind (.mk site target init)) s t) :
    W.Ready L (W.parts L kind target init) s t := by
  have hkeys : ((Declarator.mk site target init).foldElem L.fold kind).keys.Perm
      (site :: ((target.fold L.fold kind).append (Expr.foldOpt L.fold init)).keys) := List.perm_middle
  refine hr.inner ?_ hr.closed.1 rfl
  exact { hr.ready with
    nodup := (List.nodup_cons.1 (hkeys.nodup_iff.1 hr.ready.nodup)).2
    elems := fun x hx => hr.ready.elems (List.mem_cons_of_mem _ hx) }

/-- The parts of an element are visited. -/
theorem Kept.elemParts (h : W.Part L .part (W.parts L kind target init) s (W.parts L kind target' init') t)
    (hr : W.Ready L (W.elem L kind (.mk site target init)) s t) :
    W.Kept L s.trimmed (W.elem L kind (.mk site target init)) s (W.elem L kind (.mk site target' init')) t := by
  have hk := (h.kept (Ready.elemParts kind hr) nofun).mono (List.nil_subset _)
  refine hk.shut (a := W.parts L kind target init) (b := W.parts L kind target' init') hr.closed.2 fun X hX => ?_
  have hkeys : ((Declarator.mk site target init).foldElem L.fold kind).keys.Perm _ := List.perm_middle
  exact hX.mono (fun x hx => hkeys.mem_iff.2 (List.mem_cons_of_mem _ hx)) (List.Subset.refl _)

/-- What an element is defined as is never looked at. -/
theorem Kept.defineElement {R : List Site} {a b : Piece × Uses W} (h : W.Kept L R a s b t) (hs : site ∉ W.gone)
    (e : Option Expr) : W.Kept L R a s b (t.put site (.variable e) t.late) where
  sound := h.sound.put nofun fun hg => absurd hg hs
  settled := h.settled
  account X hX := by
    rw [stake_put fun hg => absurd hg hs]
    exact h.account X hX

/-- An element is visited. -/
theorem Kept.element (h : W.Part L .part (W.parts L kind target init) s (W.parts L kind target' init') t)
    (hr : W.Ready L (W.elem L kind (.mk site target init)) s (defineVariable (.mk site target' init') t).2) :
    W.Kept L s.trimmed (W.elem L kind (.mk site target init)) s (W.elem L kind (.mk site target' init'))
      (defineVariable (.mk site target' init') t).2 := by
  cases target' with
  | ident id =>
    have hk := Kept.elemParts kind h hr.put
    have hl := (h.run.visit.done (Ready.elemParts kind hr.put).ready hr.put.bounds).sound
    exact hk.defineElement (hr.put.calm.open.elem hk.sound hl (hr.ready.elems List.mem_cons_self)) init'
  | _ => exact Kept.elemParts kind h hr

theorem Part.element (hhead : target.head = target'.head) (hnames : target.names = target'.names)
    (hinit : init.isSome = init'.isSome)
    (ht : W.Part L .part (target.fold (L.fold.both W.fold) kind) s (target'.fold (L.fold.both W.fold) kind) t)
    (hi : W.Part L .part (Expr.foldOpt (L.fold.both W.fold) init) t (Expr.foldOpt (L.fold.both W.fold) init') u) :
    W.Part L .part ((Declarator.mk site target init).foldElem (L.fold.both W.fold) kind) s
      ((Declarator.mk site target' init').foldElem (L.fold.both W.fold) kind)
      (defineVariable (.mk site target' init') u).2 := by
  refine ⟨(W.runs L).element kind hhead hnames hinit ht.run hi.run, fun hr _ => ?_⟩
  have hparts := ht.append hi
  simp only [Pattern.fold_both, Expr.foldOpt_both, Declarator.foldElem_both] at hparts hr ⊢
  exact Kept.element kind hparts hr

theorem Part.trimmedElement (hhead : target.head = target'.head) (hnames : target.names = target'.names)
    (ht : W.Part L .part (target.fold (L.fold.both W.fold) kind) s (target'.fold (L.fold.both W.fold) kind) t) :
    W.Part L .part ((Declarator.mk site target init).foldElem (L.fold.both W.fold) kind) s
      ((Declarator.mk site target' none).foldElem (L.fold.both W.fold) kind)
      (defineVariable (.mk site target' none) t).2 := by
  refine ⟨(W.runs L).trimmedElement kind hhead hnames ht.run, fun hr _ => ?_⟩
  have hparts := ht.append (Part.withoutInit init t)
  simp only [Pattern.fold_both, Expr.foldOpt_both, Declarator.foldElem_both] at hparts hr ⊢
  exact Kept.element kind hparts hr

end Declarators

/-! ### Functions and classes -/

section Named

variable {W : Watch} {L : Ledger} {R : List Site} {s t : State} {a b : Piece × Uses W} {d d' : Definition} {id : Ident}
  {n m : Nat} {q : Piece}

/-- What the declaration of a function or class is charged that is not dead. -/
theorem head_charge (a : Uses W) {σ : Site} {D : List Site} (R : List Site) (hD : σ ∉ D) :
    ((a.head σ).cost []).val D R = if σ ∈ W.gone then 0 else (a.cost []).val D [] := by
  show ((a.close.cost []).declared σ true (σ ∈ W.gone ∧ σ ∉ ([] : List Site)) 0).val D [] = _
  by_cases hg : σ ∈ W.gone
  · rw [if_pos hg]
    exact (Cost.declared_cut hD ⟨rfl, .inl (decide_eq_true ⟨hg, List.not_mem_nil⟩)⟩).trans (Nat.zero_min _)
  · rw [if_neg hg]
    exact Cost.declared_place hD fun _ => ⟨decide_eq_false fun h => hg h.1, List.not_mem_nil⟩

/-- The declaration of a function or class of the given name is visited, if it is not dead. -/
theorem Kept.named (hd : d.piece L = a.1.charged n) (hu : d.uses W = a.2.close) (hu' : d'.uses W = b.2.close)
    (hn : d.isNamed = true) (hs : id.site ∉ s.dead) (h : W.Part L .list a s b t)
    (hr : W.Ready L ((L.named (some id) d (a.1.charged n)).charged m, a.2.head id.site) s
      (t.put id.site d' (Ledger.lateWith id.site d' t))) :
    W.Kept L R ((L.named (some id) d (a.1.charged n)).charged m, a.2.head id.site) s (q, b.2.head id.site)
      (t.put id.site d' (Ledger.lateWith id.site d' t)) := by
  have hready : L.Ready (L.named (some id) d (a.1.charged n)) s := charged_ready hr.ready
  have hbounds := hr.bounds.of_grows (State.put_grows Ledger.lateWith_subset)
  have hin := (h.run.visit.charged (n := n) rfl).done (Ledger.Visit.named_ready hready) hbounds
  have hdead : id.site ∉ t.dead := fun ht => hs ((Ledger.Visit.named_alive hd hn hready h.run.visit.grows hin).1 ht)
  have hdef := Ledger.Visit.named_definition hn hready
  have hlate : Ledger.lateWith id.site d' t = t.late := if_neg hdead
  rw [hlate] at hr ⊢
  have ha : W.Ready L a s t :=
    { ready := charged_ready (Ledger.Visit.named_ready hready)
      bounds := hbounds
      sound := hr.sound
      limits := hr.limits.of_leads (State.put_leads (List.Subset.refl _))
      closed := hr.closed.1
      nodup := hr.nodup
      calm := hr.calm }
  have hk := h.kept ha nofun
  have hlive {D : List Site} (hD : t.dead ⊆ D) := hk.live_le (ha.calm.buried hk.sound hr.closed) hD
  refine ⟨hk.sound.put (fun _ ht => absurd ht hdead) fun _ D hD _ => hu' ▸ hlive hD,
    fun D hD => Uses.declared_live_le (a := b.2.close) (hlive hD) id.site true 0, fun X hX => ?_⟩
  have hX : L.Spares X (L.named (some id) d (a.1.charged n)) s := hX
  have hX' : id.site ∉ X := fun hmem => (hX _ hmem).1 List.mem_cons_self
  have hdef' : (t.put id.site d' t.late).definition? id.site = some d' := by
    rw [State.definition?_put, if_pos ⟨rfl, State.lt_of_definition?
      ((hin.definitions _ (Ledger.Visit.named_apart hready)).trans hdef)⟩]
  show ((b.2.head id.site).cost []).val t.dead [] + W.stake X (t.put id.site d' t.late) + _ ≤
    ((a.2.head id.site).cost []).val s.dead R + W.stake X s + t.references W.target
  rw [head_charge a.2 R hs, head_charge b.2 [] hdead]
  by_cases hg : id.site ∈ W.gone
  · have hacc := hk.account (insert id.site X) (Ledger.Visit.named_spares hd hn hready hX)
    rw [if_pos hg, if_pos hg, stake_defined hg hX' hdef hs, stake_defined hg hX' hdef' hdead,
      stake_put fun _ => Finset.mem_insert_self _ _, hu, hu']
    show 0 + ((b.2.cost []).val t.dead [] + _) + _ ≤ 0 + ((a.2.cost []).val s.dead [] + _) + _
    have hacc : (b.2.cost []).val t.dead [] + _ + _ ≤ (a.2.cost []).val s.dead [] + _ + _ := hacc
    omega
  · have hacc := hk.account X (hX.mono (List.subset_cons_self _ _) (List.Subset.refl _))
    rw [if_neg hg, if_neg hg, stake_put fun h => absurd h hg]
    exact hacc

/-- The declaration of a function or class is visited. -/
theorem Kept.namedOpt {name : Option Ident} (hd : d.piece L = a.1.charged n) (hu : d.uses W = a.2.close)
    (hu' : d'.uses W = b.2.close) (hn : d.isNamed = true) (hs : ∀ σ ∈ (a.2.named name).heads, σ ∉ s.dead)
    (h : W.Part L .list a s b t)
    (hr : W.Ready L ((L.named name d (a.1.charged n)).charged m, a.2.named name) s (defineNamed name d' t).2) :
    W.Kept L R ((L.named name d (a.1.charged n)).charged m, a.2.named name) s (q, b.2.named name)
      (defineNamed name d' t).2 := by
  cases name with
  | none =>
    have hready : L.Ready (L.named none d (a.1.charged n)) s := charged_ready hr.ready
    have ha : W.Ready L a s t := hr.inner { hready with } hr.closed.1 rfl
    exact (h.kept ha nofun).close ha.calm hr.closed fun X hX => hX
  | some id =>
    rw [Ledger.defineNamed_eq] at hr ⊢
    exact Kept.named hd hu hu' hn (hs _ (List.mem_singleton_self _)) h hr

theorem Parts.funcDecl {f f' : Func} (hf : f.head = f'.head)
    (h : W.Part L .list (f.fold (L.fold.both W.fold) .func) s (f'.fold (L.fold.both W.fold) .func) t) :
    W.Parts L ((Stmt.func f).fold (L.fold.both W.fold)) s ((Stmt.func f').fold (L.fold.both W.fold))
      (defineFunc f' t).2 := by
  refine ⟨(W.runs L).funcDecl hf h.run, fun hr hs => ?_⟩
  simp only [Func.fold_both, Stmt.fold_both] at h hr hs ⊢
  have hb : (Stmt.func f').fold W.fold = ((f'.fold W.fold .func).named f.name) := by
    rw [Func.name_of_head hf]
    rfl
  have hdef : (defineFunc f' t).2 = (defineNamed f.name (.func f') t).2 := by
    rw [Func.name_of_head hf]
    rfl
  rw [hb, hdef]
  rw [hdef] at hr
  exact Kept.namedOpt (d := .func f) (a := (f.fold L.fold .func, f.fold W.fold .func)) rfl rfl rfl rfl hs h hr

theorem Parts.clsDecl {c c' : Class} (hc : c.head = c'.head)
    (h : W.Part L .list (c.fold (L.fold.both W.fold) .cls) s (c'.fold (L.fold.both W.fold) .cls) t) :
    W.Parts L ((Stmt.cls c).fold (L.fold.both W.fold)) s ((Stmt.cls c').fold (L.fold.both W.fold))
      (defineClass c' t).2 := by
  refine ⟨(W.runs L).clsDecl hc h.run, fun hr hs => ?_⟩
  simp only [Class.fold_both, Stmt.fold_both] at h hr hs ⊢
  have hb : (Stmt.cls c').fold W.fold = ((c'.fold W.fold .cls).named c.name) := by
    rw [Class.name_of_head hc]
    rfl
  have hdef : (defineClass c' t).2 = (defineNamed c.name (.cls c') t).2 := by
    rw [Class.name_of_head hc]
    rfl
  rw [hb, hdef]
  rw [hdef] at hr
  exact Kept.namedOpt (d := .cls c) (a := (c.fold L.fold .cls, c.fold W.fold .cls)) rfl rfl rfl rfl hs h hr

end Named

end Watch

end Deadwood
