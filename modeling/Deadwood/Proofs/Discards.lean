import Deadwood.Proofs.Released

/-!
# Rules that discard syntax

What a rule discards has its references counted out.  Nothing in it is inlined any more, so all of its uses have been
charged to it: no more references are counted out than the rule takes from the charge.
-/

namespace Deadwood

open Elimination

namespace Uses

variable {W : Watch} {a b c : Uses W} {D : List Site}

/-! ### Charges that cover the uses -/

/-- The piece is charged all of its live uses, also when more is dead than `D`. -/
def Paid (a : Uses W) (D : List Site) : Prop := ∀ D', D ⊆ D' → a.live D' ≤ (a.cost []).val D' []

theorem Paid.left (h : (a.append b).Paid D) : a.Paid D := fun D' hD => by
  have h : a.live D' + b.live D' ≤ (a.cost []).val D' [] + (b.cost []).val D' [] := h D' hD
  have := b.cost_le [] D' []
  omega

theorem Paid.right (h : (a.append b).Paid D) : b.Paid D := fun D' hD => by
  have h : a.live D' + b.live D' ≤ (a.cost []).val D' [] + (b.cost []).val D' [] := h D' hD
  have := a.cost_le [] D' []
  omega

theorem Paid.append (h : a.Paid D) (h' : b.Paid D) : (a.append b).Paid D := fun D' hD =>
  Nat.add_le_add (h D' hD) (h' D' hD)

/-- Two pieces have the same uses and are charged the same. -/
structure Alike (b c : Uses W) : Prop where
  live : ∀ D, c.live D = b.live D
  cost : ∀ D, (c.cost []).val D [] = (b.cost []).val D []

namespace Alike

theorem refl (b : Uses W) : Alike b b := ⟨fun _ => rfl, fun _ => rfl⟩

theorem of_eq (h : b = c) : Alike b c := h ▸ .refl b

theorem symm (h : Alike b c) : Alike c b := ⟨fun D => (h.live D).symm, fun D => (h.cost D).symm⟩

theorem trans (h : Alike a b) (h' : Alike b c) : Alike a c :=
  ⟨fun D => (h'.live D).trans (h.live D), fun D => (h'.cost D).trans (h.cost D)⟩

theorem append {b' c' : Uses W} (h : Alike b c) (h' : Alike b' c') : Alike (b.append b') (c.append c') :=
  ⟨fun D => congrArg₂ (· + ·) (h.live D) (h'.live D), fun D => congrArg₂ (· + ·) (h.cost D) (h'.cost D)⟩

theorem close (a : Uses W) : Alike a a.close := ⟨fun _ => rfl, fun _ => rfl⟩

theorem stmt (m : Place) (a : Uses W) : Alike a (a.stmt m) := by
  cases m <;> exact ⟨fun _ => rfl, fun _ => rfl⟩

theorem paid (h : Alike b c) (hb : b.Paid D) : c.Paid D := fun D' hD => by
  rw [h.live, h.cost]
  exact hb D' hD

/-- A piece without uses. -/
theorem of_idle (h : ∀ D, c.live D = 0) : Alike empty c :=
  ⟨h, fun D => Nat.le_zero.1 (h D ▸ c.cost_le [] D [])⟩

end Alike

/-! ### Statements -/

section Statements

variable (W)

theorem fold_empty : Stmt.empty.fold W.fold = empty := by
  ext <;> simp [Stmt.fold, Watch.fold, Stmt.place, stmt, shut, empty]

theorem fold_isEmpty {x : Stmt} (h : x.isEmpty = true) : x.fold W.fold = empty := by
  cases x with
  | empty => exact fold_empty W
  | block body =>
    cases List.isEmpty_iff.1 h
    ext <;> simp [Stmt.fold, Stmt.foldList, Watch.fold, Stmt.place, stmt, close, empty]
  | _ => cases h

/-- Empty statements do not use anything. -/
theorem foldList_filter (ts : List Stmt) :
    Stmt.foldList W.fold (ts.filter fun y => !y.isEmpty) = Stmt.foldList W.fold ts := by
  induction ts with
  | nil => rfl
  | cons x ts ih =>
    rw [List.filter_cons]
    cases hx : x.isEmpty with
    | true => exact ih.trans ((congrArg (append · _) (fold_isEmpty W hx)).trans (empty_append _)).symm
    | false => exact congrArg (append _) ih

theorem foldList_single (x : Stmt) : Stmt.foldList W.fold [x] = x.fold W.fold := W.fold_lawful.empty_right _

theorem asOne_alike (ts : List Stmt) : Alike (Stmt.foldList W.fold ts) ((asOne ts).fold W.fold) := by
  match ts with
  | [] => exact .of_eq (fold_empty W).symm
  | [x] => exact .of_eq (foldList_single W x)
  | x :: y :: ts => exact .close (Stmt.foldList W.fold (x :: y :: ts))

theorem branchStmts_alike (x : Stmt) : Alike (x.fold W.fold) (Stmt.foldList W.fold (branchStmts x)) := by
  unfold branchStmts
  split
  next body =>
    split
    · exact .of_eq (foldList_single W _).symm
    · exact (Alike.close (Stmt.foldList W.fold body)).symm
  · split
    · rw [foldList_single]
      exact (Alike.of_eq (foldList_single W x).symm).trans (.close (Stmt.foldList W.fold [x]))
    · exact .of_eq (foldList_single W x).symm

theorem negate_alike (e : Expr) : Alike (e.fold W.fold) (e.negate.fold W.fold) := by
  unfold Expr.negate
  split
  · exact (Alike.close (Expr.fold W.fold _)).symm
  · exact .close (Expr.fold W.fold _)

/-- Variables that outlive their declaration use nothing. -/
theorem survivingVars_idle (s : State) (x : Stmt) : Alike empty (Stmt.foldList W.fold (s.survivingVars x)) := by
  have hbare (ids : List Ident) (D : List Site) :
      (Declarator.foldList W.fold .var (ids.map Ledger.bare)).live D = 0 := by
    induction ids with
    | nil => rfl
    | cons id ids ih =>
      have hz : ((Ledger.bare id).fold W.fold .var).live D = 0 := by
        have hu : W.uses { id with site := 0 } = 0 := if_neg (by rw [W.unsited]; nofun)
        show (if 0 ∈ D then 0 else W.uses { id with site := 0 } + 0) = 0
        rw [hu]
        exact ite_self 0
      exact (congrArg₂ (· + ·) hz ih)
  refine .of_idle fun D => ?_
  rcases Ledger.survivingVars_eq s x with ⟨-, he⟩ | he
  · rw [he]
    rfl
  · rw [he, foldList_single]
    exact hbare _ D

/-! ### Names of declarations -/

variable {W}

theorem foldList_heads (kind : BindingKind) (ds : List Declarator) :
    (Declarator.foldList W.fold kind ds).heads = [] := by
  induction ds with
  | nil => rfl
  | cons d ds ih =>
    cases d
    exact ih

theorem fold_heads (x : Stmt) : (x.fold W.fold).heads = ((declaredName x).map Ident.site).toList := by
  cases x with
  | func f =>
    show (named f.name _).heads = _
    rw [declaredName]
    cases f.name <;> rfl
  | cls c =>
    show (named c.name _).heads = _
    rw [declaredName]
    cases c.name <;> rfl
  | decl kind ds => exact foldList_heads kind.bindingKind ds
  | _ => rfl

theorem fold_tops_named {x : Stmt} {id : Ident} (h : declaredName x = some id) : (x.fold W.fold).tops = [id.site] := by
  cases x with
  | func f =>
    show (named f.name _).tops = _
    rw [show f.name = some id from h]
    rfl
  | cls c =>
    show (named c.name _).tops = _
    rw [show c.name = some id from h]
    rfl
  | _ => cases h

theorem foldList_tops (kind : BindingKind) (ds : List Declarator) :
    (Declarator.foldList W.fold kind ds).tops = ds.map Declarator.site := by
  induction ds with
  | nil => rfl
  | cons d ds ih =>
    cases d
    exact congrArg (_ :: ·) ih

/-- What can be referred to from outside of a statement are its declarators, or its name. -/
theorem fold_tops (x : Stmt) :
    (x.fold W.fold).tops = x.declarators.map Declarator.site ++ ((declaredName x).map Ident.site).toList := by
  cases hn : declaredName x with
  | some id =>
    rw [fold_tops_named hn]
    cases x with
    | decl => cases hn
    | _ => rfl
  | none =>
    rw [Option.map_none, Option.toList_none, List.append_nil]
    cases x with
    | decl kind ds => exact foldList_tops kind.bindingKind ds
    | func f =>
      show (named f.name _).tops = _
      rw [show f.name = none from hn]
      rfl
    | cls c =>
      show (named c.name _).tops = _
      rw [show c.name = none from hn]
      rfl
    | _ => rfl

theorem declaredName_of_head {x y : Stmt} (h : x.head = y.head) : declaredName x = declaredName y := by
  have hh (x : Stmt) : declaredName x.head = declaredName x := by
    cases x with
    | func f => cases f; rfl
    | cls c => cases c; rfl
    | _ => rfl
  rw [← hh x, h, hh]

end Statements

end Uses

namespace Watch

variable {W : Watch} {L : Ledger} {R xs : List Site} {a b c : Piece × Uses W} {s t u v : State}

/-! ### Steps before and after a visit -/

/-- The references that are counted out are uses in what is released. -/
theorem Sound.released {ids : List Ident} (h : W.Sound s) (hr : s.Releases t ids) :
    s.references W.target ≤ t.references W.target + W.count ids := by
  refine Nat.le_trans (hr W.target) (Nat.add_le_add_left (Nat.le_of_eq (List.countP_congr fun id _ => ?_)) _)
  rw [← h.bound]
  exact Iff.rfl

theorem Sound.released_expr {e : Expr} (h : W.Sound s) (hr : s.Releases t (e.fold s.liveIdents)) :
    s.references W.target ≤ t.references W.target + (e.fold W.fold).live s.dead :=
  (h.released hr).trans (Nat.add_le_add_left (Expr.fold_related (s.liveIdents_relates W) e) _)

theorem Sound.released_opt {e : Option Expr} (h : W.Sound s) (hr : s.Releases t (Expr.foldOpt s.liveIdents e)) :
    s.references W.target ≤ t.references W.target + (Expr.foldOpt W.fold e).live s.dead :=
  (h.released hr).trans (Nat.add_le_add_left (Expr.foldOpt_related (s.liveIdents_relates W) e) _)

theorem Sound.released_stmt {x : Stmt} (h : W.Sound s) (hr : s.Releases t (x.fold s.liveIdents)) :
    s.references W.target ≤ t.references W.target + (x.fold W.fold).live s.dead :=
  (h.released hr).trans (Nat.add_le_add_left (Stmt.fold_related (s.liveIdents_relates W) x) _)

/-- After a step that only settles the state and leaves a piece that is charged less. -/
theorem Kept.after (h : W.Kept L R a s b t) (hs : t.Settles u) (hu : W.Sound u)
    (hc : ∀ D, u.dead ⊆ D → c.2.live D ≤ (c.2.cost a.2.tops).val D [])
    (hr : (c.2.cost []).val u.dead [] + t.references W.target ≤ (b.2.cost []).val t.dead [] + u.references W.target) :
    W.Kept L R a s c u where
  sound := hu
  settled := hc
  account X hX := by
    have := h.account X hX
    have := W.stake_settles hs (X := X)
    omega

theorem Kept.after_paid (h : W.Kept L R a s b t) (hs : t.Settles u) (hu : W.Sound u) (hc : c.2.Paid u.dead)
    (hr : (c.2.cost []).val u.dead [] + t.references W.target ≤ (b.2.cost []).val t.dead [] + u.references W.target) :
    W.Kept L R a s c u :=
  h.after hs hu (fun D hD => Nat.le_trans (hc D hD) (c.2.cost_mono D [] (List.nil_subset _))) hr

/-- Before a visit a step that takes from the charge what is counted out. -/
theorem Kept.before {R' : List Site} (h : W.Kept L R' a t b u) (hX : ∀ X, L.Spares X a.1 s → L.Spares X a.1 t)
    (hc : ∀ X, L.Spares X a.1 s → (a.2.cost []).val t.dead R' + s.references W.target + W.stake X t ≤
      (a.2.cost []).val s.dead R + t.references W.target + W.stake X s) : W.Kept L R a s b u where
  sound := h.sound
  settled := h.settled
  account X hX' := by
    have := h.account X (hX X hX')
    have := hc X hX'
    omega

/-- A piece is discarded, and nothing of it is left that uses the binding. -/
theorem Kept.discard (hs : s.Settles u) (hu : W.Sound u) (hc : Uses.Alike .empty c.2)
    (hr : s.references W.target ≤ (a.2.cost []).val s.dead R + u.references W.target) : W.Kept L R a s c u where
  sound := hu
  settled D _ := by
    rw [hc.live]
    exact Nat.zero_le _
  account X _ := by
    have := W.stake_settles hs (X := X)
    have hz : (c.2.cost []).val u.dead [] = 0 := hc.cost _
    omega

theorem Kept.paid (h : W.Kept L R a s b t) (hb : W.Buried a.2.tops t.dead) :
    b.2.Paid t.dead := fun _ hD => h.live_le hb hD

/-- Nothing is inlined any more in a piece that is discarded. -/
theorem Ready.discarded (hr : W.Ready L a s u) (hs : s.Holds u) (hb : W.Buried a.2.tops s.dead) :
    a.2.live s.dead ≤ (a.2.cost []).val s.dead [] :=
  a.2.live_le hr.closed (fun j hj σ hσ hc => hr.sound.dead j hj (hs.bound (hr.calm.covered hj hc)) σ hσ) hb

/-! ### Declarations that are removed -/

variable (kind : BindingKind) {ds : List Declarator}

/-- The initializers of declarators that are dead or trimmed in `u` are charged all of their uses as long as they are
there. -/
def Clear (W : Watch) (ds : List Declarator) (s u : State) : Prop :=
  ∀ d ∈ ds, d.site ∈ u.dead ∨ d.target.isName = true ∧ d.site ∈ u.trimmed → ∀ D, s.dead ⊆ D → d.site ∉ D →
    (Expr.foldOpt W.fold d.init).live D ≤ ((Expr.foldOpt W.fold d.init).cost []).val D []

theorem Clear.mono {ds' : List Declarator} (h : W.Clear ds s u) (hds : ds' ⊆ ds) (hs : s.dead ⊆ t.dead) :
    W.Clear ds' t u :=
  fun d hd hu D hD => h d (hds hd) hu D (List.Subset.trans hs hD)

/-- What a declarator is charged that is neither dead nor inlined. -/
theorem place_charge (d : Declarator) {D : List Site} (hD : d.site ∉ D) {G : List Site}
    (hg : d.site ∈ W.gone → d.site ∈ G) :
    ((d.fold W.fold kind).cost G).val D [] =
      ((d.target.fold W.fold kind).cost []).val D [] + ((Expr.foldOpt W.fold d.init).cost []).val D [] := by
  cases d with
  | mk site target init =>
    exact Cost.declared_place hD fun _ => ⟨decide_eq_false fun h => h.2 (hg h.1), List.not_mem_nil⟩

/-- A declarator that is dead is not charged. -/
theorem dead_charge (d : Declarator) {D : List Site} (R : List Site) (hD : d.site ∈ D) :
    ((d.fold W.fold kind).cost []).val D R = 0 := by
  cases d
  exact Cost.declared_dead hD

/-- If a list is charged all of its live uses, so is each of its declarators. -/
theorem mem_paid {d : Declarator} {D G : List Site} (hd : d ∈ ds)
    (h : (Declarator.foldList W.fold kind ds).live D ≤ ((Declarator.foldList W.fold kind ds).cost G).val D []) :
    (d.fold W.fold kind).live D ≤ ((d.fold W.fold kind).cost G).val D [] := by
  induction ds with
  | nil => cases hd
  | cons e ds ih =>
    have h : (e.fold W.fold kind).live D + (Declarator.foldList W.fold kind ds).live D ≤
      ((e.fold W.fold kind).cost G).val D [] + ((Declarator.foldList W.fold kind ds).cost G).val D [] := h
    have h₁ := (e.fold W.fold kind).cost_le G D []
    have h₂ := (Declarator.foldList W.fold kind ds).cost_le G D []
    rcases List.mem_cons.1 hd with rfl | hd
    · omega
    · exact ih hd (by omega)

/-- Declarators that have been visited are clear. -/
theorem clear_of_settled {G : List Site} (hG : ds.map Declarator.site ⊆ G)
    (h : ∀ D, t.dead ⊆ D →
      (Declarator.foldList W.fold kind ds).live D ≤ ((Declarator.foldList W.fold kind ds).cost G).val D []) :
    W.Clear ds t u := by
  intro d hd _ D hD hsite
  have hone := mem_paid kind hd (h D hD)
  rw [place_charge kind d hsite fun _ => hG (List.mem_map_of_mem hd)] at hone
  have hlive : (d.fold W.fold kind).live D =
      (d.target.fold W.fold kind).live D + (Expr.foldOpt W.fold d.init).live D := by
    cases d
    exact if_neg hsite
  have := (d.target.fold W.fold kind).cost_le [] D []
  omega

/-- A declarator is removed that is not used. -/
theorem removeDeclarator_released {d : Declarator} (hw : W.Sound v) (hl : L.Sound v) (hls : L.Lists [d] v)
    (ho : W.Open v) (hc : W.Clear [d] v (removeDeclarator d v).2) :
    W.Sound (removeDeclarator d v).2 ∧
      ((d.fold W.fold kind).cost []).val (removeDeclarator d v).2.dead [] + v.references W.target ≤
        ((d.fold W.fold kind).cost []).val v.dead [] + (removeDeclarator d v).2.references W.target := by
  have hmem := List.mem_singleton_self d
  rcases removeDeclarator_cases d v with ⟨n, he, hs⟩ | ⟨site, id, init, rfl, hd, hu, -, hs, hdead, -, hrel⟩
  · rw [he]
    exact ⟨hw.settles hs fun _ hσ => .inl hσ, Nat.le_refl _⟩
  · have hd := State.isDead_eq_false_iff.1 hd
    have hg : site ∉ W.gone := ho.spared hw hl (hls.entries _ hmem)
      (fun y hy => by rw [List.mem_singleton.1 hy]; exact hu) hd
    refine ⟨hw.settles hs fun σ hσ => ?_, ?_⟩
    · rw [hdead] at hσ
      rcases List.mem_cons.1 hσ with rfl | hσ
      · exact .inr (hls.unnamed _ hmem)
      · exact .inl hσ
    · have hz := dead_charge (W := W) kind (.mk site (.ident id) init)
        (D := (removeDeclarator (.mk site (.ident id) init) v).2.dead)
        [] (hdead ▸ List.mem_cons_self)
      have hp := place_charge (W := W) kind (.mk site (.ident id) init) (D := v.dead) (G := []) hd fun h => absurd h hg
      have hcl := hc _ hmem (.inl (hdead ▸ List.mem_cons_self)) v.dead (List.Subset.refl _) hd
      have hrel := hw.released_opt hrel
      simp only [Declarator.init] at hp hcl
      omega

/-- The declarators of a list are removed that are not used. -/
theorem removeDeclarators_released (hw : W.Sound v) (hl : L.Sound v) (hls : L.Lists ds v)
    (ho : W.Open (removeDeclarators ds v).2) (hc : W.Clear ds v (removeDeclarators ds v).2) :
    W.Sound (removeDeclarators ds v).2 ∧
      ((Declarator.foldList W.fold kind ds).cost []).val (removeDeclarators ds v).2.dead [] + v.references W.target ≤
        ((Declarator.foldList W.fold kind ds).cost []).val v.dead [] +
          (removeDeclarators ds v).2.references W.target := by
  induction ds generalizing v with
  | nil => exact ⟨hw, Nat.le_refl _⟩
  | cons d ds ih =>
    have hs := removeDeclarator_settles d v
    have hs' := removeDeclarators_settles ds (removeDeclarator d v).2
    have hds : L.Lists ds v := ⟨fun e he => hls.entries e (List.mem_cons_of_mem _ he),
      fun e he => hls.unnamed e (List.mem_cons_of_mem _ he)⟩
    have hd : L.Lists [d] v :=
      ⟨fun e he => hls.entries e (List.mem_singleton.1 he ▸ List.mem_cons_self),
        fun e he => hls.unnamed e (List.mem_singleton.1 he ▸ List.mem_cons_self)⟩
    have hc₁ : W.Clear [d] v (removeDeclarator d v).2 := fun e he hu => by
      refine hc e (List.mem_singleton.1 he ▸ List.mem_cons_self) (hu.imp (fun h => hs'.dead h) fun h => ⟨h.1, ?_⟩)
      exact hs'.trimmed ▸ h.2
    have hone := removeDeclarator_released kind hw hl hd (ho.holds (hs.trans hs').holds) hc₁
    have hrest := ih hone.1 (Ledger.removeDeclarator_sound hl hd) (hds.settles hs) ho
      (hc.mono (List.subset_cons_self _ _) hs.dead)
    refine ⟨hrest.1, ?_⟩
    have h₁ := ((d.fold W.fold kind).cost []).antitone hs'.dead (List.Subset.refl [])
    have h₂ := ((Declarator.foldList W.fold kind ds).cost []).antitone hs.dead (List.Subset.refl [])
    have h₃ := hone.2
    have h₄ := hrest.2
    show ((d.fold W.fold kind).cost []).val (removeDeclarators ds (removeDeclarator d v).2).2.dead [] +
      ((Declarator.foldList W.fold kind ds).cost []).val (removeDeclarators ds (removeDeclarator d v).2).2.dead [] +
      v.references W.target ≤ ((d.fold W.fold kind).cost []).val v.dead [] +
      ((Declarator.foldList W.fold kind ds).cost []).val v.dead [] +
      (removeDeclarators ds (removeDeclarator d v).2).2.references W.target
    omega

/-- What is ready to be visited to a state is ready to be visited to one before it. -/
theorem Ready.past (h : W.Ready L a s u) (hs : t.Holds u) : W.Ready L a s t where
  ready := h.ready
  bounds := h.bounds.of_grows hs.toGrows
  sound := h.sound
  limits := h.limits.of_leads hs.toLeads
  closed := h.closed
  nodup := h.nodup
  calm j hj := (h.calm j hj).imp hs.bound fun ⟨y, hy, hm, hb, hr⟩ =>
    ⟨y, hy, fun hmem => hm (hs.moved hmem), hb, hs.referenced hr⟩

theorem sites_of_heads {ds ds' : List Declarator} (hh : ds.map Declarator.head = ds'.map Declarator.head) :
    ds'.map Declarator.site = ds.map Declarator.site := by
  have hh := congrArg (List.map Declarator.site) hh
  rw [List.map_map, List.map_map] at hh
  have hsite : Declarator.site ∘ Declarator.head = Declarator.site := funext fun d => by cases d; rfl
  rw [hsite] at hh
  exact hh.symm

/-- The declarators in the head of a loop are removed after they have been visited. -/
theorem Part.loopHead (kind : BindingKind) {ds ds' : List Declarator}
    (hh : ds.map Declarator.head = ds'.map Declarator.head)
    (h : W.Part L .slot (Declarator.foldList (L.fold.both W.fold) kind ds) s
      (Declarator.foldList (L.fold.both W.fold) kind ds') t) :
    W.Part L .slot (Declarator.foldList (L.fold.both W.fold) kind ds) s
      (Declarator.foldList (L.fold.both W.fold) kind ds')
      (removeDeclarators ds' t).2 := by
  refine ⟨(W.runs L).loopHead kind hh h.run, fun hr hok => ?_⟩
  have hs := removeDeclarators_settles ds' t
  have hr' := hr.past hs.holds
  have hk := h.kept hr' hok
  have hd := h.run.visit.done hr'.ready hr'.bounds
  simp only [Declarator.foldList_both] at hr hk hd ⊢
  have hrel := removeDeclarators_released kind hk.sound hd.sound (hd.lists kind hr.ready.lists hh (List.Subset.refl _))
    hr.calm.open (clear_of_settled kind (Uses.foldList_tops (W := W) kind ds ▸ sites_of_heads hh ▸ List.Subset.refl _)
      hk.settled)
  exact hk.after hs hrel.1 (fun D hD => hk.settled D (List.Subset.trans hs.dead hD)) hrel.2

/-- A branch takes the place of a conditional expression. -/
theorem Part.conditional (role : OperandRole) {test yes no test' yes' no' : Expr}
    (h : W.Part L .part ((Expr.cond test yes no).fold (L.fold.both W.fold)) s
      ((Expr.cond test' yes' no').fold (L.fold.both W.fold)) t) :
    W.Part L .part ((Expr.cond test yes no).fold (L.fold.both W.fold)) s
      ((foldConditional role test' yes' no' t).1.fold (L.fold.both W.fold))
        (foldConditional role test' yes' no' t).2 := by
  refine ⟨(W.runs L).conditional role h.run, fun hr _ => ?_⟩
  have hs := Ledger.foldConditional_settles role test' yes' no' t
  have hk := h.kept (hr.past hs.holds) nofun
  simp only [Expr.fold_both] at hk ⊢
  have hpaid : ((test'.fold W.fold).append ((yes'.fold W.fold).append (no'.fold W.fold))).Paid t.dead := hk.settled
  rcases foldConditional_cases role test' yes' no' t with he | ⟨keep, drop, hkd, hout, hrec, hrel⟩
  · rw [he]
    simp only [State.renewExpr_early hk.sound.late]
    exact hk
  · simp only [State.renewExpr_early hk.sound.late] at hkd hrel
    have halike : Uses.Alike (keep.fold W.fold) ((foldConditional role test' yes' no' t).1.fold W.fold) := by
      rcases hout with hout | hout
      · rw [hout]
        exact .refl _
      · rw [hout]
        exact ⟨fun D => Nat.zero_add _, fun D => Nat.zero_add _⟩
    have hparts : (keep.fold W.fold).Paid t.dead ∧ (drop.fold W.fold).Paid t.dead ∧
        ∀ D, ((yes'.fold W.fold).cost []).val D [] + ((no'.fold W.fold).cost []).val D [] =
          ((keep.fold W.fold).cost []).val D [] + ((drop.fold W.fold).cost []).val D [] := by
      rcases hkd with ⟨rfl, rfl⟩ | ⟨rfl, rfl⟩
      · exact ⟨hpaid.right.left, hpaid.right.right, fun _ => rfl⟩
      · exact ⟨hpaid.right.right, hpaid.right.left, fun _ => Nat.add_comm _ _⟩
    obtain ⟨hkeep, hdrop, hsum⟩ := hparts
    refine hk.after_paid hs (hk.sound.settles hs fun σ hσ => .inl (hrec.dead_eq ▸ hσ))
      (hrec.dead_eq ▸ halike.paid hkeep) ?_
    have hcount : W.count (test'.fold t.liveIdents ++ drop.fold t.liveIdents) ≤
        (test'.fold W.fold).live t.dead + (drop.fold W.fold).live t.dead := by
      rw [count, List.countP_append]
      exact Nat.add_le_add (Expr.fold_related (t.liveIdents_relates W) test')
        (Expr.fold_related (t.liveIdents_relates W) drop)
    have hrel := hk.sound.released hrel
    have h₁ := hpaid.left t.dead (List.Subset.refl _)
    have h₂ := hdrop t.dead (List.Subset.refl _)
    have h₃ := hsum t.dead
    rw [halike.cost, hrec.dead_eq]
    show _ ≤ ((test'.fold W.fold).cost []).val t.dead [] + (((yes'.fold W.fold).cost []).val t.dead [] +
      ((no'.fold W.fold).cost []).val t.dead []) + _
    omega

/-! ### What has not been visited yet -/

theorem init_sites (d : Declarator) : (Expr.foldOpt W.fold d.init).sites ⊆ (d.fold W.fold kind).sites := by
  cases d with
  | mk site target init =>
    rw [decl_sites]
    exact List.subset_append_right _ _

theorem mem_sites {d : Declarator} (hd : d ∈ ds) :
    (d.fold W.fold kind).sites ⊆ (Declarator.foldList W.fold kind ds).sites := by
  induction ds with
  | nil => cases hd
  | cons e ds ih =>
    rcases List.mem_cons.1 hd with rfl | hd
    · exact List.subset_append_left _ _
    · exact fun _ hx => List.mem_append_right _ (ih hd hx)

/-- What stands in a declarator that is dead or trimmed is not among the references of its list any more. -/
theorem discarded_refs {d : Declarator} {D R : List Site}
    (hn : (Declarator.foldList W.fold kind ds).sites.Nodup) (hd : d ∈ ds)
    (hu : d.site ∈ D ∨ d.target.isName = true ∧ d.site ∈ R) {y : Site} (hy : y ∈ (d.fold W.fold kind).sites) :
    y ∉ (Declarator.foldList W.fold kind ds).refs D R := by
  have hnil : (d.fold W.fold kind).refs D R = [] := by
    cases d
    exact if_pos hu
  induction ds with
  | nil => cases hd
  | cons e ds ih =>
    have hn : ((e.fold W.fold kind).sites ++ (Declarator.foldList W.fold kind ds).sites).Nodup := hn
    obtain ⟨-, hn', hdis⟩ := List.nodup_append.1 hn
    intro hmem
    rcases List.mem_cons.1 hd with rfl | hd
    · rcases List.mem_append.1 hmem with hmem | hmem
      · rw [hnil] at hmem
        cases hmem
      · exact hdis y hy y (Uses.refs_subset _ D R hmem) rfl
    · rcases List.mem_append.1 hmem with hmem | hmem
      · exact hdis y (Uses.refs_subset _ D R hmem) y (mem_sites kind hd hy) rfl
      · exact ih hn' hd hmem

theorem mem_closed {d : Declarator} (hd : d ∈ ds) (h : (Declarator.foldList W.fold kind ds).closed) :
    (d.fold W.fold kind).closed := by
  induction ds with
  | nil => cases hd
  | cons e ds ih =>
    rcases List.mem_cons.1 hd with rfl | hd
    · exact h.1
    · exact ih hd h.2

/-- Declarators that have not been visited are clear, as a visit does not find any references in those that are dead or
trimmed before it. -/
theorem Ready.clear {kind : DeclKind}
    (hr : W.Ready L ((Stmt.decl kind ds).fold L.fold, (Stmt.decl kind ds).fold W.fold) s t)
    (hs : s.Holds u)
    (hk : ∀ j, t.Unbound j → u.Unbound j ∨
      ∃ y ∈ ((Stmt.decl kind ds).fold W.fold).refs u.dead u.trimmed, u.info.boundAt? y = some j) : W.Clear ds s u := by
  intro d hd hu D hD hsite
  have hcl := mem_closed kind.bindingKind hd hr.closed
  have hset : W.Settled (Expr.foldOpt W.fold d.init).sites s.dead := by
    intro j hj σ hσ hc
    have hsites : (Expr.foldOpt W.fold d.init).sites ⊆ ((Stmt.decl kind ds).fold W.fold).sites :=
      List.Subset.trans (init_sites kind.bindingKind d) (mem_sites kind.bindingKind hd)
    refine hr.sound.dead j hj (hs.bound ((hk j (hr.calm.covered hj (hc.mono hsites))).resolve_right ?_)) σ hσ
    rintro ⟨y, hy, hb⟩
    rw [hs.boundAt?, hr.sound.bound] at hb
    exact discarded_refs kind.bindingKind hr.nodup hd hu (init_sites kind.bindingKind d (hc y hb)) hy
  cases d with
  | mk site target init =>
    exact (Expr.foldOpt W.fold init).live_le hcl.1.2 (fun j hj σ hσ hc => hD (hset j hj σ hσ hc))
      fun σ hσ hg => absurd hg (hcl.2 σ (List.mem_append_right _ hσ))

/-! ### Declarations that are entered or removed -/

section Removing

variable {x : Stmt}

theorem declared_entry {id : Ident} (hn : declaredName x = some id) (hr : L.Ready (x.fold L.fold) s) :
    (id.site, [id.site]) ∈ L.entries := by
  cases x with
  | func f =>
    have hr : L.Ready (L.named f.name (.func f) ((f.fold L.fold .func).charged _)) s := charged_ready hr
    rw [show f.name = some id from hn] at hr
    exact hr.entries List.mem_cons_self
  | cls c =>
    have hr : L.Ready (L.named c.name (.cls c) ((c.fold L.fold .cls).charged _)) s := charged_ready hr
    rw [show c.name = some id from hn] at hr
    exact hr.entries List.mem_cons_self
  | _ => cases hn

theorem declared_definition {id : Ident} (hn : declaredName x = some id) (hr : L.Ready (x.fold L.fold) s) :
    ∃ d, s.definition? id.site = some d ∧ d.isNamed = true := by
  cases x with
  | func f =>
    have hr : L.Ready (L.named f.name (.func f) ((f.fold L.fold .func).charged _)) s := charged_ready hr
    rw [show f.name = some id from hn] at hr
    exact ⟨_, Ledger.Visit.named_definition rfl hr, rfl⟩
  | cls c =>
    have hr : L.Ready (L.named c.name (.cls c) ((c.fold L.fold .cls).charged _)) s := charged_ready hr
    rw [show c.name = some id from hn] at hr
    exact ⟨_, Ledger.Visit.named_definition rfl hr, rfl⟩
  | _ => cases hn

/-- The function or class that a statement declares is buried if it is not used. -/
theorem Open.buried {id : Ident} (h : W.Open s) (hw : W.Sound s) (hl : L.Sound s) (hn : declaredName x = some id)
    (he : (id.site, [id.site]) ∈ L.entries) (hu : s.isUsed id = false) : W.Buried (x.fold W.fold).tops s.dead := by
  intro σ hσ hg
  by_contra hd
  rw [Uses.fold_tops_named hn] at hσ
  obtain rfl := List.mem_singleton.1 hσ
  exact h.spared hw hl he (fun y hy => by rw [List.mem_singleton.1 hy]; exact hu) hd hg

/-- What is known of a piece that a run has gone through, as it is needed to say what is left in it. -/
theorem Run.found (h : W.Run L xs a u b t) (j : BindingId) (hj : t.Unbound j) :
    u.Unbound j ∨ ∃ y ∈ a.2.refs u.dead u.trimmed, u.info.boundAt? y = some j :=
  (h.kills j hj).imp id fun ⟨y, hy, _, hb, _⟩ => ⟨y, hy, hb⟩

/-- Nothing is left of a declaration that is removed. -/
theorem Kept.removed (hx : (removeDeclaration x s).1 = true)
    (hr : W.Ready L (x.fold L.fold, x.fold W.fold) s (removeDeclaration x s).2)
    (hc : Uses.Alike .empty c.2) :
    W.Kept L [] (x.fold L.fold, x.fold W.fold) s c (removeDeclaration x s).2 := by
  rcases removeDeclaration_cases x s with he | ⟨kind, ds, rfl, he⟩ | ⟨hn, hu, -, hrec, hrel⟩
  · rw [he] at hx
    cases hx
  · rw [he] at hr ⊢
    have hs := removeDeclarators_settles ds s
    have hl : L.Lists ds s := hr.ready.declarators
    have hrem := removeDeclarators_released kind.bindingKind hr.sound hr.ready.toSound hl hr.calm.open
      (hr.clear hs.holds fun j hj => .inl hj)
    have hle : s.references W.target ≤ ((Declarator.foldList W.fold kind.bindingKind ds).cost []).val s.dead [] +
        (removeDeclarators ds s).2.references W.target := by
      have := hrem.2
      omega
    exact .discard hs hrem.1 hc hle
  · obtain ⟨id, hid⟩ := Option.isSome_iff_exists.1 hn
    have hs := hrec.toSettles
    have hb := (hr.calm.open.holds hs.holds).buried hr.sound hr.ready.toSound hid (declared_entry hid hr.ready)
      (hu id hid)
    have hpaid := hr.discarded hs.holds hb
    refine .discard hs (hr.sound.settles hs fun σ hσ => .inl (hrec.dead_eq ▸ hσ)) hc ?_
    have := hr.sound.released_stmt hrel
    dsimp only at hpaid ⊢
    omega

theorem Whole.removed (hx : (removeDeclaration x s).1 = true) :
    W.Whole L (x.fold (L.fold.both W.fold)) s (L.fold.both W.fold).empty (removeDeclaration x s).2 ∧
      W.Whole L (x.fold (L.fold.both W.fold)) s (Stmt.empty.fold (L.fold.both W.fold)) (removeDeclaration x s).2 := by
  have hrun := (W.runs L).removed hx
  refine ⟨⟨hrun.1, fun hr _ => ?_⟩, hrun.2, fun hr _ => ?_⟩
  · rw [Stmt.fold_both] at hr ⊢
    exact Kept.removed hx hr (.refl _)
  · rw [Stmt.fold_both] at hr ⊢
    rw [Stmt.fold_both]
    exact Kept.removed hx hr (.of_eq (Uses.fold_empty W).symm)

/-- A declaration loses what is not used before it is visited. -/
theorem Whole.entered (hx : (removeDeclaration x s).1 = false)
    (h : W.Whole L (x.fold (L.fold.both W.fold)) (removeDeclaration x s).2 b t) :
    W.Whole L (x.fold (L.fold.both W.fold)) s b t := by
  refine ⟨(W.runs L).entered hx h.run, fun hr hok => ?_⟩
  rcases removeDeclaration_cases x s with he | ⟨kind, ds, rfl, he⟩ | ⟨-, -, he, -⟩
  · rw [he] at h
    exact h.kept hr hok
  · have hs := removeDeclaration_settles (.decl kind ds) s
    rw [Stmt.fold_both] at hr h ⊢
    have hready := (Ledger.Before.of_settles hr.ready hs
      (Ledger.removeDeclaration_sound hr.ready.toSound hr.ready.declarators)
      (Ledger.removeDeclaration_keys _) (Ledger.kept_cost _ hx)).ready
    have hopen := hr.calm.open.run h.run
    have hclear := hr.clear hs.holds h.run.found
    rw [he] at h hs hready hopen hclear
    have hl : L.Lists ds s := hr.ready.declarators
    have hrem := removeDeclarators_released kind.bindingKind hr.sound hr.ready.toSound hl hopen hclear
    have hk := h.kept { hr with ready := hready, sound := hrem.1 } fun σ hσ => by
      rw [Uses.fold_heads] at hσ
      cases hσ
    refine hk.before (fun X hX σ hσ => ⟨(hX σ hσ).1, fun d hd => (hX σ hσ).2 d (hs.definition? σ ▸ hd)⟩) fun X _ => ?_
    exact Nat.add_le_add hrem.2 (W.stake_settles hs)
  · rw [hx] at he
    cases he

end Removing

/-! ### Finishing statements -/

section Finishing

variable {x y : Stmt} {ts : List Stmt} {r : Piece}

/-- What is left of a statement is charged all of its uses, in a list or alone. -/
theorem Kept.finishes (h : W.Kept L R a s b t) (hs : t.Settles u) (hu : W.Sound u)
    (hp : (Stmt.foldList W.fold ts).Paid u.dead)
    (hr : ((Stmt.foldList W.fold ts).cost []).val u.dead [] + t.references W.target ≤
      (b.2.cost []).val t.dead [] + u.references W.target) (q q' : Piece) :
    W.Kept L R a s (q, Stmt.foldList W.fold ts) u ∧ W.Kept L R a s (q', (asOne ts).fold W.fold) u := by
  have ha := Uses.asOne_alike W ts
  refine ⟨h.after_paid hs hu hp hr, h.after_paid hs hu (ha.paid hp) ?_⟩
  rw [ha.cost]
  exact hr

/-- A single statement is left as the visit has left it, but for what is buried. -/
theorem Kept.single (h : W.Kept L R a s (r, y.fold W.fold) u) (q q' : Piece) :
    W.Kept L R a s (q, Stmt.foldList W.fold [y]) u ∧ W.Kept L R a s (q', (asOne [y]).fold W.fold) u := by
  rw [Uses.foldList_single]
  exact ⟨⟨h.sound, h.settled, h.account⟩, ⟨h.sound, h.settled, h.account⟩⟩

section Tests

variable {test : Expr} {yes : Stmt} {no : Option Stmt}

/-- An `if` that is left loses an empty branch. -/
theorem Kept.normalized (h : W.Kept L R a s (r, (Stmt.cond test yes no).fold W.fold) t)
    (hp : ((test.fold W.fold).append ((yes.fold W.fold).append (Stmt.foldOpt W.fold no))).Paid t.dead) (q q' : Piece) :
    W.Kept L R a s (q, Stmt.foldList W.fold [(normalize test yes no t).1]) (normalize test yes no t).2 ∧
      W.Kept L R a s (q', (asOne [(normalize test yes no t).1]).fold W.fold) (normalize test yes no t).2 := by
  have hrefs : (normalize test yes no t).2.references W.target = t.references W.target := by
    rw [State.references, normalize_info, State.references]
  rcases normalize_cases test yes no t with he | ⟨other, rfl, hrec, hout⟩
  · rw [he]
    exact h.single q q'
  · have hsound := h.sound.settles hrec.toSettles fun σ hσ => .inl (hrec.dead_eq ▸ hσ)
    have hempty : (Uses.empty : Uses W).Paid t.dead := fun _ _ => Nat.le_refl 0
    -- One of the branches is left with the test or its negation.
    have hleft : ∃ z : Uses W, z.Paid t.dead ∧ Uses.Alike z ((normalize test yes (some other) t).1.fold W.fold) ∧
        (z.cost []).val t.dead [] ≤ (((Stmt.cond test yes (some other)).fold W.fold).cost []).val t.dead [] := by
      rcases hout with hout | hout
      · refine ⟨(test.fold W.fold).append ((yes.fold W.fold).append .empty),
          hp.left.append (hp.right.left.append hempty), ?_, ?_⟩
        · rw [hout]
          exact .stmt .slot _
        · exact Nat.add_le_add_left (Nat.add_le_add_left (Nat.zero_le _) _) _
      · refine ⟨(test.fold W.fold).append ((other.fold W.fold).append .empty),
          hp.left.append (hp.right.right.append hempty), ?_, ?_⟩
        · rw [hout]
          exact ((Uses.negate_alike W test).append (.refl _)).trans (.stmt .slot _)
        · exact Nat.add_le_add_left (Nat.le_add_left _ _) _
    obtain ⟨z, hz, halike, hle⟩ := hleft
    rw [← Uses.foldList_single] at halike
    refine h.finishes hrec.toSettles hsound (hrec.dead_eq ▸ halike.paid hz) ?_ q q'
    rw [halike.cost, hrec.dead_eq, hrefs]
    exact Nat.add_le_add_right hle _

/-- What is left of an `if` whose test is known. -/
theorem Kept.folded (h : W.Kept L R a s (r, (Stmt.cond test yes no).fold W.fold) t) (q q' : Piece) :
    W.Kept L R a s (q, Stmt.foldList W.fold (foldIf test yes no t).1) (foldIf test yes no t).2 ∧
      W.Kept L R a s (q', (asOne (foldIf test yes no t).1).fold W.fold) (foldIf test yes no t).2 := by
  have hp : ((test.fold W.fold).append ((yes.fold W.fold).append (Stmt.foldOpt W.fold no))).Paid t.dead := h.settled
  rcases foldIf_cases test yes no t with he | ⟨keep, drop, v, hkd, -, he, hrec, hrel⟩
  · rw [he]
    exact h.normalized hp q q'
  · have hparts : (Stmt.foldOpt W.fold keep).Paid t.dead ∧ (Stmt.foldOpt W.fold drop).Paid t.dead ∧
        ((yes.fold W.fold).cost []).val t.dead [] + ((Stmt.foldOpt W.fold no).cost []).val t.dead [] =
          ((Stmt.foldOpt W.fold keep).cost []).val t.dead [] + ((Stmt.foldOpt W.fold drop).cost []).val t.dead [] := by
      rcases hkd with ⟨rfl, rfl⟩ | ⟨rfl, rfl⟩
      · exact ⟨hp.right.left, hp.right.right, rfl⟩
      · exact ⟨hp.right.right, hp.right.left, Nat.add_comm _ _⟩
    obtain ⟨hkeep, hdrop, hsum⟩ := hparts
    have halike : Uses.Alike (Stmt.foldOpt W.fold keep) (Stmt.foldList W.fold (foldIf test yes no t).1) := by
      have hvars : Uses.Alike .empty (Stmt.foldList W.fold ((drop.map v.survivingVars).getD [])) := by
        cases drop with
        | none => exact .refl _
        | some x => exact Uses.survivingVars_idle W v x
      have hbranch : Uses.Alike (Stmt.foldOpt W.fold keep) (Stmt.foldList W.fold ((keep.map branchStmts).getD [])) := by
        cases keep with
        | none => exact .refl _
        | some x => exact Uses.branchStmts_alike W x
      rw [he, W.fold_lawful.foldList_append]
      exact (Uses.Alike.of_eq (Uses.empty_append _).symm).trans (hvars.append hbranch)
    have hs := hrec.toSettles
    refine h.finishes hs (h.sound.settles hs fun σ hσ => .inl (hrec.dead_eq ▸ hσ))
      (hrec.dead_eq ▸ halike.paid hkeep) ?_ q q'
    have hcount : W.count (test.fold t.liveIdents ++ Stmt.foldOpt t.liveIdents drop) ≤
        (test.fold W.fold).live t.dead + (Stmt.foldOpt W.fold drop).live t.dead := by
      rw [count, List.countP_append]
      exact Nat.add_le_add (Expr.fold_related (t.liveIdents_relates W) test)
        (Stmt.foldOpt_related (t.liveIdents_relates W) drop)
    have hrel := h.sound.released hrel
    have h₁ := hp.left t.dead (List.Subset.refl _)
    have h₂ := hdrop t.dead (List.Subset.refl _)
    rw [halike.cost, hrec.dead_eq]
    show _ ≤ ((test.fold W.fold).cost []).val t.dead [] + (((yes.fold W.fold).cost []).val t.dead [] +
      ((Stmt.foldOpt W.fold no).cost []).val t.dead []) + _
    omega

end Tests

/-- The declarators that a visit has left are removed if they are not used. -/
theorem Kept.removes {kind : DeclKind}
    (h : W.Kept L R (x.fold L.fold, x.fold W.fold) s (r, (Stmt.decl kind ds).fold W.fold) t)
    (hl : L.Sound t) (hls : L.Lists ds t) (hh : x.declarators.map Declarator.head = ds.map Declarator.head)
    (ho : W.Open (removeDeclarators ds t).2) :
    W.Sound (removeDeclarators ds t).2 ∧
      (((Stmt.decl kind ds).fold W.fold).cost []).val (removeDeclarators ds t).2.dead [] + t.references W.target ≤
        (((Stmt.decl kind ds).fold W.fold).cost []).val t.dead [] + (removeDeclarators ds t).2.references W.target := by
  refine removeDeclarators_released kind.bindingKind h.sound hl hls ho (clear_of_settled kind.bindingKind ?_ h.settled)
  rw [Uses.fold_tops]
  exact List.subset_append_of_subset_left _ (sites_of_heads hh ▸ List.Subset.refl _)

/-- A statement whose parts have been visited is finished. -/
theorem Kept.finished (hh : x.head = y.head)
    (hd : x.declarators.map Declarator.head = y.declarators.map Declarator.head)
    (h : W.Kept L [] (x.fold L.fold, x.fold W.fold) s (r, y.fold W.fold) t)
    (hdone : L.Done (x.fold L.fold) s (y.fold L.fold) t)
    (hr : W.Ready L (x.fold L.fold, x.fold W.fold) s (finish y t).2) (q q' : Piece) :
    W.Kept L [] (x.fold L.fold, x.fold W.fold) s (q, Stmt.foldList W.fold (finish y t).1) (finish y t).2 ∧
      W.Kept L [] (x.fold L.fold, x.fold W.fold) s (q', (asOne (finish y t).1).fold W.fold) (finish y t).2 := by
  have hlists := Ledger.Done.declarators hr.ready hdone (.refl _) hd
  have hcases := finish_cases y t
  simp only [State.renewStmt_early h.sound.late] at hcases
  have hnil (D : List Site) : (Stmt.foldList W.fold []).Paid D := fun _ _ => Nat.le_refl 0
  rcases hcases with ⟨hz, he⟩ | ⟨test, yes, no, rfl, he⟩ | ⟨rfl, he⟩ | ⟨hz, he⟩
  · rw [he] at hr ⊢
    rcases removeDeclaration_cases y t with hk | ⟨kind, ds, rfl, hk⟩ | ⟨hn, hu, -, hrec, hrel⟩
    · rw [hk] at hz
      cases hz
    · have hlists : L.Lists ds t := hlists
      rw [hk] at hr ⊢
      have hrem := h.removes hdone.sound hlists hd hr.calm.open
      refine h.finishes (removeDeclarators_settles ds t) hrem.1 (hnil _) ?_ q q'
      have := hrem.2
      show 0 + t.references W.target ≤ _
      dsimp only at this ⊢
      omega
    · obtain ⟨id, hid⟩ := Option.isSome_iff_exists.1 hn
      have hid' : declaredName x = some id := (Uses.declaredName_of_head hh).trans hid
      have hs := hrec.toSettles
      have hb := (hr.calm.open.holds hs.holds).buried h.sound hdone.sound hid' (declared_entry hid' hr.ready)
        (hu id hid)
      refine h.finishes hs (h.sound.settles hs fun σ hσ => .inl (hrec.dead_eq ▸ hσ)) (hnil _) ?_ q q'
      have h₁ := h.paid hb t.dead (List.Subset.refl _)
      have h₂ := h.sound.released_stmt hrel
      show 0 + t.references W.target ≤ _
      dsimp only at h₁ ⊢
      omega
  · rw [he]
    exact h.folded q q'
  · rw [he]
    refine h.finishes (.refl t) h.sound (hnil _) ?_ q q'
    exact Nat.add_le_add_right (Nat.zero_le _) _
  · rw [he] at hr ⊢
    rcases removeDeclaration_cases y t with hk | ⟨kind, ds, rfl, hk⟩ | ⟨-, -, hk, -⟩
    · rw [hk]
      exact h.single q q'
    · have hlists : L.Lists ds t := hlists
      have hs := removeDeclarators_settles ds t
      rw [hk] at hr ⊢
      have hrem := h.removes hdone.sound hlists hd hr.calm.open
      exact (h.after hs hrem.1 (fun D hD => h.settled D (List.Subset.trans hs.dead hD)) hrem.2).single q q'
    · rw [hz] at hk
      cases hk

theorem Whole.finished (hh : x.head = y.head)
    (hd : x.declarators.map Declarator.head = y.declarators.map Declarator.head)
    (h : W.Parts L (x.fold (L.fold.both W.fold)) s (y.fold (L.fold.both W.fold)) t) :
    W.Whole L (x.fold (L.fold.both W.fold)) s (Stmt.foldList (L.fold.both W.fold) (finish y t).1) (finish y t).2 ∧
      W.Whole L (x.fold (L.fold.both W.fold)) s ((asOne (finish y t).1).fold (L.fold.both W.fold)) (finish y t).2 := by
  have hrun := (W.runs L).finished hh hd h.run
  have hs := Ledger.finish_settles y t
  have hf (hr : W.Ready L (x.fold (L.fold.both W.fold)) s (finish y t).2)
      (hok : ∀ σ ∈ (x.fold (L.fold.both W.fold)).2.heads, σ ∉ s.dead) (q q' : Piece) := by
    have hr' := hr.past hs.holds
    have hk := (h.kept hr' hok).mono (List.nil_subset _)
    have hdone := h.run.visit.done hr'.ready hr'.bounds
    simp only [Stmt.fold_both] at hr hk hdone
    exact Kept.finished hh hd hk hdone hr q q'
  refine ⟨⟨hrun.1, fun hr hok => ?_⟩, hrun.2, fun hr hok => ?_⟩
  · have hf := (hf hr hok (Stmt.foldList L.fold (finish y t).1) .empty).1
    simp only [Stmt.fold_both, Stmt.foldList_both]
    exact hf
  · have hf := (hf hr hok .empty ((asOne (finish y t).1).fold L.fold)).2
    simp only [Stmt.fold_both]
    exact hf

end Finishing

end Watch

end Deadwood
