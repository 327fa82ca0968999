import Deadwood.Proofs.References
import Deadwood.Proofs.Rooms

/-!
# References stay in their rooms

What is declared in a room is held by a scope that is opened inside of it.  A reference is bound in a scope
around it, so no reference from outside of the room is bound to it.  Scopes have the same numbers in both walks of
resolution, and those that are opened inside of a piece of syntax are numbered one after another.
-/

namespace Deadwood

/-! ### What stays of bindings -/

/-- A binding stays where it is; it may be exported later on. -/
structure Binding.Stays (b c : Binding) : Prop where
  kind : c.kind = b.kind
  scope : c.scope = b.scope
  declScope : c.declScope = b.declScope
  origin : c.origin = b.origin
  exported : b.isExported = true → c.isExported = true

theorem Binding.Stays.refl (b : Binding) : b.Stays b := ⟨rfl, rfl, rfl, rfl, id⟩

theorem Binding.Stays.trans {b c d : Binding} (h : b.Stays c) (h' : c.Stays d) : b.Stays d :=
  ⟨h'.kind.trans h.kind, h'.scope.trans h.scope, h'.declScope.trans h.declScope, h'.origin.trans h.origin,
    fun hb => h'.exported (h.exported hb)⟩

/-- All bindings of the first table stay in the second one. -/
structure Outlasts (bs cs : Array Binding) : Prop where
  size : bs.size ≤ cs.size
  stays : ∀ {j c}, j < bs.size → cs[j]? = some c → ∃ b, bs[j]? = some b ∧ b.Stays c

namespace Outlasts

variable {bs cs ds : Array Binding} {j : Nat}

theorem refl (bs : Array Binding) : Outlasts bs bs := ⟨Nat.le_refl _, fun _ h => ⟨_, h, .refl _⟩⟩

theorem trans (h : Outlasts bs cs) (h' : Outlasts cs ds) : Outlasts bs ds where
  size := Nat.le_trans h.size h'.size
  stays hj hd := by
    obtain ⟨c, hc, hcd⟩ := h'.stays (Nat.lt_of_lt_of_le hj h.size) hd
    obtain ⟨b, hb, hbc⟩ := h.stays hj hc
    exact ⟨b, hb, hbc.trans hcd⟩

theorem modify (bs : Array Binding) (j : Nat) {f : Binding → Binding} (hf : ∀ b : Binding, b.Stays (f b)) :
    Outlasts bs (bs.modify j f) where
  size := Nat.le_of_eq (Array.size_modify ..).symm
  stays {k c} _ hc := by
    rw [Array.getElem?_modify] at hc
    split at hc
    · obtain ⟨b, hb, rfl⟩ := Option.map_eq_some_iff.1 hc
      exact ⟨b, hb, hf b⟩
    · exact ⟨c, hc, .refl c⟩

theorem push (bs : Array Binding) (b : Binding) : Outlasts bs (bs.push b) where
  size := by simp
  stays {k c} hk hc := by
    rw [Array.getElem?_push, if_neg (Nat.ne_of_lt hk)] at hc
    exact ⟨c, hc, .refl c⟩

end Outlasts

/-! ### The first walk -/

namespace Hoist

/-- A scope or site that is new between two states. -/
def State.Opened (s t : State) (m : Mark) : Prop := s.scopes.size < m ∧ m ≤ t.scopes.size

def State.Numbered (s t : State) (x : Site) : Prop := s.decls.size ≤ x ∧ x < t.decls.size

/-- Where the binding is that a piece adds. -/
structure Fresh (i : Declares) (s t : State) (d : Binding) : Prop where
  source : ∀ σ, d.origin.site? = some σ → s.Numbered t σ ∨ i.origin? = some d.origin ∧ d.origin = .declarator σ
  place : s.Opened t d.declScope ∨ i ≠ .nothing ∧ d.declScope = s.path.head?.getD 0
  scope : d.origin.site? ≠ none →
    d.scope = d.declScope ∨ d.kind = .module ∨ d.kind = .var ∧ ∃ σ, d.origin = .declarator σ

/-- A piece that declares what `i` says leads from `s` to `t`. -/
structure Adds (i : Declares) (s t : State) : Prop where
  path : t.path = s.path
  scopes : s.scopes.size ≤ t.scopes.size
  decls : s.decls.size ≤ t.decls.size
  outlasts : Outlasts s.bindings t.bindings
  fresh : ∀ {j d}, s.bindings.size ≤ j → t.bindings[j]? = some d → Fresh i s t d

variable {i : Declares} {s t u : State}

theorem Fresh.mono {s' t' : State} {d : Binding} (h : Fresh i s t d) (hs : s'.scopes.size ≤ s.scopes.size)
    (ht : t.scopes.size ≤ t'.scopes.size) (hs' : s'.decls.size ≤ s.decls.size) (ht' : t.decls.size ≤ t'.decls.size)
    (hp : s'.path = s.path) : Fresh i s' t' d where
  source σ hσ := (h.source σ hσ).imp (fun h => ⟨Nat.le_trans hs' h.1, Nat.lt_of_lt_of_le h.2 ht'⟩) id
  place := h.place.imp (fun h => ⟨Nat.lt_of_le_of_lt hs h.1, Nat.le_trans h.2 ht⟩) fun h => ⟨h.1, by rw [hp, h.2]⟩
  scope := h.scope

theorem Fresh.origin {d : Binding} (h : Fresh i s t d) (σ : Site) (hσ : d.origin.site? = some σ) :
    s.Numbered t σ ∨ i.origin? = some (.declarator σ) :=
  (h.source σ hσ).imp id fun ho => ho.1.trans (congrArg some ho.2)

namespace Adds

theorem refl (s : State) : Adds i s s where
  path := rfl
  scopes := Nat.le_refl _
  decls := Nat.le_refl _
  outlasts := .refl _
  fresh hj hd := absurd (Array.getElem?_eq_some_iff.1 hd).1 (Nat.not_lt.2 hj)

theorem trans (h : Adds i s t) (h' : Adds i t u) : Adds i s u where
  path := h'.path.trans h.path
  scopes := Nat.le_trans h.scopes h'.scopes
  decls := Nat.le_trans h.decls h'.decls
  outlasts := h.outlasts.trans h'.outlasts
  fresh {j d} hj hd := by
    by_cases ht : j < t.bindings.size
    · obtain ⟨c, hc, hs⟩ := h'.outlasts.stays ht hd
      have hf := (h.fresh hj hc).mono (Nat.le_refl _) h'.scopes (Nat.le_refl _) h'.decls rfl
      refine ⟨hs.origin ▸ hf.source, hs.declScope ▸ hf.place, ?_⟩
      rw [hs.origin, hs.scope, hs.declScope, hs.kind]
      exact hf.scope
    · exact (h'.fresh (Nat.not_lt.1 ht) hd).mono h.scopes (Nat.le_refl _) h.decls (Nat.le_refl _) h.path.symm

theorem weaken (h : Adds .nothing s t) : Adds i s t :=
  { h with fresh := fun hj hd =>
      { h.fresh hj hd with
        source := fun σ hσ => .inl (((h.fresh hj hd).origin σ hσ).resolve_right (Option.some_ne_none _).symm)
        place := .inl ((h.fresh hj hd).place.resolve_right fun hp => hp.1 rfl) } }

theorem statements {c : Option Container} (h : Adds i s t)
    (hi : ∀ σ, i.origin? = some (.declarator σ) → s.Numbered t σ) :
    Adds (.statements c) s t :=
  { h with fresh := fun hj hd =>
      { h.fresh hj hd with
        source := fun σ hσ => .inl (((h.fresh hj hd).origin σ hσ).elim id (hi σ))
        place := (h.fresh hj hd).place.imp id fun hp => ⟨by simp, hp.2⟩ } }

/-- Inside of a scope all names are new ones. -/
theorem inScope {c : Option Container} {kind : ScopeKind} {opener : Opener}
    (h : Adds (.statements c) (s.entering kind opener) t) :
    Adds .nothing s { t with path := s.path } where
  path := rfl
  scopes := Nat.le_of_succ_le (by simpa [State.entering] using h.scopes)
  decls := h.decls
  outlasts := h.outlasts
  fresh {j d} hj hd := by
    have hf := h.fresh hj hd
    have hscopes : s.scopes.size + 1 ≤ t.scopes.size := by simpa [State.entering] using h.scopes
    refine ⟨fun σ hσ => .inl ((hf.origin σ hσ).resolve_right (Option.some_ne_none _).symm), .inl ?_, hf.scope⟩
    rcases hf.place with ho | ⟨-, hp⟩
    · have hlt : s.scopes.size + 1 < d.declScope := by simpa [State.entering] using ho.1
      exact ⟨Nat.lt_of_succ_lt hlt, ho.2⟩
    · rw [hp]
      exact ⟨Nat.lt_succ_self _, hscopes⟩

end Adds

theorem fresh_adds (s : State) : Adds i s (fresh s).2 where
  path := rfl
  scopes := Nat.le_refl _
  decls := fresh_le s
  outlasts := .refl _
  fresh hj hd := absurd (Array.getElem?_eq_some_iff.1 hd).1 (Nat.not_lt.2 hj)

/-- What a declaration does to the table of bindings. -/
theorem declare_bindings (inHead : Bool) (id : Ident) (kind : BindingKind) (origin : Site → Origin) (s : State) :
    (declare inHead id kind origin s).2.path = s.path ∧
      (declare inHead id kind origin s).2.scopes.size = s.scopes.size ∧
      ((declare inHead id kind origin s).2.bindings.size = s.bindings.size ∧
          Outlasts s.bindings (declare inHead id kind origin s).2.bindings ∨
        ∃ b : Binding, (declare inHead id kind origin s).2.bindings = s.bindings.push b ∧ b.kind = kind ∧
          b.scope = s.holder kind ∧ b.declScope = s.path.head?.getD 0 ∧ b.origin = origin s.decls.size ∧
          b.isExported = (s.containerFor kind).any Container.isExport) := by
  simp only [declare, run_bind, run_get]
  cases ((fresh s).2.scope? ((fresh s).2.holder kind)).bind (·.binding? id.name) with
  | some b =>
    refine ⟨rfl, rfl, .inl ⟨Array.size_modify .., ?_⟩⟩
    simp only [run_bind, run_set, run_pure]
    refine .modify _ _ ?_
    exact fun b => ⟨rfl, rfl, rfl, rfl, fun h => by simp [h]⟩
  | none => exact ⟨rfl, Array.size_modify .., .inr ⟨_, rfl, rfl, rfl, rfl, rfl, rfl⟩⟩

theorem holder_eq {kind : BindingKind} (hv : kind ≠ .var) (hm : kind ≠ .module) (s : State) :
    s.holder kind = s.path.head?.getD 0 := by
  cases kind <;> first | rfl | contradiction

theorem declare_adds (inHead : Bool) (id : Ident) (kind : BindingKind) (origin : Site → Origin) (s : State)
    (hi : i ≠ .nothing) (ho : ∀ σ, (origin s.decls.size).site? = some σ →
      s.Numbered (declare inHead id kind origin s).2 σ ∨
        i.origin? = some (origin s.decls.size) ∧ origin s.decls.size = .declarator σ)
    (hv : kind = .var → (origin s.decls.size).site? ≠ none → ∃ σ, origin s.decls.size = .declarator σ) :
    Adds i s (declare inHead id kind origin s).2 := by
  obtain ⟨hp, hs, hb⟩ := declare_bindings inHead id kind origin s
  have hd := declare_decls inHead id kind origin s
  have hout : Outlasts s.bindings (declare inHead id kind origin s).2.bindings := by
    rcases hb with ⟨-, hb⟩ | ⟨b, hb, -⟩
    · exact hb
    · rw [hb]
      exact .push _ _
  refine ⟨hp, Nat.le_of_eq hs.symm, hd ▸ Nat.le_succ _, hout, fun {j d} hj hdj => ?_⟩
  rcases hb with ⟨hsize, -⟩ | ⟨b, hb, hk, hsc, hds, hor, -⟩
  · exact absurd (Array.getElem?_eq_some_iff.1 hdj).1 (by omega)
  · have hlt := (Array.getElem?_eq_some_iff.1 hdj).1
    rw [hb, Array.size_push] at hlt
    obtain rfl : j = s.bindings.size := by omega
    rw [hb, Array.getElem?_push, if_pos rfl] at hdj
    cases hdj
    refine ⟨fun σ hσ => hor ▸ ho σ (hor ▸ hσ), .inr ⟨hi, hds⟩, fun hsite => ?_⟩
    rw [hor] at hsite ⊢
    by_cases hvar : kind = .var
    · exact .inr (.inr ⟨hk.trans hvar, hv hvar hsite⟩)
    · by_cases hmod : kind = .module
      · exact .inr (.inl (hk.trans hmod))
      · exact .inl (by rw [hsc, hds, holder_eq hvar hmod])

theorem State.exporting_cases (s : State) (x : Site) :
    s.exporting x = s ∨ ∃ j, s.exporting x =
      { s with bindings := s.bindings.modify j fun b => { b with isExported := true } } := by
  unfold State.exporting
  cases s.decls[x]?.join with
  | none => exact .inl rfl
  | some j => exact .inr ⟨j, rfl⟩

theorem exportDeclared_outlasts (ids : List Ident) (s : State) :
    (exportDeclared ids s).2.path = s.path ∧ (exportDeclared ids s).2.scopes = s.scopes ∧
      (exportDeclared ids s).2.bindings.size = s.bindings.size ∧
        Outlasts s.bindings (exportDeclared ids s).2.bindings := by
  rw [exportDeclared_eq]
  induction ids generalizing s with
  | nil => exact ⟨rfl, rfl, rfl, .refl _⟩
  | cons id ids ih =>
    rw [List.map_cons, List.foldl_cons]
    obtain ⟨hp, hs, hb, ho⟩ := ih (s.exporting id.site)
    rcases s.exporting_cases id.site with he | ⟨j, he⟩
    · rw [he] at hp hs hb ho ⊢
      exact ⟨hp, hs, hb, ho⟩
    · rw [he] at hp hs hb ho ⊢
      dsimp only at hp hs hb ho ⊢
      refine ⟨hp, hs, hb.trans (Array.size_modify ..), (Outlasts.modify _ _ fun b => ?_).trans ho⟩
      exact ⟨rfl, rfl, rfl, rfl, fun _ => rfl⟩

end Hoist

/-! ### The second walk -/

/-- What a scope has for a name is held by that scope, or by none where no scope is around. -/
def Info.Held (info : Info) : Prop := ∀ m n j, (info.scope? m).bind (·.binding? n) = some j →
  ∃ d, info.binding? j = some d ∧ (d.scope = m ∨ d.scope = 0)

namespace Resolve

/-- A scope is around the place, or has been entered between two states. -/
def State.Sees (s t : State) (m : Mark) : Prop := m ∈ s.path ∨ m = 0 ∨ s.entered < m ∧ m ≤ t.entered

/-- Between two states, references are bound at the sites `xs`, and names in lists of exports at `ys`. -/
structure Refers (xs ys : List Site) (s t : State) : Prop where
  path : t.path = s.path
  entered : s.entered ≤ t.entered
  size : t.info.bindings.size = s.info.bindings.size
  outlasts : Outlasts s.info.bindings t.info.bindings
  names : ∀ m n, (t.info.scope? m).bind (·.binding? n) = (s.info.scope? m).bind (·.binding? n)
  frame : ∀ y, y ∉ xs → y ∉ ys → t.info.boundAt? y = s.info.boundAt? y
  reach : ∀ y j, t.info.boundAt? y = some j → s.info.boundAt? y = some j ∨
    ∃ d, t.info.binding? j = some d ∧ s.Sees t d.scope
  exported : ∀ y j d, t.info.boundAt? y = some j → t.info.binding? j = some d →
    s.info.boundAt? y = some j ∨ y ∈ xs ∨ d.isExported = true

variable {xs ys xs' ys' : List Site} {s t u : State}

theorem State.Sees.mono {s' t' : State} {m : Mark} (h : s.Sees t m) (hp : s'.path = s.path)
    (hs : s'.entered ≤ s.entered) (ht : t.entered ≤ t'.entered) : s'.Sees t' m :=
  h.imp (hp ▸ id) (.imp id fun h => ⟨Nat.lt_of_le_of_lt hs h.1, Nat.le_trans h.2 ht⟩)

namespace Refers

/-- What is bound in the second state is a binding of the first one. -/
theorem binding (h : Refers xs ys s t) {j : BindingId} {d : Binding} (hd : t.info.binding? j = some d) :
    ∃ b, s.info.binding? j = some b ∧ b.Stays d :=
  h.outlasts.stays (h.size ▸ (Array.getElem?_eq_some_iff.1 hd).1) hd

theorem binding' (h : Refers xs ys s t) {j : BindingId} {b : Binding} (hb : s.info.binding? j = some b) :
    ∃ d, t.info.binding? j = some d ∧ b.Stays d := by
  obtain ⟨d, hd⟩ : ∃ d, t.info.binding? j = some d :=
    ⟨_, Array.getElem?_eq_some_iff.2 ⟨h.size ▸ (Array.getElem?_eq_some_iff.1 hb).1, rfl⟩⟩
  obtain ⟨b', hb', hs⟩ := h.binding hd
  cases hb.symm.trans hb'
  exact ⟨d, hd, hs⟩

theorem held (h : Refers xs ys s t) (hs : s.info.Held) : t.info.Held := by
  intro m n j hj
  obtain ⟨b, hb, hm⟩ := hs m n j ((h.names m n).symm.trans hj)
  obtain ⟨d, hd, hst⟩ := h.binding' hb
  exact ⟨d, hd, hst.scope ▸ hm⟩

theorem trans (h : Refers xs ys s t) (h' : Refers xs' ys' t u) : Refers (xs ++ xs') (ys ++ ys') s u where
  path := h'.path.trans h.path
  entered := Nat.le_trans h.entered h'.entered
  size := h'.size.trans h.size
  outlasts := h.outlasts.trans h'.outlasts
  names m n := (h'.names m n).trans (h.names m n)
  frame y hx hy := by
    rw [List.mem_append, not_or] at hx hy
    exact (h'.frame y hx.2 hy.2).trans (h.frame y hx.1 hy.1)
  reach y j hj := by
    rcases h'.reach y j hj with ht | ⟨d, hd, hs⟩
    · refine (h.reach y j ht).imp id ?_
      rintro ⟨b, hb, hs⟩
      obtain ⟨d, hd, hst⟩ := h'.binding' hb
      exact ⟨d, hd, hst.scope ▸ hs.mono rfl (Nat.le_refl _) h'.entered⟩
    · exact .inr ⟨d, hd, hs.mono h.path.symm h.entered (Nat.le_refl _)⟩
  exported y j d hj hd := by
    obtain ⟨b, hb, hst⟩ := h'.binding hd
    rcases h'.exported y j d hj hd with ht | hy | he
    · exact (h.exported y j b ht hb).imp id (.imp (List.mem_append_left _) hst.exported)
    · exact .inr (.inl (List.mem_append_right _ hy))
    · exact .inr (.inr he)

theorem still (hp : t.path = s.path) (he : t.entered = s.entered) (hb : t.info.bindings.size = s.info.bindings.size)
    (ho : Outlasts s.info.bindings t.info.bindings)
    (hn : ∀ m n, (t.info.scope? m).bind (·.binding? n) = (s.info.scope? m).bind (·.binding? n))
    (hr : t.info.refs = s.info.refs) : Refers [] [] s t where
  path := hp
  entered := Nat.le_of_eq he.symm
  size := hb
  outlasts := ho
  names := hn
  frame y _ _ := by rw [Info.boundAt?, Info.boundAt?, hr]
  reach y j hj := .inl (by rwa [Info.boundAt?, ← hr])
  exported y j d hj _ := .inl (by rwa [Info.boundAt?, ← hr])

theorem mono (h : Refers xs ys s t) (hx : xs ⊆ xs') (hy : ys ⊆ ys') : Refers xs' ys' s t :=
  { h with
    frame := fun y hxs hys => h.frame y (fun h => hxs (hx h)) fun h => hys (hy h)
    exported := fun y j d hj hd => (h.exported y j d hj hd).imp id (.imp (@hx y) id) }

theorem inScope {s' : State}
    (h : Refers xs ys { s with entered := s.entered + 1, path := (s.entered + 1) :: s.path } s') :
    Refers xs ys s { s' with path := s.path } where
  path := rfl
  entered := Nat.le_trans (Nat.le_succ _) h.entered
  size := h.size
  outlasts := h.outlasts
  names := h.names
  frame := h.frame
  reach y j hj := by
    refine (h.reach y j hj).imp id fun hreach => ?_
    obtain ⟨d, hd, hs⟩ := hreach
    refine ⟨d, hd, ?_⟩
    have hlt : s.entered + 1 ≤ s'.entered := h.entered
    rcases hs with hs | hzero | ⟨hlo, hhi⟩
    · rcases List.mem_cons.1 hs with hm | hm
      · exact .inr (.inr ⟨Nat.lt_of_lt_of_eq (Nat.lt_succ_self _) hm.symm, Nat.le_trans (Nat.le_of_eq hm) hlt⟩)
      · exact .inl hm
    · exact .inr (.inl hzero)
    · exact .inr (.inr ⟨Nat.lt_of_succ_lt hlo, hhi⟩)
  exported := h.exported

end Refers

theorem outlasts_modifyBinding (info : Info) (i : BindingId) {f : Binding → Binding}
    (hf : ∀ b : Binding, b.Stays (f b)) :
    (info.modifyBinding i f).bindings.size = info.bindings.size ∧
      Outlasts info.bindings (info.modifyBinding i f).bindings :=
  ⟨Array.size_modify .., .modify _ _ hf⟩

theorem declare_refers (id : Ident) (s : State) : Refers [] [] s (declare id s).2 := by
  simp only [declare, run_bind, run_get]
  cases s.info.declaration? id with
  | none => exact .still rfl rfl rfl (.refl _) (fun _ _ => rfl) rfl
  | some i =>
    obtain ⟨hb, ho⟩ := outlasts_modifyBinding s.info i
      (f := fun b => { b with isInitialized := true }) fun _ => ⟨rfl, rfl, rfl, rfl, fun h => h⟩
    exact .still rfl rfl hb ho (fun _ _ => rfl) rfl

theorem boundAt?_setIfInBounds (info : Info) (x y : Site) (j : BindingId) (m : Mark) :
    ({ info with refs := info.refs.setIfInBounds x (some (j, m)) } : Info).boundAt? y = some j ∧ y = x ∨
      ({ info with refs := info.refs.setIfInBounds x (some (j, m)) } : Info).boundAt? y = info.boundAt? y := by
  simp only [Info.boundAt?, Array.getElem?_setIfInBounds]
  split
  · next hxy =>
    split
    · exact .inl ⟨rfl, hxy.symm⟩
    · next hx => 
      subst hxy
      exact .inr (by rw [Array.getElem?_eq_none (Nat.not_lt.1 hx)])
  · exact .inr rfl

theorem refer_refers (writing : Bool) (id : Ident) {s : State} (hs : s.info.Held) :
    Refers [id.site] [] s (refer writing id s).2 := by
  simp only [refer, run_bind, run_get]
  cases hlook : s.info.lookupIn s.path id.name with
  | none => exact (Refers.still rfl rfl rfl (.refl _) (fun _ _ => rfl) rfl).mono (List.nil_subset _) (List.nil_subset _)
  | some i =>
    obtain ⟨m, hm, hi⟩ := List.exists_of_findSome?_eq_some hlook
    obtain ⟨b, hb, hbm⟩ := hs m id.name i hi
    obtain ⟨hsize, ho⟩ := outlasts_modifyBinding s.info i
      (f := fun b => { b with
        references := b.references + 1
        isConstant := b.isConstant && !writing
        isForward := b.isForward || (!writing && !b.isInitialized) }) fun _ => ⟨rfl, rfl, rfl, rfl, fun h => h⟩
    have hbound := boundAt?_setIfInBounds s.info id.site
    refine { path := rfl, entered := Nat.le_refl _, size := hsize, outlasts := ho, names := fun _ _ => rfl,
             frame := fun y hy _ => ?_, reach := fun y j hj => ?_, exported := fun y j d hj _ => ?_ }
    · exact ((hbound y i (s.path.head?.getD 0)).resolve_left fun h => hy (List.mem_singleton.2 h.2))
    · rcases hbound y i (s.path.head?.getD 0) with ⟨hy, -⟩ | hy
      · obtain rfl : i = j := Option.some.inj (hy.symm.trans hj)
        obtain ⟨d, hd⟩ : ∃ d, (s.info.bindings.modify i _)[i]? = some d :=
          ⟨_, Array.getElem?_eq_some_iff.2 ⟨hsize ▸ (Array.getElem?_eq_some_iff.1 hb).1, rfl⟩⟩
        obtain ⟨b', hb', hst⟩ := ho.stays (Array.getElem?_eq_some_iff.1 hb).1 hd
        cases hb.symm.trans hb'
        refine .inr ⟨d, hd, ?_⟩
        rcases hbm with hbm | hzero
        · exact .inl ((hst.scope.trans hbm) ▸ hm)
        · exact .inr (.inl (hst.scope.trans hzero))
      · exact .inl (hy.symm.trans hj)
    · rcases hbound y i (s.path.head?.getD 0) with ⟨-, hy⟩ | hy
      · exact .inr (.inl (List.mem_singleton.2 hy))
      · exact .inl (hy.symm.trans hj)

theorem exportName_refers (id : Ident) {s : State} (hs : s.info.Held) :
    Refers [] [id.site] s (exportName id s).2 := by
  have h := refer_refers false id hs
  have hsite := refer_site false id s
  simp only [exportName, run_bind, run_pure]
  generalize refer false id s = r at h hsite
  simp only [modify, modifyGet, MonadStateOf.modifyGet, StateT.modifyGet]
  split
  · next i hi =>
    rw [show r.2.info.bindingOf? r.1 = r.2.info.boundAt? r.1.site from rfl, hsite] at hi
    obtain ⟨hsize, ho⟩ := outlasts_modifyBinding r.2.info i
      (f := fun b => { b with isExported := true }) fun _ => ⟨rfl, rfl, rfl, rfl, fun _ => rfl⟩
    have hlater := h.trans (.still
      (t := { r.2 with info := r.2.info.modifyBinding i fun b => { b with isExported := true } })
      rfl rfl hsize ho (fun _ _ => rfl) rfl)
    refine { hlater with frame := fun y _ hy => hlater.frame y hy List.not_mem_nil, exported := fun y j d hj hd => ?_ }
    rcases hlater.exported y j d hj hd with hj' | hy | hd
    · exact .inl hj'
    · obtain rfl := List.mem_singleton.1 hy
      obtain rfl : i = j := Option.some.inj (hi.symm.trans hj)
      refine .inr (.inr ?_)
      change (r.2.info.bindings.modify i _)[i]? = some d at hd
      rw [Array.getElem?_modify, if_pos rfl] at hd
      obtain ⟨b, -, rfl⟩ := Option.map_eq_some_iff.1 hd
      rfl
    · exact .inr (.inr hd)
  · next hnone =>
    refine { h with frame := fun y _ hy => h.frame y hy List.not_mem_nil, exported := fun y j d hj hd => ?_ }
    rcases h.exported y j d hj hd with hj' | hy | hd
    · exact .inl hj'
    · obtain rfl := List.mem_singleton.1 hy
      rw [show r.2.info.bindingOf? r.1 = r.2.info.boundAt? r.1.site from rfl, hsite] at hnone
      cases hnone.symm.trans hj
    · exact .inr (.inr hd)

/-- Scopes that are marked as ones with an `eval` hold the same names. -/
theorem marked_same (path : List Mark) (info : Info) :
    let info' := path.foldl (fun info m => info.modifyScope m fun sc => { sc with hasEval := true }) info
    info'.refs = info.refs ∧ info'.bindings = info.bindings ∧
      ∀ m n, (info'.scope? m).bind (·.binding? n) = (info.scope? m).bind (·.binding? n) := by
  induction path generalizing info with
  | nil => exact ⟨rfl, rfl, fun _ _ => rfl⟩
  | cons k path ih =>
    obtain ⟨hr, hb, hn⟩ := ih (info.modifyScope k fun sc => { sc with hasEval := true })
    refine ⟨hr.trans ?_, hb.trans ?_, fun m n => (hn m n).trans ?_⟩
    · unfold Info.modifyScope
      split <;> rfl
    · unfold Info.modifyScope
      split <;> rfl
    · unfold Info.modifyScope
      split
      · rfl
      · simp only [Info.scope?]
        split
        · rfl
        · rw [Array.getElem?_modify]
          split
          · cases info.scopes[m - 1]? <;> rfl
          · rfl

theorem called_refers (id : Ident) (s : State) : Refers [] [] s (called id s).2 := by
  show Refers [] [] s (if id.name = "eval" ∧ id.mark = 0 then _ else s)
  split
  · obtain ⟨hr, hb, hn⟩ := marked_same s.path s.info
    exact .still rfl rfl (congrArg Array.size hb) (hb ▸ .refl _) hn hr
  · exact .still rfl rfl rfl (.refl _) (fun _ _ => rfl) rfl

end Resolve

/-! ### Both walks -/

/-- The states of both walks belong to the same place. -/
structure Joined (s : Places) : Prop where
  entered : s.2.entered = s.1.scopes.size
  path : s.2.path = s.1.path
  marks : ∀ m ∈ s.1.path, m ≤ s.1.scopes.size
  origins : ∀ {j : Nat} {d : Binding} {σ : Site}, s.1.bindings[j]? = some d → d.origin.site? = some σ →
    σ < s.1.decls.size
  bound : ∀ {y : Site} {j : BindingId} {d : Binding}, s.2.info.boundAt? y = some j → s.2.info.binding? j = some d →
    d.scope ≤ s.1.scopes.size
  held : s.2.info.Held

/-- The bindings of a room have their scopes in it, in which references from outside find nothing. -/
structure Walls (s t : Places) (room : List Site × List Site) (x x' m m' : Nat) : Prop where
  sites : s.1.decls.size ≤ x ∧ x' ≤ t.1.decls.size
  scopes : s.1.scopes.size ≤ m ∧ m' ≤ t.1.scopes.size
  tops : ∀ σ ∈ room.1, x ≤ σ ∧ σ < x'
  inside : ∀ {j : Nat} {d : Binding} {σ : Site}, t.1.bindings[j]? = some d → d.origin.site? = some σ → x ≤ σ →
    σ < x' → m < d.declScope ∧ d.declScope ≤ m'
  refs : ∀ {y : Site} {j : BindingId} {d : Binding}, t.2.info.boundAt? y = some j → t.2.info.binding? j = some d →
    m < d.scope → d.scope ≤ m' → y ∈ room.2 ∨ d.isExported = true

/-- A piece leads from `s` to `t` and leaves what has the rooms `b`. -/
structure Lodged (i : Declares) (b : Rooms) (s t : Places) : Prop where
  adds : Hoist.Adds i s.1 t.1
  refers : Resolve.Refers b.sites b.exported s.2 t.2
  tops : ∀ σ, σ ∈ b.vars ∨ σ ∈ b.heads ∨ σ ∈ b.fixed ∨ σ ∈ b.loose → s.1.Numbered t.1 σ
  plain : ∀ σ, σ ∈ b.vars ∨ σ ∈ b.loose → ∀ {j : Nat} {d : Binding}, t.1.bindings[j]? = some d →
    d.origin.site? = some σ → d.origin = .declarator σ
  heads : i.isExport = true → ∀ σ ∈ b.heads, ∀ {j : Nat} {d : Binding}, t.1.bindings[j]? = some d →
    d.origin.site? = some σ → d.isExported = true
  fixed : ∀ σ ∈ b.fixed, ∀ {j : Nat} {d : Binding}, t.1.bindings[j]? = some d → d.origin.site? = some σ →
    d.isExported = true
  rooms : ∀ room ∈ b.rooms, ∃ x x' m m', Walls s t room x x' m m'

section

variable {i : Declares} {a b : Rooms} {s t u : Places} {room : List Site × List Site} {x x' m m' : Nat}

theorem Joined.lead (h : Joined s) (ha : Hoist.Adds i s.1 t.1) {xs ys : List Site} (hr : Resolve.Refers xs ys s.2 t.2)
    (hi : ∀ σ, i.origin? = some (.declarator σ) → σ < s.1.decls.size) (he : t.2.entered = t.1.scopes.size) :
    Joined t where
  entered := he
  path := hr.path.trans (h.path.trans ha.path.symm)
  marks m hm := Nat.le_trans (h.marks m (ha.path ▸ hm)) ha.scopes
  origins {j d σ} hj hσ := by
    by_cases hlt : j < s.1.bindings.size
    · obtain ⟨c, hc, hst⟩ := ha.outlasts.stays hlt hj
      exact Nat.lt_of_lt_of_le (h.origins hc (hst.origin ▸ hσ)) ha.decls
    · exact ((ha.fresh (Nat.not_lt.1 hlt) hj).origin σ hσ).elim (·.2) fun ho => Nat.lt_of_lt_of_le (hi σ ho) ha.decls
  bound {y j d} hj hd := by
    rcases hr.reach y j hj with hs | ⟨d', hd', hsees⟩
    · obtain ⟨b, hb, hst⟩ := hr.binding hd
      exact hst.scope ▸ Nat.le_trans (h.bound hs hb) ha.scopes
    · cases hd.symm.trans hd'
      rcases hsees with hm | hzero | ⟨-, hm⟩
      · exact Nat.le_trans (h.marks _ (h.path ▸ hm)) ha.scopes
      · exact hzero ▸ Nat.zero_le _
      · exact he ▸ hm
  held := hr.held h.held

/-- Walls stand as the walks go on. -/
theorem Walls.later (h : Walls s t room x x' m m') (ht : Joined t) (hm : ∀ k ∈ t.1.path, k ≤ m)
    (ha : Hoist.Adds i t.1 u.1) {xs ys : List Site} (hr : Resolve.Refers xs ys t.2 u.2)
    (hi : ∀ σ, i.origin? = some (.declarator σ) → σ < x) :
    Walls s u room x x' m m' where
  sites := ⟨h.sites.1, Nat.le_trans h.sites.2 ha.decls⟩
  scopes := ⟨h.scopes.1, Nat.le_trans h.scopes.2 ha.scopes⟩
  tops := h.tops
  inside {j d σ} hj hσ hx hx' := by
    by_cases hlt : j < t.1.bindings.size
    · obtain ⟨c, hc, hst⟩ := ha.outlasts.stays hlt hj
      rw [hst.declScope]
      exact h.inside hc (hst.origin ▸ hσ) hx hx'
    · rcases (ha.fresh (Nat.not_lt.1 hlt) hj).origin σ hσ with hn | ho
      · exact absurd (Nat.lt_of_lt_of_le hx' h.sites.2) (Nat.not_lt.2 hn.1)
      · exact absurd (hi σ ho) (Nat.not_lt.2 hx)
  refs {y j d} hj hd hlo hhi := by
    obtain ⟨c, hc, hst⟩ := hr.binding hd
    rcases hr.reach y j hj with hs | ⟨d', hd', hsees⟩
    · exact (h.refs hs hc (hst.scope ▸ hlo) (hst.scope ▸ hhi)).imp id hst.exported
    · cases hd.symm.trans hd'
      rcases hsees with hk | hzero | ⟨hk, -⟩
      · exact absurd hlo (Nat.not_lt.2 (hm _ (ht.path ▸ hk)))
      · exact absurd hlo (Nat.not_lt.2 (hzero ▸ Nat.zero_le _))
      · rw [ht.entered] at hk
        exact absurd (Nat.le_trans hhi h.scopes.2) (Nat.not_le.2 hk)

/-- Walls of what comes later are as well walls from before. -/
theorem Walls.earlier (h : Walls t u room x x' m m') (ha : Hoist.Adds i s.1 t.1) : Walls s u room x x' m m' :=
  { h with
    sites := ⟨Nat.le_trans ha.decls h.sites.1, h.sites.2⟩
    scopes := ⟨Nat.le_trans ha.scopes h.scopes.1, h.scopes.2⟩ }

namespace Lodged

variable {b' : Rooms}

theorem refl (s : Places) : Lodged i .empty s s where
  adds := .refl _
  refers := .still rfl rfl rfl (.refl _) (fun _ _ => rfl) rfl
  tops _ h := by rcases h with h | h | h | h <;> cases h
  plain _ h := by rcases h with h | h <;> cases h
  heads _ _ h := by cases h
  fixed _ h := by cases h
  rooms _ h := by cases h

/-- The same piece with its rooms collected in another order. -/
theorem mono (h : Lodged i b s t) (hs : b.sites ⊆ b'.sites) (he : b.exported ⊆ b'.exported) (hv : b'.vars ⊆ b.vars)
    (hh : b'.heads ⊆ b.heads) (hf : b'.fixed ⊆ b.fixed) (hl : b'.loose ⊆ b.loose) (hr : b'.rooms ⊆ b.rooms) :
    Lodged i b' s t where
  adds := h.adds
  refers := h.refers.mono hs he
  tops σ hσ := h.tops σ (hσ.imp (@hv σ) (.imp (@hh σ) (.imp (@hf σ) (@hl σ))))
  plain σ hσ := h.plain σ (hσ.imp (@hv σ) (@hl σ))
  heads hi σ hσ := h.heads hi σ (hh hσ)
  fixed σ hσ := h.fixed σ (hf hσ)
  rooms room hroom := h.rooms room (hr hroom)

theorem weaken (h : Lodged .nothing b s t) (hi : i.isExport = false) : Lodged i b s t :=
  { h with
    adds := h.adds.weaken
    heads := fun he => absurd (hi.symm.trans he) Bool.false_ne_true }

/-- What declares a site that is numbered between two states is there by then. -/
theorem declared {xs : Rooms} (h : Lodged i xs t u) (hi : ∀ σ, i.origin? = some (.declarator σ) → σ < s.1.decls.size)
    {σ : Site} (hσ : s.1.Numbered t.1 σ) {j : Nat} {d : Binding} (hj : u.1.bindings[j]? = some d)
    (ho : d.origin.site? = some σ) : ∃ c, t.1.bindings[j]? = some c ∧ c.Stays d := by
  by_cases hlt : j < t.1.bindings.size
  · exact h.adds.outlasts.stays hlt hj
  · rcases (h.adds.fresh (Nat.not_lt.1 hlt) hj).origin σ ho with hn | hd
    · exact absurd hσ.2 (Nat.not_lt.2 hn.1)
    · exact absurd (hi σ hd) (Nat.not_lt.2 hσ.1)

theorem append (h : Lodged i a s t) (h' : Lodged i b t u) (hs : Joined s) (ht : Joined t)
    (hi : ∀ σ, i.origin? = some (.declarator σ) → σ < s.1.decls.size) : Lodged i (a.append b) s u where
  adds := h.adds.trans h'.adds
  refers := h.refers.trans h'.refers
  tops σ hσ := by
    have hcases : (σ ∈ a.vars ∨ σ ∈ a.heads ∨ σ ∈ a.fixed ∨ σ ∈ a.loose) ∨
        (σ ∈ b.vars ∨ σ ∈ b.heads ∨ σ ∈ b.fixed ∨ σ ∈ b.loose) := by
      simp only [Rooms.append, List.mem_append] at hσ
      tauto
    rcases hcases with ha | hb
    · have hn := h.tops σ ha
      exact ⟨hn.1, Nat.lt_of_lt_of_le hn.2 h'.adds.decls⟩
    · have hn := h'.tops σ hb
      exact ⟨Nat.le_trans h.adds.decls hn.1, hn.2⟩
  plain σ hσ j d hj ho := by
    have hcases : (σ ∈ a.vars ∨ σ ∈ a.loose) ∨ (σ ∈ b.vars ∨ σ ∈ b.loose) := by
      simp only [Rooms.append, List.mem_append] at hσ
      tauto
    rcases hcases with ha | hb
    · obtain ⟨c, hc, hst⟩ := h'.declared hi (h.tops σ (by tauto)) hj ho
      exact hst.origin.trans (h.plain σ ha hc (hst.origin ▸ ho))
    · exact h'.plain σ hb hj ho
  heads he σ hσ j d hj ho := by
    rcases List.mem_append.1 hσ with ha | hb
    · obtain ⟨c, hc, hst⟩ := h'.declared hi (h.tops σ (.inr (.inl ha))) hj ho
      exact hst.exported (h.heads he σ ha hc (hst.origin ▸ ho))
    · exact h'.heads he σ hb hj ho
  fixed σ hσ j d hj ho := by
    rcases List.mem_append.1 hσ with ha | hb
    · obtain ⟨c, hc, hst⟩ := h'.declared hi (h.tops σ (.inr (.inr (.inl ha)))) hj ho
      exact hst.exported (h.fixed σ ha hc (hst.origin ▸ ho))
    · exact h'.fixed σ hb hj ho
  rooms room hroom := by
    rcases List.mem_append.1 hroom with ha | hb
    · obtain ⟨x, x', m, m', hw⟩ := h.rooms room ha
      refine ⟨x, x', m, m', hw.later ht (fun k hk => ?_) h'.adds h'.refers fun σ hσ =>
        Nat.lt_of_lt_of_le (hi σ hσ) hw.sites.1⟩
      exact Nat.le_trans (hs.marks k (h.adds.path ▸ hk)) hw.scopes.1
    · obtain ⟨x, x', m, m', hw⟩ := h'.rooms room hb
      exact ⟨x, x', m, m', hw.earlier h.adds⟩

/-- A piece that declares nothing around it is a room. -/
theorem walls (h : Lodged .nothing b s t) (hs : Joined s) : Walls s t (b.vars ++ b.heads, b.sites)
    s.1.decls.size t.1.decls.size s.1.scopes.size t.1.scopes.size where
  sites := ⟨Nat.le_refl _, Nat.le_refl _⟩
  scopes := ⟨Nat.le_refl _, Nat.le_refl _⟩
  tops σ hσ := h.tops σ ((List.mem_append.1 hσ).imp id .inl)
  inside {j d σ} hj ho hlo _ := by
    by_cases hlt : j < s.1.bindings.size
    · obtain ⟨c, hc, hst⟩ := h.adds.outlasts.stays hlt hj
      exact absurd (hs.origins hc (hst.origin ▸ ho)) (Nat.not_lt.2 hlo)
    · exact (h.adds.fresh (Nat.not_lt.1 hlt) hj).place.resolve_right fun hp => hp.1 rfl
  refs {y j d} hj hd hlo _ := by
    have hnew : s.2.info.boundAt? y ≠ some j := fun hbound => by
      obtain ⟨c, hc, hst⟩ := h.refers.binding hd
      exact absurd (hs.bound hbound hc) (Nat.not_le.2 (hst.scope ▸ hlo))
    exact (h.refers.exported y j d hj hd).resolve_left hnew

theorem close (h : Lodged .nothing b s t) (hs : Joined s) : Lodged .nothing b.close s t :=
  { h with
    tops := fun σ hσ => h.tops σ (hσ.imp (absurd · List.not_mem_nil) (.imp (absurd · List.not_mem_nil) id))
    plain := fun σ hσ => h.plain σ (hσ.imp (absurd · List.not_mem_nil) id)
    heads := fun he => absurd he Bool.false_ne_true
    rooms := fun room hroom => by
      rcases List.mem_cons.1 hroom with rfl | hroom
      · exact ⟨_, _, _, _, h.walls hs⟩
      · exact h.rooms room hroom }

theorem shut (h : Lodged i b s t) : Lodged i b.shut s t :=
  { h with
    tops := fun σ hσ => by
      simp only [Rooms.shut, List.mem_append] at hσ
      exact h.tops σ (by tauto)
    plain := fun σ hσ => by
      simp only [Rooms.shut, List.mem_append] at hσ
      exact h.plain σ (by tauto)
    heads := fun _ _ hσ => absurd hσ List.not_mem_nil }

theorem fix (h : Lodged i b s t) (hi : i.isExport = true) : Lodged i b.fix s t :=
  { h with
    tops := fun σ hσ => by
      simp only [Rooms.fix, List.mem_append] at hσ
      exact h.tops σ (by tauto)
    plain := fun σ hσ => by
      simp only [Rooms.fix, List.mem_append] at hσ
      exact h.plain σ (by tauto)
    heads := fun _ _ hσ => absurd hσ List.not_mem_nil
    fixed := fun σ hσ j d hj ho =>
      (List.mem_append.1 hσ).elim (fun hh => h.heads hi σ hh hj ho) fun hf => h.fixed σ hf hj ho }

end Lodged

end

end Deadwood
