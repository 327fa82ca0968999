import Deadwood.Proofs.References

/-!
# Names are declared before they are read

Resolution goes through the identifiers of a program in the order in which they come into being.  Where it
finds that a name always has one value and is never read too early, the declaration that gives the name its
value comes before each of its references.  `Fold.dated` says so of a piece of syntax, for the list of the
sites that have been gone through.
-/

namespace Deadwood

/-! ### Two folds at once -/

section

variable {α β : Type}

/-- Collects what both folds collect. -/
def Fold.both (F : Fold α) (G : Fold β) : Fold (α × β) where
  empty := (F.empty, G.empty)
  append a b := (F.append a.1 b.1, G.append a.2 b.2)
  ident role id := (F.ident role id, G.ident role id)
  expr e a := (F.expr e a.1, G.expr e a.2)
  stmt t a := (F.stmt t a.1, G.stmt t a.2)
  declarator d a := (F.declarator d a.1, G.declarator d a.2)
  element d a := (F.element d a.1, G.element d a.2)
  funcDecl f a := (F.funcDecl f a.1, G.funcDecl f a.2)
  clsDecl c a := (F.clsDecl c a.1, G.clsDecl c a.2)
  property p a := (F.property p a.1, G.property p a.2)
  hole := (F.hole, G.hole)

theorem Fold.both_fst (F : Fold α) (G : Fold β) : (F.both G).Relates F fun a b => a.1 = b where
  empty := rfl
  append h h' := congrArg₂ F.append h h'
  ident _ _ := rfl
  expr e _ _ _ h := congrArg (F.expr e) h
  stmt t _ _ _ h := congrArg (F.stmt t) h
  declarator _ _ _ _ h := congrArg (F.declarator _) h
  element _ _ _ _ h := congrArg (F.element _) h
  funcDecl f h := congrArg (F.funcDecl f) h
  clsDecl c h := congrArg (F.clsDecl c) h
  property p _ _ h := congrArg (F.property p) h
  hole := rfl

theorem Fold.both_snd (F : Fold α) (G : Fold β) : (F.both G).Relates G fun a b => a.2 = b where
  empty := rfl
  append h h' := congrArg₂ G.append h h'
  ident _ _ := rfl
  expr e _ _ _ h := congrArg (G.expr e) h
  stmt t _ _ _ h := congrArg (G.stmt t) h
  declarator _ _ _ _ h := congrArg (G.declarator _) h
  element _ _ _ _ h := congrArg (G.element _) h
  funcDecl f h := congrArg (G.funcDecl f) h
  clsDecl c h := congrArg (G.clsDecl c) h
  property p _ _ h := congrArg (G.property p) h
  hole := rfl

variable {F : Fold α} {G : Fold β}

theorem Fold.both_lawful (hF : F.Lawful) (hG : G.Lawful) : (F.both G).Lawful where
  assoc a b c := Prod.ext (hF.assoc a.1 b.1 c.1) (hG.assoc a.2 b.2 c.2)
  empty_left a := Prod.ext (hF.empty_left a.1) (hG.empty_left a.2)
  empty_right a := Prod.ext (hF.empty_right a.1) (hG.empty_right a.2)

@[simp] theorem Expr.fold_both (e : Expr) : e.fold (F.both G) = (e.fold F, e.fold G) :=
  Prod.ext (e.fold_related (F.both_fst G)) (e.fold_related (F.both_snd G))

@[simp] theorem Expr.foldOpt_both (e : Option Expr) :
    Expr.foldOpt (F.both G) e = (Expr.foldOpt F e, Expr.foldOpt G e) :=
  Prod.ext (Expr.foldOpt_related (F.both_fst G) e) (Expr.foldOpt_related (F.both_snd G) e)

@[simp] theorem Property.fold_both (p : Property) : p.fold (F.both G) = (p.fold F, p.fold G) :=
  Prod.ext (p.fold_related (F.both_fst G)) (p.fold_related (F.both_snd G))

@[simp] theorem Func.fold_both (kind : BindingKind) (f : Func) :
    f.fold (F.both G) kind = (f.fold F kind, f.fold G kind) :=
  Prod.ext (f.fold_related (F.both_fst G) kind) (f.fold_related (F.both_snd G) kind)

@[simp] theorem Class.fold_both (kind : BindingKind) (c : Class) :
    c.fold (F.both G) kind = (c.fold F kind, c.fold G kind) :=
  Prod.ext (c.fold_related (F.both_fst G) kind) (c.fold_related (F.both_snd G) kind)

@[simp] theorem Pattern.fold_both (kind : BindingKind) (p : Pattern) :
    p.fold (F.both G) kind = (p.fold F kind, p.fold G kind) :=
  Prod.ext (p.fold_related (F.both_fst G) kind) (p.fold_related (F.both_snd G) kind)

@[simp] theorem Declarator.fold_both (kind : BindingKind) (d : Declarator) :
    d.fold (F.both G) kind = (d.fold F kind, d.fold G kind) :=
  Prod.ext (d.fold_related (F.both_fst G) kind) (d.fold_related (F.both_snd G) kind)

@[simp] theorem Declarator.foldElem_both (kind : BindingKind) (d : Declarator) :
    d.foldElem (F.both G) kind = (d.foldElem F kind, d.foldElem G kind) :=
  Prod.ext (d.foldElem_related (F.both_fst G) kind) (d.foldElem_related (F.both_snd G) kind)

@[simp] theorem Declarator.foldList_both (kind : BindingKind) (ds : List Declarator) :
    Declarator.foldList (F.both G) kind ds = (Declarator.foldList F kind ds, Declarator.foldList G kind ds) :=
  Prod.ext (Declarator.foldList_related (F.both_fst G) kind ds) (Declarator.foldList_related (F.both_snd G) kind ds)

@[simp] theorem Stmt.fold_both (x : Stmt) : x.fold (F.both G) = (x.fold F, x.fold G) :=
  Prod.ext (x.fold_related (F.both_fst G)) (x.fold_related (F.both_snd G))

@[simp] theorem Stmt.foldList_both (xs : List Stmt) :
    Stmt.foldList (F.both G) xs = (Stmt.foldList F xs, Stmt.foldList G xs) :=
  Prod.ext (Stmt.foldList_related (F.both_fst G) xs) (Stmt.foldList_related (F.both_snd G) xs)

end

/-! ### Declarations -/

namespace Hoist

/-- A constant binding is declared at one site, and a name that gets its value from a declaration that is run
does not have it from the start. -/
structure State.Sound (s : State) : Prop where
  named : ∀ sc ∈ s.scopes, ∀ p ∈ sc.names, p.2 < s.bindings.size
  bound : ∀ {x : Site} {i : BindingId}, s.decls[x]? = some (some i) → i < s.bindings.size
  once : ∀ {i : BindingId} {b : Binding} {x y : Site}, s.bindings[i]? = some b → b.isConstant = true → s.decls[x]? = some (some i) →
    s.decls[y]? = some (some i) → x = y
  late : ∀ {i : BindingId} {b : Binding}, s.bindings[i]? = some b → b.origin.isRun = true → b.isInitialized = false

namespace State.Sound

variable {s t : State}

theorem start : State.start.Sound where
  named := by simp [State.start]
  bound {x i} h := by
    rcases x with _ | x <;> simp [State.start] at h
  once h := by simp [State.start] at h
  late h := by simp [State.start] at h

/-- What counts of a binding here. -/
def essence (b : Binding) : Bool × Origin × Bool := (b.isConstant, b.origin, b.isInitialized)

/-- Nothing that counts of a binding changes. -/
theorem congr (h : s.Sound) (hs : t.scopes = s.scopes) (hd : t.decls = s.decls)
    (hb : t.bindings.map essence = s.bindings.map essence) : t.Sound := by
  have hsize : t.bindings.size = s.bindings.size := by simpa using congrArg Array.size hb
  have hold {i : Nat} {c : Binding} (hc : t.bindings[i]? = some c) :
      ∃ b, s.bindings[i]? = some b ∧ essence b = essence c := by
    have hi := congrArg (·[i]?) hb
    simp only [Array.getElem?_map, hc, Option.map_some] at hi
    obtain ⟨b, hb, he⟩ := Option.map_eq_some_iff.1 hi.symm
    exact ⟨b, hb, he⟩
  refine ⟨?_, ?_, ?_, ?_⟩
  · rw [hs, hsize]
    exact h.named
  · rw [hd, hsize]
    exact h.bound
  · intro i c x y hc hconst hx hy
    obtain ⟨b, hb, he⟩ := hold hc
    rw [hd] at hx hy
    exact h.once hb ((congrArg Prod.fst he).trans hconst) hx hy
  · intro i c hc hrun
    obtain ⟨b, hb, he⟩ := hold hc
    have ho : b.origin = c.origin := congrArg (·.2.1) he
    exact (congrArg (·.2.2) he).symm.trans (h.late hb (ho ▸ hrun))

theorem fresh (h : s.Sound) : (Hoist.fresh s).2.Sound := by
  have hold {x : Nat} {i : BindingId} (hx : (s.decls.push none)[x]? = some (some i)) :
      s.decls[x]? = some (some i) := by
    rw [Array.getElem?_push] at hx
    split at hx
    · cases hx
    · exact hx
  exact ⟨h.named, fun hx => h.bound (hold hx), fun hb hc hx hy => h.once hb hc (hold hx) (hold hy), h.late⟩

theorem entering (h : s.Sound) (kind : ScopeKind) (opener : Opener) : (s.entering kind opener).Sound where
  named sc hsc := by
    rcases Array.mem_push.1 hsc with hsc | rfl
    · exact h.named sc hsc
    · exact nofun
  bound := h.bound
  once := h.once
  late := h.late

theorem exportDeclared (h : s.Sound) (ids : List Ident) : (Hoist.exportDeclared ids s).2.Sound := by
  show (ids.foldl _ s).Sound
  induction ids generalizing s with
  | nil => exact h
  | cons id ids ih =>
    refine ih ?_
    dsimp only
    split
    · refine h.congr rfl rfl ?_
      dsimp only
      exact map_modify_eq _ _ _ fun _ => rfl
    · exact h

end State.Sound

/-- The table of sites after a site has been given to a binding. -/
theorem decls_set_eq {decls : Array (Option BindingId)} {x y : Site} {b i : BindingId}
    (h : (decls.setIfInBounds x (some b))[y]? = some (some i)) :
    x = y ∧ i = b ∨ x ≠ y ∧ decls[y]? = some (some i) := by
  rw [Array.getElem?_setIfInBounds] at h
  split at h
  next hxy =>
    split at h
    · cases h
      exact .inl ⟨hxy, rfl⟩
    · cases h
  next hxy => exact .inr ⟨hxy, h⟩

/-- A name declared again is no constant, and a new one has no site but its own. -/
theorem declare_sound (inHead : Bool) (id : Ident) {kind : BindingKind} {origin : Site → Origin} {s : State}
    (hk : kind.Suits (origin s.decls.size)) (hs : s.Sound) : (declare inHead id kind origin s).2.Sound := by
  have h := hs.fresh
  simp only [declare, run_bind, run_get]
  rw [show (fresh s).1 = s.decls.size from rfl]
  generalize s.decls.size = site at hk
  generalize (fresh s).2 = s at h
  cases hfound : (s.scope? (s.holder kind)).bind (·.binding? id.name) with
  | some b =>
    simp only [run_bind, run_set, run_pure]
    obtain ⟨sc, hsc, hb⟩ := Option.bind_eq_some_iff.1 hfound
    have hmem : sc ∈ s.scopes := by
      unfold State.scope? at hsc
      split at hsc
      · cases hsc
      · exact Array.mem_of_getElem? hsc
    obtain ⟨_, _, hnames, -⟩ := List.lookup_eq_some_iff.1 hb
    have hlt : b < s.bindings.size := h.named sc hmem (id.name, b) (by simp [hnames])
    refine ⟨?_, ?_, ?_, ?_⟩
    · simpa only [Array.size_modify] using h.named
    · intro x i hx
      rw [Array.size_modify]
      rcases decls_set_eq hx with ⟨-, rfl⟩ | ⟨-, hx⟩
      · exact hlt
      · exact h.bound hx
    · intro i c x y hc hconst hx hy
      rw [Array.getElem?_modify] at hc
      split at hc
      · obtain ⟨a, -, rfl⟩ := Option.map_eq_some_iff.1 hc
        cases hconst
      next hne =>
        rcases decls_set_eq hx with ⟨-, rfl⟩ | ⟨-, hx⟩
        · exact absurd rfl hne
        rcases decls_set_eq hy with ⟨-, rfl⟩ | ⟨-, hy⟩
        · exact absurd rfl hne
        exact h.once hc hconst hx hy
    · intro i c hc hrun
      rw [Array.getElem?_modify] at hc
      split at hc
      · obtain ⟨a, ha, rfl⟩ := Option.map_eq_some_iff.1 hc
        have hlate := h.late ha hrun
        exact hlate
      · exact h.late hc hrun
  | none =>
    simp only [run_bind, run_set, run_pure]
    have hnew {i : Nat} {b c : Binding} (hc : (s.bindings.push b)[i]? = some c) :
        i = s.bindings.size ∧ c = b ∨ i < s.bindings.size ∧ s.bindings[i]? = some c := by
      rw [Array.getElem?_push] at hc
      split at hc
      next hi =>
        cases hc
        exact .inl ⟨hi, rfl⟩
      · exact .inr ⟨(Array.getElem?_eq_some_iff.1 hc).1, hc⟩
    refine ⟨?_, ?_, ?_, ?_⟩
    · intro sc hsc p hp
      rw [Array.size_push]
      obtain ⟨k, hk⟩ := Array.mem_iff_getElem?.1 hsc
      rw [Array.getElem?_modify] at hk
      split at hk
      · obtain ⟨sc', hsc', rfl⟩ := Option.map_eq_some_iff.1 hk
        rcases List.mem_append.1 hp with hp | hp
        · exact Nat.lt_succ_of_lt (h.named sc' (Array.mem_of_getElem? hsc') p hp)
        · rw [List.mem_singleton.1 hp]
          exact Nat.lt_succ_self _
      · exact Nat.lt_succ_of_lt (h.named sc (Array.mem_of_getElem? hk) p hp)
    · intro x i hx
      rw [Array.size_push]
      rcases decls_set_eq hx with ⟨-, rfl⟩ | ⟨-, hx⟩
      · exact Nat.lt_succ_self _
      · exact Nat.lt_succ_of_lt (h.bound hx)
    · intro i c x y hc hconst hx hy
      rcases hnew hc with ⟨rfl, -⟩ | ⟨hi, hc⟩
      · have hself {z : Site}
            (hz : (s.decls.setIfInBounds site (some s.bindings.size))[z]? = some (some s.bindings.size)) : site = z := by
          rcases decls_set_eq hz with ⟨hz, -⟩ | ⟨-, hz⟩
          · exact hz
          · exact absurd (h.bound hz) (Nat.lt_irrefl _)
        exact (hself hx).symm.trans (hself hy)
      · rcases decls_set_eq hx with ⟨-, rfl⟩ | ⟨-, hx⟩
        · exact absurd hi (Nat.lt_irrefl _)
        rcases decls_set_eq hy with ⟨-, rfl⟩ | ⟨-, hy⟩
        · exact absurd hi (Nat.lt_irrefl _)
        exact h.once hc hconst hx hy
    · intro i c hc hrun
      rcases hnew hc with ⟨-, rfl⟩ | ⟨-, hc⟩
      · exact hk hrun
      · exact h.late hc hrun

theorem sound_walks : Walks visitor Fold.unit Fold.unit fun _ _ s _ t => s.Sound → t.Sound where
  empty hs := hs
  append h h' hs := h' (h hs)
  swap h h' hs := h' (h hs)
  assoc h := h
  weaken _ h := h
  literal _ h := h
  hole hs := hs
  label _ hs := hs
  propertyName _ hs := hs
  refer _ _ _ hs := hs.fresh
  declare inHead id _ _ _ hk hs := declare_sound inHead id hk.1 hs
  exportName _ _ hs := hs.fresh
  exportDeclared ids h hs := (h hs).exportDeclared ids
  contain _ h hs := h { hs with }
  called _ h := h
  inScope _ act k kind opener h s hs := { h _ (hs.entering kind opener) with }
  straddle act k l kind opener h s hb hs := by
    obtain ⟨t, ha, hc⟩ := h (s.entering kind opener)
    exact { hc (ha ((hb hs).entering kind opener)) with }
  scope_map f act _ _ := rfl
  expr _ h := h
  stmt _ _ h := h
  foreign _ _ _ hs := hs
  property _ h := h
  element _ _ h hs := h hs.fresh
  declarator _ _ h h' hs := h' (h hs.fresh)
  func _ _ h := h
  funcNamed inHead container id _ _ _ _ _ _ _ _ h hs := h (declare_sound inHead id nofun { hs with })
  cls _ _ _ h h' hs := h' (h hs)
  clsNamed inHead container id _ _ _ _ _ _ _ _ _ _ _ _ h h' hs :=
    declare_sound inHead id (fun _ => rfl) { h' (h hs) with }

end Hoist

/-! ### References -/

namespace Info

/-- Whether a binding always has one value, from a declaration that is run, and has it before it is read. -/
def isOrdered (info : Info) (j : BindingId) : Bool :=
  (info.binding? j).any fun b => b.isConstant && !b.isForward && b.origin.isRun

/-- One of the sites is declared to be that of the binding. -/
def Declared (info : Info) (L : List Site) (j : BindingId) : Prop := ∃ x ∈ L, info.decls[x]? = some (some j)

/-- The names that have been initialized and were not so from the start are declared at one of the sites. -/
def Begun (info : Info) (L : List Site) : Prop :=
  ∀ j b, info.binding? j = some b → b.isInitialized = true → b.origin.isRun = true → info.Declared L j

theorem isOrdered_iff {info : Info} {j : BindingId} : info.isOrdered j = true ↔
    ∃ b, info.binding? j = some b ∧ b.isConstant = true ∧ b.isForward = false ∧ b.origin.isRun = true := by
  unfold isOrdered
  cases info.binding? j with
  | none => simp
  | some b => simp [and_assoc]

theorem Declared.mono {info : Info} {L M : List Site} {j : BindingId} (h : info.Declared L j) (hL : L <+: M) :
    info.Declared M j := by
  obtain ⟨x, hx, hj⟩ := h
  exact ⟨x, hL.subset hx, hj⟩

end Info

/-- Says of a list of sites in order: every reference to a constant that is never read too early comes after
the site at which that one is declared, and what a declaration is made of comes before its name. -/
def Fold.dated : Fold (Info → List Site → Prop) where
  empty _ _ := True
  append P Q info L := P info L ∧ Q info L
  ident role id info L := role = .reference → ∀ j, info.bindingOf? id = some j → info.isOrdered j = true →
    info.Declared L j
  declarator d P info L :=
    match d with
    | .mk _ (.ident id) _ => ∃ K, P info K ∧ K ++ [id.site] <+: L
    | _ => P info L
  element _ P := P
  clsDecl c P info L :=
    match c.name with
    | some id => ∃ K, P info K ∧ K ++ [id.site] <+: L
    | none => P info L

theorem Fold.dated_ident {role : Role} (h : role ≠ .reference) (id : Ident) (info : Info) (L : List Site) :
    Fold.dated.ident role id info L := fun hr => absurd hr h

namespace Resolve

/-- What is known later on: the references bound at the given sites stay bound, and no name becomes constant. -/
structure Later (xs : List Site) (info info' : Info) : Prop where
  decls : info'.decls = info.decls
  refs : ∀ x ∈ xs, info'.refs[x]? = info.refs[x]?
  ordered : ∀ j, info'.isOrdered j = true → info.isOrdered j = true

/-- From one stage to the next the given sites are gone through in some order, of which `P` holds. -/
structure Passes (xs : List Site) (P : Info → List Site → Prop) (info info' : Info) : Prop where
  decls : info'.decls = info.decls
  frame : ∀ x ∉ xs, info'.refs[x]? = info.refs[x]?
  ordered : ∀ j, info'.isOrdered j = true → info.isOrdered j = true
  order : ∀ L, info.Begun L → ∃ L', L'.Perm xs ∧ info'.Begun (L ++ L') ∧
    ∀ info'' M, Later xs info' info'' → L ++ L' <+: M → P info'' M

/-- The same where nothing is bound at the sites to begin with, and none of them is there twice. -/
def Dates (xs : List Site) (P : Info → List Site → Prop) (info info' : Info) : Prop :=
  xs.Nodup → (∀ x ∈ xs, info.refs[x]? = some none) → Passes xs P info info'

/-- Nothing that matters here changes. -/
structure Quiet (info info' : Info) : Prop where
  decls : info'.decls = info.decls
  refs : info'.refs = info.refs
  bindings : ∀ {j c}, info'.binding? j = some c → ∃ b, info.binding? j = some b ∧ c.isConstant = b.isConstant ∧
    c.isForward = b.isForward ∧ c.isInitialized = b.isInitialized ∧ c.origin = b.origin

namespace Quiet

variable {info info' : Info}

theorem refl (info : Info) : Quiet info info := ⟨rfl, rfl, fun h => ⟨_, h, rfl, rfl, rfl, rfl⟩⟩

theorem trans {info'' : Info} (h : Quiet info info') (h' : Quiet info' info'') : Quiet info info'' where
  decls := h'.decls.trans h.decls
  refs := h'.refs.trans h.refs
  bindings hc := by
    obtain ⟨b, hb, h₁, h₂, h₃, h₄⟩ := h'.bindings hc
    obtain ⟨a, ha, k₁, k₂, k₃, k₄⟩ := h.bindings hb
    exact ⟨a, ha, h₁.trans k₁, h₂.trans k₂, h₃.trans k₃, h₄.trans k₄⟩

theorem modifyScope (info : Info) (m : Mark) (f : Scope → Scope) : Quiet info (info.modifyScope m f) := by
  unfold Info.modifyScope
  split
  · exact .refl info
  · exact { refl info with }

theorem ordered (h : Quiet info info') {j : BindingId} (hj : info'.isOrdered j = true) : info.isOrdered j = true := by
  rw [Info.isOrdered_iff] at hj ⊢
  obtain ⟨c, hc, hconst, hfwd, hrun⟩ := hj
  obtain ⟨b, hb, h₁, h₂, -, h₄⟩ := h.bindings hc
  exact ⟨b, hb, h₁ ▸ hconst, h₂ ▸ hfwd, h₄ ▸ hrun⟩

theorem begun (h : Quiet info info') {L : List Site} (hL : info.Begun L) : info'.Begun L := by
  intro j c hc hinit hrun
  obtain ⟨b, hb, -, -, h₃, h₄⟩ := h.bindings hc
  obtain ⟨x, hx, hj⟩ := hL j b hb (h₃ ▸ hinit) (h₄ ▸ hrun)
  exact ⟨x, hx, h.decls ▸ hj⟩

theorem modify (info : Info) (i : BindingId) {f : Binding → Binding}
    (hf : ∀ b, (f b).isConstant = b.isConstant ∧ (f b).isForward = b.isForward ∧
      (f b).isInitialized = b.isInitialized ∧ (f b).origin = b.origin) : Quiet info (info.modifyBinding i f) := by
  refine ⟨rfl, rfl, fun {j c} hc => ?_⟩
  simp only [Info.modifyBinding, Info.binding?, Array.getElem?_modify] at hc
  split at hc
  · obtain ⟨b, hb, rfl⟩ := Option.map_eq_some_iff.1 hc
    exact ⟨b, hb, hf b⟩
  · exact ⟨c, hc, rfl, rfl, rfl, rfl⟩

end Quiet

namespace Dates

variable {xs ys zs : List Site} {P Q R : Info → List Site → Prop} {info info' info'' : Info} {x : Site}

theorem imp (h : Dates xs P info info') (hPQ : ∀ {f M}, P f M → Q f M) : Dates xs Q info info' := by
  intro hnodup hfree
  refine { h hnodup hfree with order := fun L hL => ?_ }
  obtain ⟨L', hperm, hbegun, hP⟩ := (h hnodup hfree).order L hL
  exact ⟨L', hperm, hbegun, fun f M hf hM => hPQ (hP f M hf hM)⟩

theorem nil (h : Quiet info info') (hP : ∀ f M, P f M) : Dates [] P info info' := by
  intro _ _
  refine ⟨h.decls, fun x _ => by rw [h.refs], fun j => h.ordered, fun L hL => ⟨[], .nil, ?_, fun f M _ _ => hP f M⟩⟩
  rw [List.append_nil]
  exact h.begun hL

/-- One piece after another; what is then said of the sites may tell those of the first piece from the rest. -/
theorem comp (h : Dates xs P info info') (h' : Dates ys Q info' info'') (hz : zs.Perm (xs ++ ys))
    (hR : ∀ {f K L M}, L.Perm ys → K ++ L <+: M → (∀ N, K <+: N → P f N) → Q f M → R f M) :
    Dates zs R info info'' := by
  intro hnodup hfree
  obtain ⟨hx, hy, hxy⟩ := List.nodup_append.1 (hz.nodup_iff.1 hnodup)
  have h := h hx fun x hx => hfree x (hz.mem_iff.2 (List.mem_append_left _ hx))
  have h' := h' hy fun y hy => by
    rw [h.frame y fun hx => hxy y hx y hy rfl]
    exact hfree y (hz.mem_iff.2 (List.mem_append_right _ hy))
  refine ⟨h'.decls.trans h.decls, fun x hx => ?_, fun j hj => h.ordered j (h'.ordered j hj), fun L hL => ?_⟩
  · have hx := mt hz.mem_iff.2 hx
    rw [List.mem_append, not_or] at hx
    rw [h'.frame x hx.2, h.frame x hx.1]
  · obtain ⟨L₁, hperm₁, hbegun₁, hP⟩ := h.order L hL
    obtain ⟨L₂, hperm₂, hbegun₂, hQ⟩ := h'.order (L ++ L₁) hbegun₁
    rw [List.append_assoc] at hbegun₂
    refine ⟨L₁ ++ L₂, (hperm₁.append hperm₂).trans hz.symm, hbegun₂, fun f M hf hM => ?_⟩
    rw [← List.append_assoc] at hM
    refine hR hperm₂ hM (fun N hN => hP f N ?_ hN) (hQ f M ?_ hM)
    · refine ⟨hf.decls.trans h'.decls, fun x hx => ?_, fun j hj => h'.ordered j (hf.ordered j hj)⟩
      rw [hf.refs x (hz.mem_iff.2 (List.mem_append_left _ hx)), h'.frame x fun hy => hxy x hx x hy rfl]
    · exact ⟨hf.decls, fun y hy => hf.refs y (hz.mem_iff.2 (List.mem_append_right _ hy)), hf.ordered⟩

theorem join (h : Dates xs P info info') (h' : Dates ys Q info' info'') :
    Dates (xs ++ ys) (Fold.dated.append P Q) info info'' :=
  h.comp h' (.refl _) fun _ hM hP hQ => ⟨hP _ ((List.prefix_append ..).trans hM), hQ⟩

theorem swap (h : Dates ys Q info info') (h' : Dates xs P info' info'') :
    Dates (xs ++ ys) (Fold.dated.append P Q) info info'' :=
  h.comp h' List.perm_append_comm fun _ hM hQ hP => ⟨hP, hQ _ ((List.prefix_append ..).trans hM)⟩

theorem after (h : Dates xs P info info') (h' : Quiet info' info'') : Dates xs P info info'' :=
  h.comp (nil h' (P := fun _ _ => True) fun _ _ => trivial) (by rw [List.append_nil])
    fun _ hM hP _ => hP _ ((List.prefix_append ..).trans hM)

/-- A name is declared after what its declaration is made of. -/
theorem declared (h : Dates xs P info info') (h' : Dates [x] Q info' info'') (hz : zs.Perm (xs ++ [x])) :
    Dates zs (fun f M => ∃ K, P f K ∧ K ++ [x] <+: M) info info'' :=
  h.comp h' hz fun {_ K _ _} hL hM hP _ => ⟨K, hP K List.prefix_rfl, List.perm_singleton.1 hL ▸ hM⟩

end Dates

theorem declare_dates (id : Ident) (s : State) {P : Info → List Site → Prop} (hP : ∀ f M, P f M) :
    Dates [id.site] P s.info (declare id s).2.info := by
  have hmono {L : List Site} (hL : s.info.Begun L) : s.info.Begun (L ++ [id.site]) :=
    fun j b hb hinit hrun => (hL j b hb hinit hrun).mono (List.prefix_append ..)
  simp only [declare, run_bind, run_get]
  cases hd : s.info.declaration? id with
  | none =>
    exact fun _ _ => ⟨rfl, fun _ _ => rfl, fun _ h => h, fun L hL => ⟨_, .refl _, hmono hL, fun f M _ _ => hP f M⟩⟩
  | some b =>
    simp only [run_bind, run_set, run_pure]
    have hold {j : BindingId} {c : Binding}
        (hc : (s.info.modifyBinding b fun b => { b with isInitialized := true }).binding? j = some c) :
        ∃ a, s.info.binding? j = some a ∧ (c = a ∨ b = j ∧ c = { a with isInitialized := true }) := by
      simp only [Info.modifyBinding, Info.binding?, Array.getElem?_modify] at hc
      split at hc
      next hj =>
        obtain ⟨a, ha, rfl⟩ := Option.map_eq_some_iff.1 hc
        exact ⟨a, ha, .inr ⟨hj, rfl⟩⟩
      · exact ⟨c, hc, .inl rfl⟩
    intro _ _
    refine ⟨rfl, fun _ _ => rfl, fun j hj => ?_, fun L hL => ⟨_, .refl _, ?_, fun f M _ _ => hP f M⟩⟩
    · rw [Info.isOrdered_iff] at hj ⊢
      obtain ⟨c, hc, h⟩ := hj
      obtain ⟨a, ha, rfl | ⟨-, rfl⟩⟩ := hold hc
      · exact ⟨_, ha, h⟩
      · exact ⟨a, ha, h⟩
    · intro j c hc hinit hrun
      obtain ⟨a, ha, rfl | ⟨rfl, -⟩⟩ := hold hc
      · exact hmono hL j _ ha hinit hrun
      · exact ⟨id.site, List.mem_append_right _ List.mem_cons_self, Option.join_eq_some_iff.1 hd⟩

/-- A reference that does not come too early finds its binding initialized. -/
theorem refer_dates (writing : Bool) (id : Ident) (s : State) :
    Dates [id.site] (Fold.dated.ident .reference (refer writing id s).1) s.info (refer writing id s).2.info := by
  have hsite : (refer writing id s).1.site = id.site := refer_site writing id s
  have hmono {L : List Site} (hL : s.info.Begun L) : s.info.Begun (L ++ [id.site]) :=
    fun j b hb hinit hrun => (hL j b hb hinit hrun).mono (List.prefix_append ..)
  intro _ hfree
  have hfree : s.info.refs[id.site]? = some none := hfree _ List.mem_cons_self
  -- What the reference is bound to later on is what it has been bound to here.
  have hbound {f : Info} (hf : Later [id.site] (refer writing id s).2.info f) :
      f.bindingOf? (refer writing id s).1 = (refer writing id s).2.info.refs[id.site]?.join.map Prod.fst := by
    rw [Info.bindingOf?, hsite, hf.refs _ List.mem_cons_self]
  cases hl : s.info.lookupIn s.path id.name with
  | none =>
    simp only [refer, run_bind, run_get, hl, run_pure] at hbound ⊢
    refine ⟨rfl, fun _ _ => rfl, fun _ h => h, fun L hL => ⟨_, .refl _, hmono hL, fun f M hf _ => ?_⟩⟩
    intro _ j hj
    rw [hbound hf, hfree] at hj
    cases hj
  | some b =>
    simp only [refer, run_bind, run_get, hl, run_set, run_pure] at hbound ⊢
    have hold {j : BindingId} {c : Binding} (hc : (s.info.modifyBinding b fun b => { b with
          references := b.references + 1
          isConstant := b.isConstant && !writing
          isForward := b.isForward || (!writing && !b.isInitialized) }).binding? j = some c) :
        ∃ a, s.info.binding? j = some a ∧ c.isInitialized = a.isInitialized ∧ c.origin = a.origin ∧
          (c.isConstant = true → a.isConstant = true) ∧ (c.isForward = false → a.isForward = false) ∧
          (b = j → c.isConstant = true → c.isForward = false → a.isInitialized = true) := by
      simp only [Info.modifyBinding, Info.binding?, Array.getElem?_modify] at hc
      split at hc
      · obtain ⟨a, ha, rfl⟩ := Option.map_eq_some_iff.1 hc
        refine ⟨a, ha, rfl, rfl, ?_, ?_, ?_⟩
        · simp +contextual
        · simp +contextual
        · cases writing <;> simp +contextual
      next hne => exact ⟨c, hc, rfl, rfl, fun h => h, fun h => h, fun h => absurd h hne⟩
    refine ⟨rfl, fun x hx => ?_, fun j hj => ?_, fun L hL => ⟨_, .refl _, fun j c hc hinit hrun => ?_, fun f M hf hM => ?_⟩⟩
    · exact Array.getElem?_setIfInBounds_ne fun h => hx (List.mem_singleton.2 h.symm)
    · rw [Info.isOrdered_iff] at hj ⊢
      obtain ⟨c, hc, hconst, hfwd, hrun⟩ := hj
      obtain ⟨a, ha, -, ho, h₁, h₂, -⟩ := hold hc
      exact ⟨a, ha, h₁ hconst, h₂ hfwd, ho ▸ hrun⟩
    · obtain ⟨a, ha, hi, ho, -⟩ := hold hc
      exact hmono hL j a ha (hi ▸ hinit) (ho ▸ hrun)
    · intro _ j hj hord
      have hset := hbound hf
      have hlt : id.site < s.info.refs.size := (Array.getElem?_eq_some_iff.1 hfree).1
      rw [Array.getElem?_setIfInBounds, if_pos rfl,
        if_pos (show id.site < (s.info.modifyBinding b _).refs.size from hlt)] at hset
      rw [hset] at hj
      cases hj
      obtain ⟨c, hc, hconst, hfwd, hrun⟩ := Info.isOrdered_iff.1 (hf.ordered b hord)
      obtain ⟨a, ha, -, ho, -, -, hinit⟩ := hold hc
      obtain ⟨x, hx, hxb⟩ := hmono hL b a ha (hinit rfl hconst hfwd) (ho ▸ hrun)
      exact ⟨x, hM.subset hx, hf.decls ▸ hxb⟩

theorem exportName_dates (id : Ident) (s : State) :
    Dates [id.site] (Fold.dated.ident .exported (exportName id s).1) s.info (exportName id s).2.info := by
  have h := (refer_dates false id s).imp (Q := Fold.dated.ident .exported (exportName id s).1) fun _ => nofun
  refine h.after ?_
  simp only [exportName, run_bind, run_pure]
  generalize refer false id s = r
  simp only [modify, modifyGet, MonadStateOf.modifyGet, StateT.modifyGet]
  split
  · exact .modify _ _ fun _ => ⟨rfl, rfl, rfl, rfl⟩
  · exact .refl _

theorem called_quiet (id : Ident) (s : State) : Quiet s.info (called id s).2.info := by
  have hscopes (info : Info) (path : List Mark) :
      Quiet info (path.foldl (fun info m => info.modifyScope m fun sc => { sc with hasEval := true }) info) := by
    induction path generalizing info with
    | nil => exact .refl info
    | cons m path ih => exact (Quiet.modifyScope info m _).trans (ih _)
  show Quiet s.info (if id.name = "eval" ∧ id.mark = 0 then _ else s).info
  split
  · exact hscopes s.info s.path
  · exact .refl _

/-- Binding the references goes through the sites of a piece in the order that it is dated by. -/
theorem dated_walks : Walks visitor Fold.stamps (Fold.stamps.both Fold.dated)
    fun _ a s b t => a = b.1 ∧ Dates a.live b.2 s.info t.info where
  empty := ⟨rfl, .nil (.refl _) fun _ _ => trivial⟩
  append h h' := ⟨congrArg₂ _ h.1 h'.1, h.2.join h'.2⟩
  swap h h' := ⟨congrArg₂ _ h'.1 h.1, h.2.swap h'.2⟩
  assoc {_ a b c a' b' c' s t} h := by
    have hassoc : (a.append (b.append c)) = (a.append b).append c := by simp [Stamps.append]
    show a.append (b.append c) = a'.1.append (b'.1.append c'.1) ∧ Dates (a.append (b.append c)).live _ _ _
    rw [hassoc]
    refine ⟨h.1.trans (by simp [Fold.both, Fold.stamps, Stamps.append]), h.2.imp fun hP => ?_⟩
    exact ⟨hP.1.1, hP.1.2, hP.2⟩
  weaken _ h := h
  literal _ h := h
  hole := ⟨rfl, .nil (.refl _) fun _ _ => trivial⟩
  label _ := ⟨rfl, .nil (.refl _) (Fold.dated_ident (by simp) _)⟩
  propertyName _ := ⟨rfl, .nil (.refl _) (Fold.dated_ident (by simp) _)⟩
  refer w id s := ⟨congrArg (fun x => Stamps.mk [x] []) (refer_site w id s).symm, refer_dates w id s⟩
  declare inHead id kind origin s _ :=
    ⟨congrArg (fun x => Stamps.mk [x] []) (declare_keeps id s).1.symm, declare_dates id s (Fold.dated_ident (by simp) _)⟩
  exportName id s := ⟨congrArg (fun x => Stamps.mk [x] []) (exportName_site id s).symm, exportName_dates id s⟩
  exportDeclared _ h := h
  contain _ h := h
  called id h := ⟨h.1, h.2.after (called_quiet id _)⟩
  inScope _ act k kind opener h s := h { s with entered := s.entered + 1, path := (s.entered + 1) :: s.path }
  straddle act k l kind opener h s hb := by
    obtain ⟨t, ha, hc⟩ := h { s with entered := s.entered + 1, path := (s.entered + 1) :: s.path }
    refine ⟨congrArg₂ _ ha.1 (congrArg₂ _ hb.1 hc.1), ?_⟩
    refine hb.2.comp (ha.2.join hc.2) (List.perm_append_comm_assoc ..) fun _ hM hb hac => ?_
    exact ⟨hac.1, hb _ ((List.prefix_append ..).trans hM), hac.2⟩
  scope_map f act _ _ := rfl
  expr _ h := h
  stmt ht hf h := by
    obtain ⟨h₁, h₂⟩ := Fold.stamps_stmt ht hf _
    rw [h₁]
    exact ⟨h.1.trans (Fold.stamps_stmt ht hf _).2.symm, h.2⟩
  foreign specs source s := by
    let both (e : ExportSpec) := (Fold.stamps.both Fold.dated).ident .exported e.source
    have hfst := (Fold.both_fst Fold.stamps Fold.dated).all (f := both) (fun _ => rfl) specs
    have hsnd := (Fold.both_snd Fold.stamps Fold.dated).all (f := both) (fun _ => rfl) specs
    refine ⟨congrArg (Fold.stamps.stmt _) hfst.symm, .nil (.refl _) fun f M => ?_⟩
    show ((Fold.stamps.both Fold.dated).all both specs).2 f M
    rw [hsnd]
    clear hfst hsnd
    induction specs with
    | nil => trivial
    | cons e specs ih => exact ⟨Fold.dated_ident (by simp) _ f M, ih⟩
  property _ h := h
  element _ _ h := h
  declarator {kind site target target' init init' s t u _} hform _ h h' := by
    refine ⟨congrArg₂ Stamps.append h'.1 h.1, ?_⟩
    cases target <;> cases target' <;> cases hform
    case ident id id' =>
      have hid : id.site = id'.site := by
        have := congrArg Stamps.live h'.1
        exact List.head_eq_of_cons_eq this
      have hd := h.2.declared (x := id.site) h'.2 List.perm_append_comm
      refine hd.imp fun {f M} hK => ?_
      obtain ⟨K, hP, hM⟩ := hK
      exact ⟨K, ⟨Fold.dated_ident (by simp) _ f K, hP⟩, hid ▸ hM⟩
    all_goals exact h.2.swap h'.2
  func _ _ h := ⟨congrArg _ h.1, h.2.imp fun hP => ⟨trivial, hP⟩⟩
  funcNamed inHead container id f f' a b s t _ _ h :=
    ⟨congrArg₂ Stamps.append (congrArg (fun x => Stamps.mk [x] []) (declare_keeps id s).1.symm) h.1,
      (declare_dates id s (Fold.dated_ident (by simp) _)).join h.2⟩
  cls _ _ hc' h h' := by
    refine ⟨congrArg₂ Stamps.append h.1 (congrArg _ h'.1), (h.2.join h'.2).imp fun hP => ?_⟩
    show Fold.dated.clsDecl _ _ _ _
    simp only [Fold.dated, hc']
    exact ⟨hP.1, trivial, hP.2⟩
  clsNamed inHead container id c c' a b a' b' s t u _ _ hc' h h' := by
    refine ⟨congrArg₂ Stamps.append h.1
      (congrArg₂ Stamps.append (congrArg (fun x => Stamps.mk [x] []) (declare_keeps id t).1.symm) h'.1), ?_⟩
    have hperm : (a.live ++ ([id.site] ++ b.live)).Perm (a.live ++ b.live ++ [id.site]) := by
      rw [List.append_assoc]
      exact List.perm_append_comm.append_left _
    have hd := (h.2.join h'.2).declared (declare_dates id t (P := fun _ _ => True) fun _ _ => trivial) hperm
    refine hd.imp fun {f M} hK => ?_
    obtain ⟨K, hP, hM⟩ := hK
    show Fold.dated.clsDecl _ _ _ _
    simp only [Fold.dated, hc']
    rw [show (visitor.declare inHead id .cls .cls (visitor.contain container t).2).1.site = id.site from
      (declare_keeps id t).1]
    exact ⟨K, ⟨hP.1, Fold.dated_ident (by simp) _ f K, hP.2⟩, hM⟩

end Resolve

/-! ### Resolved programs -/

/-- The order in which the sites of a program are gone through. -/
structure Program.Order (p : Program) (info : Info) (L : List Site) : Prop where
  nodup : L.Nodup
  dated : p.fold Fold.dated info L
  once : ∀ {j : BindingId} {x y : Site}, info.isOrdered j = true → info.decls[x]? = some (some j) → info.decls[y]? = some (some j) → x = y

theorem Program.resolve_order (p : Program) : ∃ L, p.resolve.1.Order p.resolve.2 L := by
  have hs := Program.walkScopes_walks Hoist.stamping_walks p Hoist.State.start
  have hsound := Program.walkScopes_walks Hoist.sound_walks p Hoist.State.start Hoist.State.Sound.start
  rw [Program.resolve_eq]
  generalize p.walkScopes Hoist.visitor Hoist.State.start = h at hs hsound ⊢
  obtain ⟨-, hdates⟩ := Program.walkScopes_walks Resolve.dated_walks h.1 h.2.resolving
  generalize h.1.walkScopes Resolve.visitor h.2.resolving = r at hdates ⊢
  have hfree : ∀ x ∈ (h.1.fold Fold.stamps).live, h.2.resolving.info.refs[x]? = some none := fun x hx => by
    show (Array.replicate h.2.decls.size none)[x]? = some none
    rw [Array.getElem?_replicate, if_pos (hs.spans.range x hx).2]
  have hpass := hdates hs.spans.nodup hfree
  -- Nothing that waits for its declaration is there from the start.
  have hbegun : h.2.resolving.info.Begun [] := by
    intro j b hb hinit hrun
    rw [hsound.late hb hrun] at hinit
    cases hinit
  obtain ⟨L, hperm, -, hdated⟩ := hpass.order [] hbegun
  refine ⟨L, hperm.nodup_iff.2 hs.spans.nodup, ?_, fun {j x y} hj hx hy => ?_⟩
  · rw [← Program.fold_related (Fold.both_snd Fold.stamps Fold.dated) r.1]
    exact hdated r.2.info L ⟨rfl, fun _ _ => rfl, fun _ h => h⟩ List.prefix_rfl
  · obtain ⟨b, hb, hconst, -⟩ := Info.isOrdered_iff.1 (hpass.ordered j hj)
    rw [show r.2.info.decls = h.2.decls from hpass.decls] at hx hy
    exact hsound.once hb hconst hx hy

end Deadwood
