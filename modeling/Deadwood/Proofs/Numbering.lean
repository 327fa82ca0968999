import Deadwood.Proofs.ScopeWalk
import Deadwood.Scope.Occurrence
import Deadwood.Scope.Resolve
import Mathlib.Data.List.Basic

/-!
# The numbers of occurrences

Resolution gives every declaration a site of its own, and a binding whose origin is the declaration at a
site is the binding of one of the names that are declared there.
-/

namespace Deadwood

/-- The sites of a piece of syntax. -/
structure Sites where
  /-- The declarations, each with the names it declares. -/
  decls : List (Site × List Site)
  /-- The names that are declared outside of expressions and nested functions. -/
  binders : List Site
  /-- The names of function and class expressions. -/
  own : List Site
  /-- The elements of patterns and the parameters. -/
  elems : List Site

namespace Sites

def empty : Sites := ⟨[], [], [], []⟩

def append (a b : Sites) : Sites :=
  ⟨a.decls ++ b.decls, a.binders ++ b.binders, a.own ++ b.own, a.elems ++ b.elems⟩

/-- The sites that tell one occurrence from another. -/
def all (a : Sites) : List Site := a.decls.map Prod.fst ++ (a.own ++ a.elems)

/-- Adds a declaration of the given name, if there is one. -/
def declareName (a : Sites) : Option Ident → Sites
  | none => { a with binders := [] }
  | some id => { a with decls := (id.site, [id.site]) :: a.decls, binders := [] }

end Sites

/-- Collects sites. -/
def Fold.sites : Fold Sites where
  empty := .empty
  append := .append
  ident role id :=
    match role with
    | .binding .own => ⟨[], [id.site], [id.site], []⟩
    | .binding _ => ⟨[], [id.site], [], []⟩
    | _ => .empty
  expr _ a := { a with binders := [] }
  declarator d a := { a with decls := (d.site, a.binders) :: a.decls }
  element d a := { a with elems := d.site :: a.elems }
  funcDecl f a := a.declareName f.name
  clsDecl c a := a.declareName c.name

/-- Collects nothing. -/
def Fold.unit : Fold Unit where
  empty := ()
  append _ _ := ()
  ident _ _ := ()

/-- A change that a function does not see. -/
theorem map_modify_eq {γ δ : Type} (xs : Array γ) (i : Nat) {f : γ → γ} (g : γ → δ)
    (h : ∀ x, g (f x) = g x) : (xs.modify i f).map g = xs.map g := by
  apply Array.ext_getElem?
  intro j
  rw [Array.getElem?_map, Array.getElem?_map, Array.getElem?_modify]
  split
  · rw [Option.map_map]
    exact congrArg (fun k => Option.map k _) (funext h)
  · rfl

/-! ### Declarations -/

namespace Hoist

/-- The sites of a piece of syntax are new between `s` and `t`, and so are the bindings it makes; each of
them is the binding of a name declared at the site of its origin, or has the origin `o`. -/
structure Numbers (o : Option Origin) (a : Sites) (s t : State) : Prop where
  size : s.decls.size ≤ t.decls.size
  count : s.bindings.size ≤ t.bindings.size
  decls : ∀ x < s.decls.size, t.decls[x]? = s.decls[x]?
  origins : ∀ i < s.bindings.size,
    (t.bindings[i]?).map Binding.origin = (s.bindings[i]?).map Binding.origin
  nodup : a.all.Nodup
  range : ∀ x ∈ a.all, s.decls.size ≤ x ∧ x < t.decls.size
  bound : ∀ i b, s.bindings.size ≤ i → t.bindings[i]? = some b → ∀ site, b.origin.site? = some site →
    (∃ e ∈ a.decls, e.1 = site ∧ ∃ x ∈ e.2, t.decls[x]? = some (some i)) ∨
      o.bind Origin.site? = some site ∧ ∃ x ∈ a.binders, t.decls[x]? = some (some i)

namespace Numbers

variable {o : Option Origin} {a b c : Sites} {s t u : State}

theorem refl (s : State) : Numbers o .empty s s where
  size := Nat.le_refl _
  count := Nat.le_refl _
  decls _ _ := rfl
  origins _ _ := rfl
  nodup := List.nodup_nil
  range := by simp [Sites.all, Sites.empty]
  bound i b hi hb := by
    have := (Array.getElem?_eq_some_iff.1 hb).1
    omega

/-- Sites found in one piece after another, in whatever order they stand. -/
theorem join (h : Numbers o a s t) (h' : Numbers o b t u) (hall : c.all.Perm (a.all ++ b.all))
    (hdecls : a.decls ++ b.decls ⊆ c.decls) (hbinders : a.binders ++ b.binders ⊆ c.binders) :
    Numbers o c s u where
  size := Nat.le_trans h.size h'.size
  count := Nat.le_trans h.count h'.count
  decls x hx := (h'.decls x (Nat.lt_of_lt_of_le hx h.size)).trans (h.decls x hx)
  origins i hi := (h'.origins i (Nat.lt_of_lt_of_le hi h.count)).trans (h.origins i hi)
  nodup := by
    refine hall.nodup_iff.2 (List.nodup_append.2 ⟨h.nodup, h'.nodup, ?_⟩)
    intro x hx y hy
    exact Nat.ne_of_lt (Nat.lt_of_lt_of_le (h.range x hx).2 (h'.range y hy).1)
  range x hx := by
    rcases List.mem_append.1 (hall.mem_iff.1 hx) with hx | hx
    · exact ⟨(h.range x hx).1, Nat.lt_of_lt_of_le (h.range x hx).2 h'.size⟩
    · exact ⟨Nat.le_trans h.size (h'.range x hx).1, (h'.range x hx).2⟩
  bound i d hi hd site hsite := by
    by_cases hit : i < t.bindings.size
    · -- The binding is one of the first piece, and what is declared there stays.
      have ho := h'.origins i hit
      rw [hd, Array.getElem?_eq_getElem hit] at ho
      have ho : d.origin = t.bindings[i].origin := by simpa using ho
      have hkeep : ∀ x, t.decls[x]? = some (some i) → u.decls[x]? = some (some i) := fun x hx =>
        (h'.decls x (Array.getElem?_eq_some_iff.1 hx).1).trans hx
      rcases h.bound i _ hi (Array.getElem?_eq_getElem hit) site (ho ▸ hsite) with
        ⟨e, he, hes, x, hx, hxi⟩ | ⟨hs, x, hx, hxi⟩
      · exact .inl ⟨e, hdecls (List.mem_append_left _ he), hes, x, hx, hkeep x hxi⟩
      · exact .inr ⟨hs, x, hbinders (List.mem_append_left _ hx), hkeep x hxi⟩
    · rcases h'.bound i d (Nat.le_of_not_lt hit) hd site hsite with
        ⟨e, he, hes, x, hx, hxi⟩ | ⟨hs, x, hx, hxi⟩
      · exact .inl ⟨e, hdecls (List.mem_append_right _ he), hes, x, hx, hxi⟩
      · exact .inr ⟨hs, x, hbinders (List.mem_append_right _ hx), hxi⟩

theorem append (h : Numbers o a s t) (h' : Numbers o b t u) : Numbers o (a.append b) s u := by
  refine h.join h' ?_ (List.Subset.refl _) (List.Subset.refl _)
  simp only [Sites.all, Sites.append, List.perm_iff_count, List.map_append, List.count_append]
  intro x
  omega

theorem swap (h : Numbers o b s t) (h' : Numbers o a t u) : Numbers o (a.append b) s u := by
  refine h.join h' ?_ ?_ ?_
  · simp only [Sites.all, Sites.append, List.perm_iff_count, List.map_append, List.count_append]
    intro x
    omega
  · simp [Sites.append]
  · simp [Sites.append]

theorem second (h : Numbers o b s t) (h' : Numbers o (a.append c) t u) :
    Numbers o (a.append (b.append c)) s u := by
  refine h.join h' ?_ ?_ ?_
  · simp only [Sites.all, Sites.append, List.perm_iff_count, List.map_append, List.count_append]
    intro x
    omega
  · simp [Sites.append]
  · simp [Sites.append]

/-- Steps that change neither the numbers nor the origins of bindings. -/
theorem after (h : Numbers o a s t) (hd : u.decls = t.decls)
    (hb : u.bindings.map Binding.origin = t.bindings.map Binding.origin) : Numbers o a s u := by
  have hsize : u.bindings.size = t.bindings.size := by
    simpa using congrArg Array.size hb
  have ho : ∀ i : Nat, (u.bindings[i]?).map Binding.origin = (t.bindings[i]?).map Binding.origin := by
    intro i
    simpa using congrArg (·[i]?) hb
  refine ⟨hd ▸ h.size, hsize ▸ h.count, hd ▸ h.decls, fun i hi => (ho i).trans (h.origins i hi),
    h.nodup, hd ▸ h.range, fun i b hi hib site hsite => ?_⟩
  have hoi := ho i
  rw [hib, Option.map_some] at hoi
  obtain ⟨c, hc, hcb⟩ := Option.map_eq_some_iff.1 hoi.symm
  rw [hd]
  exact h.bound i c hi hc site (hcb ▸ hsite)

theorem before (h : Numbers o a t u) (hd : t.decls = s.decls) (hb : t.bindings = s.bindings) :
    Numbers o a s u :=
  ⟨hd ▸ h.size, hb ▸ h.count, hd ▸ h.decls, hb ▸ h.origins, h.nodup, hd ▸ h.range, hb ▸ h.bound⟩

/-- Without an origin of their own, names that are declared outside of declarations do not count. -/
theorem clear (h : Numbers none a s t) : Numbers none { a with binders := [] } s t :=
  { h with bound := fun i b hi hb site hs => (h.bound i b hi hb site hs).imp id nofun }

theorem weaken (h : Numbers none a s t) : Numbers o a s t :=
  { h with bound := fun i b hi hb site hs => (h.bound i b hi hb site hs).imp id nofun }

theorem literal {o : Origin} (ho : o.site? = none) (h : Numbers (some o) a s t) :
    Numbers none a s t := by
  refine { h with bound := fun i b hi hb site hs => ?_ }
  rcases h.bound i b hi hb site hs with he | ⟨hs, -⟩
  · exact .inl he
  · rw [Option.bind_some, ho] at hs
    cases hs

/-- A declarator has a site of its own. -/
theorem tag {site : Site} (h : Numbers o a s t) (hnew : site ∉ a.all)
    (hlt : s.decls.size ≤ site ∧ site < t.decls.size) (hall : c.all.Perm (site :: a.all))
    (hdecls : a.decls ⊆ c.decls) (hbinders : a.binders ⊆ c.binders) : Numbers o c s t := by
  refine ⟨h.size, h.count, h.decls, h.origins, hall.nodup_iff.2 (List.nodup_cons.2 ⟨hnew, h.nodup⟩), ?_, ?_⟩
  · intro x hx
    rcases List.mem_cons.1 (hall.mem_iff.1 hx) with rfl | hx
    · exact hlt
    · exact h.range x hx
  · intro i b hi hb x hx
    rcases h.bound i b hi hb x hx with ⟨e, he, hes⟩ | ⟨hs, y, hy, hyi⟩
    · exact .inl ⟨e, hdecls he, hes⟩
    · exact .inr ⟨hs, y, hbinders hy, hyi⟩

/-- A declarator declares the names in it. -/
theorem declares {site : Site} (h : Numbers (some (.declarator site)) a s t)
    (hmem : (site, a.binders) ∈ a.decls) : Numbers none a s t := by
  refine { h with bound := fun i b hi hb x hx => ?_ }
  rcases h.bound i b hi hb x hx with he | ⟨hs, hbs⟩
  · exact .inl he
  · cases hs
    exact .inl ⟨_, hmem, rfl, hbs⟩

end Numbers

variable {o : Option Origin}

theorem fresh_numbers (s : State) : Numbers o .empty s (fresh s).2 where
  size := by
    show s.decls.size ≤ (s.decls.push none).size
    simp
  count := Nat.le_refl _
  decls x hx := by
    show (s.decls.push none)[x]? = _
    rw [Array.getElem?_push, if_neg (Nat.ne_of_lt hx)]
  origins _ _ := rfl
  nodup := List.nodup_nil
  range := nofun
  bound i b hi hb := by
    have hlt : i < s.bindings.size := (Array.getElem?_eq_some_iff.1 hb).1
    omega

theorem declare_site (inHead : Bool) (id : Ident) (kind : BindingKind) (origin : Site → Origin)
    (s : State) : (declare inHead id kind origin s).1.site = s.decls.size := by
  simp only [declare, run_bind, run_get]
  cases ((fresh s).2.scope? ((fresh s).2.holder kind)).bind (·.binding? id.name) <;> rfl

/-- A declaration takes a site of its own.  It makes a binding with its origin if its name is new. -/
theorem declare_spec (inHead : Bool) (id : Ident) (kind : BindingKind) (origin : Site → Origin)
    (s : State) : ∃ t, (declare inHead id kind origin s).2 = t ∧
      t.decls.size = s.decls.size + 1 ∧ (∀ x < s.decls.size, t.decls[x]? = s.decls[x]?) ∧
      (t.bindings.map Binding.origin = s.bindings.map Binding.origin ∨
        ∃ b, t.bindings = s.bindings.push b ∧ b.origin = origin s.decls.size ∧
          t.decls[s.decls.size]? = some (some s.bindings.size)) := by
  refine ⟨_, rfl, ?_⟩
  have hsize (d : Option BindingId) :
      ((s.decls.push none).setIfInBounds s.decls.size d).size = s.decls.size + 1 := by simp
  have hkeep (d : Option BindingId) (x : Nat) (hx : x < s.decls.size) :
      ((s.decls.push none).setIfInBounds s.decls.size d)[x]? = s.decls[x]? := by
    rw [Array.getElem?_setIfInBounds, if_neg (Nat.ne_of_gt hx), Array.getElem?_push,
      if_neg (Nat.ne_of_lt hx)]
  simp only [declare, run_bind, run_get]
  cases ((fresh s).2.scope? ((fresh s).2.holder kind)).bind (·.binding? id.name) with
  | some b =>
    refine ⟨hsize _, hkeep _, .inl ?_⟩
    simp only [run_bind, run_set, run_pure]
    exact map_modify_eq _ _ _ fun _ => rfl
  | none =>
    refine ⟨hsize _, hkeep _, .inr ⟨_, rfl, rfl, ?_⟩⟩
    show ((s.decls.push none).setIfInBounds s.decls.size _)[s.decls.size]? = _
    rw [Array.getElem?_setIfInBounds, if_pos rfl, if_pos (by simp)]
    rfl

/-- The state at the start of a new scope. -/
def State.entering (s : State) (kind : ScopeKind) (opener : Opener) : State :=
  { s with
    scopes := s.scopes.push { mark := s.scopes.size + 1, kind, opener, outer := s.path }
    path := (s.scopes.size + 1) :: s.path }

theorem inScope_run {γ : Type} (kind : ScopeKind) (opener : Opener) (act : StateM State γ) (s : State) :
    inScope kind opener act s =
      ((act (s.entering kind opener)).1, { (act (s.entering kind opener)).2 with path := s.path }) := rfl

/-- What a declaration adds, where the name it declares is counted among the sites `a`. -/
theorem declare_numbers (inHead : Bool) (id : Ident) (kind : BindingKind) (origin : Site → Origin)
    (s : State) {a : Sites} (hall : a.all = [] ∨ a.all = [s.decls.size])
    (hb : ∀ site, (origin s.decls.size).site? = some site →
      (∃ e ∈ a.decls, e.1 = site ∧ s.decls.size ∈ e.2) ∨
        o.bind Origin.site? = some site ∧ s.decls.size ∈ a.binders) :
    Numbers o a s (declare inHead id kind origin s).2 := by
  obtain ⟨t, ht, hsize, hkeep, hbind⟩ := declare_spec inHead id kind origin s
  rw [ht]
  have hrest : s.bindings.size ≤ t.bindings.size ∧ (∀ i < s.bindings.size,
      (t.bindings[i]?).map Binding.origin = (s.bindings[i]?).map Binding.origin) := by
    rcases hbind with hm | ⟨b, hp, -⟩
    · refine ⟨Nat.le_of_eq (by simpa using (congrArg Array.size hm).symm), fun i _ => ?_⟩
      simpa using congrArg (·[i]?) hm
    · rw [hp]
      refine ⟨by simp, fun i hi => ?_⟩
      rw [Array.getElem?_push, if_neg (Nat.ne_of_lt hi)]
  refine ⟨by omega, hrest.1, hkeep, hrest.2, ?_, ?_, fun i c hi hc site hsite => ?_⟩
  · rcases hall with ha | ha <;> simp [ha]
  · intro x hx
    rcases hall with ha | ha
    · simp [ha] at hx
    · rw [ha, List.mem_singleton] at hx
      rw [hx]
      exact ⟨Nat.le_refl _, hsize ▸ Nat.lt_succ_self _⟩
  · rcases hbind with hm | ⟨b, hp, ho, hd⟩
    · have hlt := (Array.getElem?_eq_some_iff.1 hc).1
      have := congrArg Array.size hm
      simp only [Array.size_map] at this
      omega
    · rw [hp, Array.getElem?_push] at hc
      split at hc
      next he =>
        cases hc
        rw [ho] at hsite
        subst he
        rcases hb site hsite with ⟨e, he, hes, hx⟩ | ⟨hs, hx⟩
        · exact .inl ⟨e, he, hes, _, hx, hd⟩
        · exact .inr ⟨hs, _, hx, hd⟩
      next =>
        have := (Array.getElem?_eq_some_iff.1 hc).1
        omega

/-- The declaration of a function or class. -/
theorem declare_named (inHead : Bool) (id : Ident) (kind : BindingKind) (origin : Site → Origin)
    (s : State) (ho : (origin s.decls.size).site? = some s.decls.size) :
    Numbers none ⟨[(s.decls.size, [s.decls.size])], [], [], []⟩ s (declare inHead id kind origin s).2 := by
  refine declare_numbers inHead id kind origin s (.inr rfl) fun site hsite => .inl ?_
  rw [ho] at hsite
  cases hsite
  exact ⟨_, List.mem_singleton_self _, rfl, List.mem_singleton_self _⟩

theorem exportDeclared_numbers {a : Sites} {s t : State} (h : Numbers o a s t) (ids : List Ident) :
    Numbers o a s (exportDeclared ids t).2 := by
  show Numbers o a s (ids.foldl _ t)
  induction ids generalizing t with
  | nil => exact h
  | cons id ids ih =>
    refine ih ?_
    dsimp only
    split
    · refine h.after rfl ?_
      dsimp only
      exact map_modify_eq _ _ _ fun _ => rfl
    · exact h

/-- What a declarator or an element adds. -/
theorem fresh_tag {a c : Sites} {s t : State} (h : Numbers o a (fresh s).2 t)
    (hall : c.all.Perm ((fresh s).1 :: a.all)) (hdecls : a.decls ⊆ c.decls)
    (hbinders : a.binders ⊆ c.binders) : Numbers o c s t := by
  have hpush : (s.decls.push none).size = s.decls.size + 1 := Array.size_push ..
  have hsize : (s.decls.push none).size ≤ t.decls.size := h.size
  refine ((fresh_numbers s).append h).tag (fun hx => ?_) ⟨Nat.le_refl _, ?_⟩ hall hdecls hbinders
  · have hle : (s.decls.push none).size ≤ s.decls.size := (h.range _ hx).1
    rw [hpush] at hle
    exact Nat.not_succ_le_self _ hle
  · rw [hpush] at hsize
    exact hsize

/-- Resolution numbers declarations without repetition. -/
theorem visitor_walks : Walks visitor Fold.unit Fold.sites fun i _ s a t => Numbers i.origin? a s t where
  empty := .refl _
  append h h' := h.append h'
  swap h h' := h.swap h'
  assoc h := by simpa only [Fold.sites, Sites.append, List.append_assoc] using h
  weaken _ h := h.weaken
  literal ho h := h.literal ho
  hole := .refl _
  label _ := .refl _
  propertyName _ := .refl _
  refer _ _ s := fresh_numbers s
  declare inHead id kind origin s _ := by
    have hid := declare_site inHead id kind (fun _ => origin) s
    show Numbers _ (Fold.sites.ident (.binding kind) (declare inHead id kind (fun _ => origin) s).1) _ _
    refine declare_numbers inHead id kind (fun _ => origin) s ?_ (fun site hsite => .inr ⟨hsite, ?_⟩)
    · cases kind <;> simp [Fold.sites, Sites.all, hid]
    · cases kind <;> simp [Fold.sites, hid]
  exportName _ s := fresh_numbers s
  exportDeclared ids h := exportDeclared_numbers h ids
  contain _ h := h.before rfl rfl
  called _ h := h
  inScope hi act k kind opener h s := by
    have hb : Numbers _ _ s _ := (h (s.entering kind opener)).before rfl rfl
    rw [hi.origin?]
    exact hb.after rfl rfl
  straddle act k l kind opener h s hb := by
    obtain ⟨t, ha, hc⟩ := h (s.entering kind opener)
    have hac : Numbers none _ s _ := Numbers.before (ha.append hc) rfl rfl
    exact hb.second (hac.after rfl rfl)
  scope_map f act _ _ := rfl
  expr _ h := h.clear
  stmt {c x _ _ _ _ _} _ _ h := by rwa [Stmt.declares_origin?] at h
  foreign specs source s := by
    have hall : Fold.sites.all (fun e : ExportSpec => Fold.sites.ident .exported e.source) specs = Fold.sites.empty :=
      Fold.all_eq_empty _ rfl (fun _ => rfl) specs
    simp only [hall]
    exact .refl s
  property _ h := h
  element {o a b site target target' init init' s t} _ _ h := by
    refine fresh_tag h ?_ (List.Subset.refl _) (List.Subset.refl _)
    show (b.decls.map Prod.fst ++ (b.own ++ (fresh s).1 :: b.elems)).Perm
      ((fresh s).1 :: (b.decls.map Prod.fst ++ (b.own ++ b.elems)))
    rw [← List.append_assoc, ← List.append_assoc]
    exact List.perm_middle
  declarator {kind site target target' init init' s t u _} _ _ h h' := by
    let b := (target'.fold Fold.sites kind).append (Expr.foldOpt Fold.sites init')
    have hd : Numbers _ { b with decls := ((fresh s).1, b.binders) :: b.decls } s u :=
      fresh_tag (h.weaken.swap h') (.refl _) (List.subset_cons_self _ _) (List.Subset.refl _)
    exact hd.declares List.mem_cons_self
  func hf hf' h := by
    show Numbers _ (Sites.declareName _ _) _ _
    rw [hf']
    exact h.clear
  funcNamed inHead container id f f' a b s t hf hf' h := by
    have hid : (visitor.declare inHead id .func .func (visitor.contain container s).2).1.site = s.decls.size :=
      declare_site ..
    have hd : Numbers none _ s t :=
      ((declare_named inHead id .func .func (visitor.contain container s).2 rfl).append h).before rfl rfl
    show Numbers _ (Sites.declareName _ _) _ _
    rw [hf', Sites.declareName, hid]
    exact hd.clear
  cls _ hc hc' h h' := by
    show Numbers _ (Sites.declareName _ _) _ _
    rw [hc']
    exact (h.append h').clear
  clsNamed inHead container id c c' a b a' b' s t u _ hc hc' h h' := by
    have hid : (visitor.declare inHead id .cls .cls (visitor.contain container t).2).1.site =
        t.decls.size := declare_site ..
    have hd : Numbers none _ t _ :=
      (declare_named inHead id .cls .cls (visitor.contain container t).2 rfl).before rfl rfl
    show Numbers _ (Sites.declareName _ _) _ _
    rw [hc', Sites.declareName, hid]
    exact ((h.append h').swap hd).clear

end Hoist

/-! ### References -/

namespace Resolve

/-- Neither the sites of names nor the origins of bindings change. -/
structure Keeps (s t : State) : Prop where
  decls : t.info.decls = s.info.decls
  origins : t.info.bindings.map Binding.origin = s.info.bindings.map Binding.origin

namespace Keeps

variable {s t u : State}

theorem refl (s : State) : Keeps s s := ⟨rfl, rfl⟩

theorem trans (h : Keeps s t) (h' : Keeps t u) : Keeps s u :=
  ⟨h'.decls.trans h.decls, h'.origins.trans h.origins⟩

end Keeps

theorem modify_origins (info : Info) (b : BindingId) {f : Binding → Binding}
    (h : ∀ b, (f b).origin = b.origin) :
    (info.modifyBinding b f).bindings.map Binding.origin = info.bindings.map Binding.origin :=
  map_modify_eq _ _ _ h

theorem declare_keeps (id : Ident) (s : State) :
    (declare id s).1.site = id.site ∧ Keeps s (declare id s).2 := by
  simp only [declare, run_bind, run_get]
  cases s.info.declaration? id with
  | none => exact ⟨rfl, .refl s⟩
  | some b =>
    refine ⟨rfl, rfl, modify_origins s.info b ?_⟩
    exact fun _ => rfl

theorem refer_keeps (writing : Bool) (id : Ident) (s : State) : Keeps s (refer writing id s).2 := by
  simp only [refer, run_bind, run_get]
  cases s.info.lookupIn s.path id.name with
  | none => exact .refl s
  | some b =>
    refine ⟨rfl, ?_⟩
    simp only [run_bind, run_set, run_pure]
    exact modify_origins s.info b fun _ => rfl

theorem exportName_keeps (id : Ident) (s : State) : Keeps s (exportName id s).2 := by
  refine (refer_keeps false id s).trans ?_
  simp only [exportName, run_bind, run_pure]
  generalize refer false id s = r
  simp only [modify, modifyGet, MonadStateOf.modifyGet, StateT.modifyGet]
  split
  next b hb => exact ⟨rfl, modify_origins r.2.info b fun _ => rfl⟩
  · exact .refl _

theorem called_keeps (id : Ident) (s : State) : Keeps s (called id s).2 := by
  have hscopes (info : Info) (path : List Mark) :
      let info' := path.foldl (fun info m => info.modifyScope m fun sc => { sc with hasEval := true }) info
      info'.decls = info.decls ∧ info'.bindings = info.bindings := by
    induction path generalizing info with
    | nil => exact ⟨rfl, rfl⟩
    | cons m path ih =>
      obtain ⟨hd, hb⟩ := ih (info.modifyScope m fun sc => { sc with hasEval := true })
      have hm : (info.modifyScope m fun sc => { sc with hasEval := true }).decls = info.decls ∧
          (info.modifyScope m fun sc => { sc with hasEval := true }).bindings = info.bindings := by
        unfold Info.modifyScope
        split <;> exact ⟨rfl, rfl⟩
      exact ⟨hd.trans hm.1, hb.trans hm.2⟩
  show Keeps s (if id.name = "eval" ∧ id.mark = 0 then _ else s)
  split
  · exact ⟨(hscopes s.info s.path).1, congrArg (Array.map Binding.origin) (hscopes s.info s.path).2⟩
  · exact .refl s

theorem visitor_walks : Walks visitor Fold.sites Fold.sites fun _ a s b t => a = b ∧ Keeps s t where
  empty := ⟨rfl, .refl _⟩
  append h h' := ⟨congrArg₂ _ h.1 h'.1, h.2.trans h'.2⟩
  swap h h' := ⟨congrArg₂ _ h'.1 h.1, h.2.trans h'.2⟩
  assoc h := by simpa only [Fold.sites, Sites.append, List.append_assoc] using h
  weaken _ h := h
  literal _ h := h
  hole := ⟨rfl, .refl _⟩
  label _ := ⟨rfl, .refl _⟩
  propertyName _ := ⟨rfl, .refl _⟩
  refer w id s := ⟨rfl, refer_keeps w id s⟩
  declare inHead id kind origin s _ := by
    obtain ⟨hid, hk⟩ := declare_keeps id s
    refine ⟨?_, hk⟩
    show Fold.sites.ident (.binding kind) id = Fold.sites.ident (.binding kind) (declare id s).1
    cases kind <;> simp [Fold.sites, hid]
  exportName id s := ⟨rfl, exportName_keeps id s⟩
  exportDeclared _ h := h
  contain _ h := h
  called id h := ⟨h.1, h.2.trans (called_keeps id _)⟩
  inScope _ act k kind opener h s := by
    obtain ⟨ha, hk⟩ := h { s with entered := s.entered + 1, path := (s.entered + 1) :: s.path }
    exact ⟨ha, hk.decls, hk.origins⟩
  straddle act k l kind opener h s hb := by
    obtain ⟨t, ha, hc⟩ := h { s with entered := s.entered + 1, path := (s.entered + 1) :: s.path }
    have hk := ha.2.trans hc.2
    exact ⟨congrArg₂ _ ha.1 (congrArg₂ _ hb.1 hc.1), hb.2.trans ⟨hk.decls, hk.origins⟩⟩
  scope_map f act _ _ := rfl
  expr _ h := ⟨by rw [h.1]; rfl, h.2⟩
  stmt _ _ h := h
  foreign _ _ _ := ⟨rfl, .refl _⟩
  property _ h := h
  element _ _ h := ⟨by rw [h.1]; rfl, h.2⟩
  declarator _ _ h h' := by
    refine ⟨?_, h.2.trans h'.2⟩
    show Fold.sites.declarator _ (Fold.sites.append _ _) = Fold.sites.declarator _ (Fold.sites.append _ _)
    rw [h.1, h'.1]
    rfl
  func hf hf' h := by
    refine ⟨?_, h.2⟩
    show Sites.declareName _ _ = Sites.declareName _ _
    rw [hf, hf', h.1]
  funcNamed inHead container id f f' a b s t hf hf' h := by
    obtain ⟨hid, hk⟩ := declare_keeps id s
    refine ⟨?_, hk.trans h.2⟩
    show Sites.declareName _ _ = Sites.declareName _ _
    rw [hf, hf', h.1]
    show _ = Sites.declareName _ (some (declare id s).1)
    simp only [Sites.declareName, Fold.sites, Sites.append, hid]
  cls _ hc hc' h h' := by
    refine ⟨?_, h.2.trans h'.2⟩
    show Sites.declareName _ _ = Sites.declareName _ _
    rw [hc, hc', h.1, h'.1]
  clsNamed inHead container id c c' a b a' b' s t u _ hc hc' h h' := by
    obtain ⟨hid, hk⟩ := declare_keeps id t
    refine ⟨?_, (h.2.trans h'.2).trans hk⟩
    show Sites.declareName _ _ = Sites.declareName _ _
    rw [hc, hc', h.1, h'.1]
    show _ = Sites.declareName _ (some (declare id t).1)
    simp only [Sites.declareName, Fold.sites, Sites.append, hid]

end Resolve

/-! ### Resolved programs -/

/-- What numbering makes of a program and what is known of its names. -/
structure Numbered (a : Sites) (info : Info) : Prop where
  nodup : a.all.Nodup
  range : ∀ x ∈ a.all, 0 < x ∧ x < info.decls.size
  bound : ∀ (i : BindingId) (b : Binding) (site : Site), info.bindings[i]? = some b →
    b.origin.site? = some site → ∃ e ∈ a.decls, e.1 = site ∧ ∃ x ∈ e.2, info.decls[x]? = some (some i)

/-- The state in which the references of a program are bound. -/
def Hoist.State.resolving (h : Hoist.State) : Resolve.State where
  info := h.info
  entered := 0
  path := []

theorem Program.resolve_eq (p : Program) :
    let h := p.walkScopes Hoist.visitor Hoist.State.start
    p.resolve = ((h.1.walkScopes Resolve.visitor h.2.resolving).1,
      (h.1.walkScopes Resolve.visitor h.2.resolving).2.info) := rfl

theorem Program.resolve_numbered (p : Program) :
    Numbered (p.resolve.1.fold Fold.sites) p.resolve.2 := by
  have hh := Program.walkScopes_walks Hoist.visitor_walks p Hoist.State.start
  rw [Program.resolve_eq]
  generalize p.walkScopes Hoist.visitor Hoist.State.start = h at hh ⊢
  obtain ⟨ha, hk⟩ := Program.walkScopes_walks Resolve.visitor_walks h.1 h.2.resolving
  generalize h.1.walkScopes Resolve.visitor h.2.resolving = r at ha hk ⊢
  have hd : r.2.info.decls = h.2.decls := hk.decls
  have ho (i : BindingId) : (r.2.info.bindings[i]?).map Binding.origin =
      (h.2.bindings[i]?).map Binding.origin := by
    have hi := congrArg (·[i]?) hk.origins
    simp only [Array.getElem?_map] at hi
    exact hi
  have hpos (x : Site) (hx : x ∈ (h.1.fold Fold.sites).all) : 0 < x :=
    Nat.lt_of_lt_of_le Nat.zero_lt_one (hh.range x hx).1
  rw [← ha]
  refine ⟨hh.nodup, fun x hx => ⟨hpos x hx, hd ▸ (hh.range x hx).2⟩, fun i b site hb hsite => ?_⟩
  have hoi := ho i
  rw [hb, Option.map_some] at hoi
  obtain ⟨c, hc, hcb⟩ := Option.map_eq_some_iff.1 hoi.symm
  rw [hd]
  rcases hh.bound i c (Nat.zero_le _) hc site (hcb ▸ hsite) with he | ⟨hs, -⟩
  · exact he
  · cases hs

theorem Program.numbered_of_resolve {p q : Program} {info : Info} (h : p.resolve = (q, info)) :
    Numbered (q.fold Fold.sites) info := by
  have hp := p.resolve_numbered
  rwa [h] at hp

end Deadwood
