import Deadwood.Proofs.Initialization
import Deadwood.Proofs.Payment

/-!
# Uses of a binding

A pass counts the references to a binding down as it discards syntax.  To see that it never counts out what
stays, one binding is watched.  What a declaration holds whose name is inlined in the pass is not charged
where it stands but to the state, as in a ledger; so the uses in a piece of syntax are counted twice, once all
of them that are live, and once those that are charged to it.  Both counts agree where all declarations in the
piece that are inlined in the end have been inlined.
-/

namespace Deadwood

open Elimination

/-- What is known beforehand of a pass in which the references to one binding are watched. -/
structure Watch where
  /-- The binding that is watched. -/
  target : BindingId
  /-- The binding of the reference at a site. -/
  bound : Site → Option BindingId
  /-- The site of the declaration of a binding. -/
  origin : BindingId → Option Site
  /-- The bindings that are inlined in the pass. -/
  inlined : Finset BindingId
  /-- The bindings that their scopes do not have before the pass. -/
  before : BindingId → Prop
  /-- Identifiers without a site refer to nothing. -/
  unsited : bound 0 = none

namespace Watch

variable (W : Watch)

/-- The declarations whose names are inlined in the pass. -/
def gone : Finset Site := W.inlined.biUnion fun j => (W.origin j).toFinset

theorem mem_gone {σ : Site} : σ ∈ W.gone ↔ ∃ j ∈ W.inlined, W.origin j = some σ := by
  simp only [gone, Finset.mem_biUnion, Option.mem_toFinset, Option.mem_def]

/-- All references to a binding are at the given sites. -/
def Covered (j : BindingId) (xs : List Site) : Prop := ∀ y, W.bound y = some j → y ∈ xs

/-- The declarations are dead in `D` whose names are inlined in the pass and referred to at the given sites only. -/
def Settled (xs D : List Site) : Prop := ∀ j ∈ W.inlined, ∀ σ, W.origin j = some σ → W.Covered j xs → σ ∈ D

/-- The declarations among `tops` are dead in `D` whose names are inlined in the pass. -/
def Buried (tops D : List Site) : Prop := ∀ σ ∈ tops, σ ∈ W.gone → σ ∈ D

/-- How often an identifier uses the binding that is watched. -/
def uses (id : Ident) : Nat := if W.bound id.site = some W.target then 1 else 0

/-- How often a target does so that is a name. -/
def nameUses : Pattern → Nat
  | .ident id => W.uses id
  | _ => 0

variable {W}

theorem Covered.mono {j : BindingId} {xs ys : List Site} (h : W.Covered j xs) (hs : xs ⊆ ys) : W.Covered j ys :=
  fun y hy => hs (h y hy)

theorem Settled.mono {xs ys D : List Site} (h : W.Settled xs D) (hs : ys ⊆ xs) : W.Settled ys D :=
  fun j hj σ hσ hc => h j hj σ hσ (hc.mono hs)

end Watch

/-! ### Costs -/

namespace Cost

/-- The cost of what no declarator can be trimmed in. -/
def still (c : Cost) : Cost where
  val d _ := c.val d []
  antitone hd _ := c.antitone hd (List.Subset.refl [])

@[simp] theorem still_val (c : Cost) (d r : List Site) : c.still.val d r = c.val d [] := rfl

/-- The cost of a declaration whose parts cost `c`.  If it declares a name, it costs `n` at most where it is trimmed,
or if it is `cut` because its value is charged elsewhere. -/
def declared (site : Site) (isName cut : Bool) (n : Nat) (c : Cost) : Cost where
  val d r :=
    if site ∈ d then 0 else if isName = true ∧ (cut = true ∨ site ∈ r) then min n (c.val d []) else c.val d []
  antitone {d d' r r'} hd hr := by
    have hc := c.antitone hd (List.Subset.refl [])
    have hd : site ∈ d → site ∈ d' := @hd site
    have hr : site ∈ r → site ∈ r' := @hr site
    split
    · exact Nat.zero_le _
    · next hd' =>
      rw [if_neg fun h => hd' (hd h)]
      split
      · split <;> omega
      · next h =>
        rw [if_neg fun h' => h ⟨h'.1, h'.2.imp id hr⟩]
        exact hc

section Declared

variable {site : Site} {isName cut : Bool} {n : Nat} {c : Cost} {d r : List Site}

theorem declared_dead (h : site ∈ d) : (c.declared site isName cut n).val d r = 0 := if_pos h

/-- A declaration in its place costs what its parts do. -/
theorem declared_place (h : site ∉ d) (hp : isName = true → cut = false ∧ site ∉ r) :
    (c.declared site isName cut n).val d r = c.val d [] := by
  refine (if_neg h).trans (if_neg ?_)
  rintro ⟨hn, hc | hr⟩
  · exact Bool.false_ne_true ((hp hn).1.symm.trans hc)
  · exact (hp hn).2 hr

theorem declared_cut (h : site ∉ d) (hp : isName = true ∧ (cut = true ∨ site ∈ r)) :
    (c.declared site isName cut n).val d r = min n (c.val d []) := (if_neg h).trans (if_pos hp)

theorem declared_le : (c.declared site isName cut n).val d r ≤ c.val d [] := by
  dsimp only [declared]
  split
  · exact Nat.zero_le _
  · split
    · exact Nat.min_le_right _ _
    · exact Nat.le_refl _

/-- A declaration that is not dead costs what its name does. -/
theorem le_declared (h : site ∉ d) (hn : n ≤ c.val d []) : n ≤ (c.declared site isName cut n).val d r := by
  dsimp only [declared]
  rw [if_neg h]
  split
  · exact Nat.le_min.2 ⟨Nat.le_refl n, hn⟩
  · exact hn

/-- What is not cut costs no less. -/
theorem declared_mono {cut' : Bool} (h : cut' = true → cut = true ∨ site ∈ d) :
    (c.declared site isName cut n).val d r ≤ (c.declared site isName cut' n).val d r := by
  by_cases hd : site ∈ d
  · rw [declared_dead hd]
    exact Nat.zero_le _
  · by_cases hp : isName = true ∧ (cut' = true ∨ site ∈ r)
    · rw [declared_cut hd hp, declared_cut hd ⟨hp.1, hp.2.imp (fun hc => (h hc).resolve_right hd) id⟩]
    · refine Nat.le_trans declared_le (Nat.le_of_eq (declared_place hd fun hn => ?_).symm)
      exact ⟨Bool.eq_false_iff.2 fun hc => hp ⟨hn, .inl hc⟩, fun hr => hp ⟨hn, .inr hr⟩⟩

end Declared

theorem add_zero (a : Cost) : a.add (const 0) = a := rfl

end Cost

/-! ### Pieces -/

/-- What is to be known of the uses of a binding in a piece of syntax. -/
@[ext]
structure Uses (W : Watch) where
  /-- The number of uses outside of the given dead declarations. -/
  live : List Site → Nat
  /-- The number of those that are charged to the piece, where the given declarations are charged in their
  place although their names are inlined. -/
  cost : List Site → Cost
  /-- The references outside of the given dead and trimmed declarations. -/
  refs : List Site → List Site → List Site
  /-- The declarations that can be referred to from outside of the piece. -/
  tops : List Site
  /-- The function or class that the piece declares, if it is its declaration. -/
  heads : List Site
  /-- The declarators that stand in a list of statements within the piece. -/
  lists : List Site
  /-- No declaration within the piece that is inlined is referred to from outside, except for `tops`. -/
  closed : Prop
  cost_le : ∀ G D R, (cost G).val D R ≤ live D
  cost_mono : ∀ {G G'} D R, G ⊆ G' → (cost G).val D R ≤ (cost G').val D R
  cost_buried : ∀ {G D} R, W.Buried G D → (cost G).val D R ≤ (cost []).val D R
  refs_anti : ∀ {D D' R R'}, D ⊆ D' → R ⊆ R' → refs D' R' ⊆ refs D R
  homed : closed → ∀ D, W.Settled (refs [] []) D → live D ≤ (cost tops).val D []

namespace Uses

variable {W : Watch}

/-- All references in a piece. -/
def sites (a : Uses W) : List Site := a.refs [] []

theorem refs_subset (a : Uses W) (D R : List Site) : a.refs D R ⊆ a.sites :=
  a.refs_anti (List.nil_subset D) (List.nil_subset R)

def empty : Uses W where
  live _ := 0
  cost _ := .const 0
  refs _ _ := []
  tops := []
  heads := []
  lists := []
  closed := True
  cost_le _ _ _ := Nat.le_refl 0
  cost_mono _ _ _ := Nat.le_refl 0
  cost_buried _ _ := Nat.le_refl 0
  refs_anti _ _ := List.Subset.refl []
  homed _ _ _ := Nat.le_refl 0

def append (a b : Uses W) : Uses W where
  live D := a.live D + b.live D
  cost G := (a.cost G).add (b.cost G)
  refs D R := a.refs D R ++ b.refs D R
  tops := a.tops ++ b.tops
  heads := a.heads ++ b.heads
  lists := a.lists ++ b.lists
  closed := a.closed ∧ b.closed
  cost_le G D R := Nat.add_le_add (a.cost_le G D R) (b.cost_le G D R)
  cost_mono D R h := Nat.add_le_add (a.cost_mono D R h) (b.cost_mono D R h)
  cost_buried R h := Nat.add_le_add (a.cost_buried R h) (b.cost_buried R h)
  refs_anti hD hR := List.append_subset.2 ⟨fun _ h => List.mem_append_left _ (a.refs_anti hD hR h),
    fun _ h => List.mem_append_right _ (b.refs_anti hD hR h)⟩
  homed h D hs := Nat.add_le_add
    (Nat.le_trans (a.homed h.1 D (hs.mono (List.subset_append_left ..)))
      (a.cost_mono D [] (List.subset_append_left ..)))
    (Nat.le_trans (b.homed h.2 D (hs.mono (List.subset_append_right ..)))
      (b.cost_mono D [] (List.subset_append_right ..)))

/-- An identifier. -/
def ident (W : Watch) (role : Role) (id : Ident) : Uses W where
  live _ := W.uses id
  cost _ := .const (W.uses id)
  refs _ _ := if role = .reference then [id.site] else []
  tops := []
  heads := []
  lists := []
  closed := True
  cost_le _ _ _ := Nat.le_refl _
  cost_mono _ _ _ := Nat.le_refl _
  cost_buried _ _ := Nat.le_refl _
  refs_anti _ _ := List.Subset.refl _
  homed _ _ _ := Nat.le_refl _

/-- A piece that is charged its uses where all its declarations are dead that are inlined. -/
theorem live_le (a : Uses W) (h : a.closed) {D : List Site} (hs : W.Settled a.sites D) (ht : W.Buried a.tops D) :
    a.live D ≤ (a.cost []).val D [] := Nat.le_trans (a.homed h D hs) (a.cost_buried [] ht)

/-- A piece with a list of statements in a scope of its own. -/
def close (a : Uses W) : Uses W where
  live := a.live
  cost _ := (a.cost []).still
  refs D _ := a.refs D []
  tops := []
  heads := []
  lists := a.lists ++ a.tops
  closed := a.closed ∧ ∀ j ∈ W.inlined, ∀ σ ∈ a.tops, W.origin j = some σ → W.Covered j a.sites
  cost_le _ D _ := a.cost_le [] D []
  cost_mono _ _ _ := Nat.le_refl _
  cost_buried _ _ := Nat.le_refl _
  refs_anti hD _ := a.refs_anti hD (List.Subset.refl [])
  homed h D hs := a.live_le h.1 hs fun σ hσ hg => by
    obtain ⟨j, hj, ho⟩ := W.mem_gone.1 hg
    exact hs j hj σ ho (h.2 j hj σ hσ ho)

/-- A piece none of whose declarations is inlined. -/
def shut (a : Uses W) : Uses W where
  live := a.live
  cost _ := (a.cost []).still
  refs D _ := a.refs D []
  tops := []
  heads := []
  lists := a.lists
  closed := a.closed ∧ ∀ σ ∈ a.tops, σ ∉ W.gone
  cost_le _ D _ := a.cost_le [] D []
  cost_mono _ _ _ := Nat.le_refl _
  cost_buried _ _ := Nat.le_refl _
  refs_anti hD _ := a.refs_anti hD (List.Subset.refl [])
  homed h _ hs := a.live_le h.1 hs fun σ hσ hg => absurd hg (h.2 σ hσ)

/-- The declaration at a site.  If it declares a name, that counts for `n`. -/
def declared (a : Uses W) (site : Site) (isName : Bool) (n : Nat) : Uses W where
  live D := if site ∈ D then 0 else a.live D
  cost G := (a.cost []).declared site isName (site ∈ W.gone ∧ site ∉ G) n
  refs D R := if site ∈ D ∨ isName = true ∧ site ∈ R then [] else a.refs D []
  tops := [site]
  heads := []
  lists := a.lists
  closed := a.closed ∧ ∀ σ ∈ a.tops, σ ∉ W.gone
  cost_le G D R := by
    split
    · next h => rw [Cost.declared_dead h]
    · exact Nat.le_trans Cost.declared_le (a.cost_le [] D [])
  cost_mono _ _ h := Cost.declared_mono fun hc => .inl <| by
    rw [decide_eq_true_eq] at hc ⊢
    exact ⟨hc.1, fun hG => hc.2 (h hG)⟩
  cost_buried {G _} _ h := Cost.declared_mono fun hc => by
    rw [decide_eq_true_eq] at hc ⊢
    by_cases hG : site ∈ G
    · exact .inr (h site hG hc.1)
    · exact .inl ⟨hc.1, hG⟩
  refs_anti {_ _ _ _} hD hR := by
    split
    · exact List.nil_subset _
    · next h =>
      rw [if_neg fun h' => h (h'.imp (@hD site) fun h => ⟨h.1, @hR site h.2⟩)]
      exact a.refs_anti hD (List.Subset.refl [])
  homed h D hs := by
    by_cases hD : site ∈ D
    · rw [if_pos hD]
      exact Nat.zero_le _
    · rw [if_neg (by simp)] at hs
      rw [if_neg hD, Cost.declared_place hD fun _ => ⟨by simp, List.not_mem_nil⟩]
      exact a.live_le h.1 hs fun σ hσ hg => absurd hg (h.2 σ hσ)

/-- A declarator. -/
def declarator (d : Declarator) (a : Uses W) : Uses W := a.declared d.site d.target.isName (W.nameUses d.target)

@[simp] theorem declared_sites (a : Uses W) (site : Site) (isName : Bool) (n : Nat) :
    (a.declared site isName n).sites = a.sites := if_neg (by simp)

/-- The declaration of a function or class at a site. -/
def head (a : Uses W) (site : Site) : Uses W :=
  let b := a.close.declared site true 0
  { a.close with
    live := b.live
    cost := fun G => (b.cost G).still
    tops := [site]
    heads := [site]
    cost_le := fun G D _ => b.cost_le G D []
    cost_mono := fun D _ h => b.cost_mono D [] h
    cost_buried := fun _ h => b.cost_buried [] h
    homed := fun h D hs =>
      b.homed ⟨h, nofun⟩ D (Eq.mp (congrArg (W.Settled · D) (a.close.declared_sites site true 0).symm) hs) }

/-- The declaration of a function or class of the given name. -/
def named (name : Option Ident) (a : Uses W) : Uses W :=
  match name with
  | none => a.close
  | some id => a.head id.site

/-- A statement, by where its parts stand. -/
def stmt (m : Place) (a : Uses W) : Uses W :=
  match m with
  | .part => a
  | .list => a.close
  | .slot => a.shut

theorem append_assoc (a b c : Uses W) : (a.append b).append c = a.append (b.append c) := by
  ext
  · exact Nat.add_assoc ..
  · exact Nat.add_assoc ..
  all_goals simp [append, and_assoc]

theorem empty_append (a : Uses W) : empty.append a = a := by
  ext
  · exact Nat.zero_add _
  · exact Nat.zero_add _
  all_goals simp [append, empty]

theorem append_empty (a : Uses W) : a.append empty = a := by
  ext
  · rfl
  · rfl
  all_goals simp [append, empty]

end Uses

/-- Collects the uses of a binding. -/
def Watch.fold (W : Watch) : Fold (Uses W) where
  empty := .empty
  append := .append
  ident := .ident W
  expr _ a := a.close
  stmt t a := a.stmt t.place
  declarator := .declarator
  element _ a := a.shut
  funcDecl f a := a.named f.name
  clsDecl c a := a.named c.name

theorem Watch.fold_lawful (W : Watch) : W.fold.Lawful where
  assoc := Uses.append_assoc
  empty_left := Uses.empty_append
  empty_right := Uses.append_empty

namespace Uses

variable {W : Watch}

theorem declared_alive (a : Uses W) (isName : Bool) (n : Nat) {site : Site} {D : List Site} (h : site ∉ D) :
    (a.declared site isName n).live D = a.live D := if_neg h

theorem named_live_congr {a b : Uses W} {D : List Site} (name : Option Ident) (h : b.live D = a.live D) :
    (b.named name).live D = (a.named name).live D := by
  cases name with
  | none => exact h
  | some id => exact congrArg (fun n => if id.site ∈ D then 0 else n) h

theorem named_alive (name : Option Ident) (a : Uses W) {D : List Site} (h : ∀ id, name = some id → id.site ∉ D) :
    (a.named name).live D = a.live D := by
  cases name with
  | none => rfl
  | some id => exact if_neg (h id rfl)

@[simp] theorem stmt_live (m : Place) (a : Uses W) : (a.stmt m).live = a.live := by
  cases m <;> rfl

@[simp] theorem stmt_sites (m : Place) (a : Uses W) : (a.stmt m).sites = a.sites := by
  cases m <;> rfl

@[simp] theorem declarator_sites (d : Declarator) (a : Uses W) : (a.declarator d).sites = a.sites :=
  a.declared_sites ..

@[simp] theorem named_sites (name : Option Ident) (a : Uses W) : (a.named name).sites = a.sites := by
  cases name <;> rfl

end Uses

section

variable (s : State) {W : Watch} {a : Uses W} {ids : List Ident}

/-- The number of identifiers that use the binding that is watched. -/
def Watch.count (W : Watch) (ids : List Ident) : Nat := ids.countP fun id => W.bound id.site = some W.target

theorem Elimination.State.declared_live (site : Site) (h : W.count ids ≤ a.live s.dead) :
    W.count (if s.isDead site = true then [] else ids) ≤ if site ∈ s.dead then 0 else a.live s.dead := by
  by_cases hs : site ∈ s.dead
  · rw [if_pos hs, if_pos (State.isDead_iff.2 hs)]
    exact Nat.le_refl 0
  · rw [if_neg hs, if_neg (mt State.isDead_iff.1 hs)]
    exact h

theorem Elimination.State.named_live (name : Option Ident) (h : W.count ids ≤ a.live s.dead) :
    W.count (if (name.any fun id => s.isDead id.site) = true then [] else ids) ≤ (a.named name).live s.dead := by
  cases name with
  | none => exact h
  | some id => exact s.declared_live id.site h

end

/-- What is released with a piece that uses the binding are live uses of the piece. -/
theorem Elimination.State.liveIdents_relates (s : State) (W : Watch) :
    s.liveIdents.Relates W.fold fun ids a => W.count ids ≤ a.live s.dead where
  empty := Nat.le_refl 0
  append h h' := by
    show List.countP _ (_ ++ _) ≤ _ + _
    rw [List.countP_append]
    exact Nat.add_le_add h h'
  ident _ id := by
    show List.countP _ [id] ≤ if _ then 1 else 0
    simp [List.countP_singleton]
  expr _ _ _ _ h := h
  stmt t _ a _ h := h.trans_eq (congrFun (Uses.stmt_live t.place a).symm s.dead)
  declarator _ site _ _ h := s.declared_live site h
  element _ _ _ _ h := by
    show W.count (if _ then [] else _) ≤ _
    split
    · exact Nat.zero_le _
    · exact h
  funcDecl f h := s.named_live f.name h
  clsDecl c h := s.named_live c.name h
  property _ _ _ h := h
  hole := Nat.le_refl 0

/-- The references of a piece are what it reads or assigns to. -/
theorem Watch.references_relates (W : Watch) :
    W.fold.Relates (Fold.idents (· = .reference)) fun a ids => a.sites = ids.map Ident.site where
  empty := rfl
  append h h' := by
    show _ ++ _ = List.map _ (_ ++ _)
    rw [List.map_append, ← h, ← h']
    rfl
  ident role id := by
    show (if role = .reference then [id.site] else []) = List.map _ (if decide (role = .reference) then [id] else [])
    by_cases h : role = .reference <;> simp [h]
  expr _ _ _ _ h := h
  stmt t a _ _ h := (Uses.stmt_sites t.place a).trans h
  declarator kind site target init h := (Uses.declarator_sites (.mk site target init) _).trans h
  element _ _ _ _ h := h
  funcDecl f h := (Uses.named_sites f.name _).trans h
  clsDecl c h := (Uses.named_sites c.name _).trans h
  property _ _ _ h := h
  hole := rfl

end Deadwood
