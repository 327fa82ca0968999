import Deadwood.Proofs.Payment
import Mathlib.Algebra.BigOperators.Ring.Finset

/-!
# The ledger of a pass

Once a pass is over, what it has buried and what it has visited late make up its ledger.  The resolved
program is ready for a visit under that ledger, and it costs, with what the state owes, no more than the
tariff says.
-/

namespace Deadwood

open Elimination

theorem Sites.declareName_own (a : Sites) (name : Option Ident) : (a.declareName name).own = a.own := by
  cases name <;> rfl

/-! ### Definitions at the start -/

/-- Where every site is defined once, the definitions of a list are those that are looked up. -/
theorem foldl_setIfInBounds_iff {ds : List (Site × Definition)} {init : Array (Option Definition)}
    (hnd : (ds.map Prod.fst).Nodup) (hlt : ∀ x ∈ ds, x.1 < init.size) (σ : Site) (d : Definition) :
    ((ds.foldl (fun ds d => ds.setIfInBounds d.1 (some d.2)) init)[σ]?).join = some d ↔
      (σ, d) ∈ ds ∨ σ ∉ ds.map Prod.fst ∧ (init[σ]?).join = some d := by
  induction ds generalizing init with
  | nil => simp
  | cons x ds ih =>
    have hnd := List.nodup_cons.1 hnd
    have hx : x.1 < init.size := hlt x List.mem_cons_self
    rw [List.foldl_cons, ih hnd.2 fun y hy => by
      rw [Array.size_setIfInBounds]
      exact hlt y (List.mem_cons_of_mem _ hy)]
    rw [Array.getElem?_setIfInBounds]
    by_cases hσ : x.1 = σ
    · subst hσ
      have hnot : (x.1, d) ∉ ds := fun hd => hnd.1 (List.mem_map.2 ⟨_, hd, rfl⟩)
      have hxd : (x.1, d) = x ↔ x.2 = d := ⟨fun h => (congrArg Prod.snd h).symm, fun h => by rw [← h]⟩
      simp [hx, hnd.1, hnot, hxd]
    · have hne : (σ, d) ≠ x := fun h => hσ (congrArg Prod.fst h).symm
      have hne' : σ ≠ x.1 := fun h => hσ h.symm
      simp [hσ, hne, hne']

namespace Ledger

/-- What the declarations of a piece give to their names, where they give one. -/
structure Defines (a : Piece) (ds : List (Site × Definition)) : Prop where
  mem : ∀ {σ d}, (σ, some d) ∈ a.contents → (σ, d) ∈ ds
  of_mem : ∀ {σ d}, (σ, d) ∈ ds → σ ∈ a.elems ∨ (σ, some d) ∈ a.contents
  count : ∀ σ, (ds.map Prod.fst).count σ ≤ a.keys.count σ

namespace Defines

variable {a b : Piece} {ds es : List (Site × Definition)}

theorem append (h : Defines a ds) (h' : Defines b es) : Defines (a.append b) (ds ++ es) where
  mem hm := List.mem_append.2 ((List.mem_append.1 hm).imp h.mem h'.mem)
  of_mem hm := by
    rcases List.mem_append.1 hm with hm | hm
    · exact (h.of_mem hm).imp (List.mem_append_left _) (List.mem_append_left _)
    · exact (h'.of_mem hm).imp (List.mem_append_right _) (List.mem_append_right _)
  count σ := by
    rw [List.map_append, List.count_append, (Piece.append_keys a b).count_eq, List.count_append]
    exact Nat.add_le_add (h.count σ) (h'.count σ)

/-- A new declaration with its definition. -/
theorem cons (h : Defines a ds) {σ : Site} {d : Definition} (hcontents : b.contents = (σ, some d) :: a.contents)
    (helems : b.elems = a.elems) : Defines b ((σ, d) :: ds) where
  mem hm := by
    rw [hcontents] at hm
    rcases List.mem_cons.1 hm with hm | hm
    · cases hm
      exact List.mem_cons_self
    · exact List.mem_cons_of_mem _ (h.mem hm)
  of_mem hm := by
    rw [hcontents, helems]
    rcases List.mem_cons.1 hm with hm | hm
    · cases hm
      exact .inr List.mem_cons_self
    · exact (h.of_mem hm).imp id (List.mem_cons_of_mem _)
  count τ := by
    have hc := h.count τ
    rw [Piece.keys, ← a.keyed] at hc
    rw [Piece.keys, ← b.keyed, hcontents, helems]
    simp only [List.map_cons, List.cons_append, List.count_cons]
    omega

end Defines

variable (L : Ledger)

/-- An expression without a name that is visited late is no box. -/
theorem expr_unboxed {e : Expr} {a : Piece} (h : ∀ x ∈ (L.fold.expr e a).own, x ∉ L.late) :
    L.fold.expr e a = L.inside e a := by
  have h : ∀ x ∈ (((L.boxed? e a).map L.box).getD (L.inside e a)).own, x ∉ L.late := h
  show ((L.boxed? e a).map L.box).getD (L.inside e a) = _
  cases hb : L.boxed? e a with
  | none => rfl
  | some σ =>
    rw [hb] at h
    exact absurd (of_decide_eq_true (Option.filter_eq_some_iff.1 hb).2).1 (h σ (List.mem_singleton_self _))

theorem named_own (name : Option Ident) (d : Definition) (a : Piece) : (L.named name d a).own = a.own := by
  cases name <;> rfl

theorem funcDecl_own (f : Func) (a : Piece) : (L.fold.funcDecl f a).own = a.own := L.named_own ..

theorem clsDecl_own (c : Class) (a : Piece) : (L.fold.clsDecl c a).own = a.own := L.named_own ..

theorem Defines.charged {a : Piece} {ds : List (Site × Definition)} (h : Defines a ds) (n : Nat) :
    Defines (a.charged n) ds := ⟨h.mem, h.of_mem, h.count⟩

theorem Defines.named {a : Piece} {ds : List (Site × Definition)} (h : Defines a ds) (name : Option Ident)
    (d : Definition) : Defines (L.named name d a) ((name.toList.map fun id => (id.site, d)) ++ ds) := by
  cases name with
  | none => exact ⟨h.mem, h.of_mem, h.count⟩
  | some id => exact h.cons rfl rfl

theorem defines_relates : L.fold.Relates declarations
    fun a ds => (∀ x ∈ a.own, x ∉ L.late) → Defines a ds where
  empty _ := ⟨nofun, nofun, fun _ => Nat.zero_le _⟩
  append h h' hn :=
    (h fun x hx => hn x (List.mem_append_left _ hx)).append (h' fun x hx => hn x (List.mem_append_right _ hx))
  ident _ _ _ := ⟨nofun, nofun, fun _ => Nat.zero_le _⟩
  expr e {a ds} _ h hn := by
    have he := L.expr_unboxed hn
    rw [he] at hn ⊢
    exact ⟨(h hn).mem, (h hn).of_mem, (h hn).count⟩
  stmt _ _ _ _ h hn := ⟨(h hn).mem, (h hn).of_mem, (h hn).count⟩
  declarator kind site target init h hn := by
    have h := h hn
    cases target with
    | ident id => exact h.cons rfl rfl
    | _ =>
      refine ⟨fun hm => ?_, fun hm => (h.of_mem hm).imp id (List.mem_cons_of_mem _), fun σ => ?_⟩
      · rcases List.mem_cons.1 hm with hm | hm
        · cases hm
        · exact h.mem hm
      · refine Nat.le_trans (h.count σ) ?_
        exact List.count_le_count_cons ..
  element kind site target init h hn := by
    have h := h hn
    have hkeys (σ : Site) : ((Declarator.mk site target init).foldElem L.fold kind).keys.count σ =
        (site :: ((target.fold L.fold kind).append (Expr.foldOpt L.fold init)).keys).count σ :=
      List.perm_middle.count_eq σ
    cases target with
    | ident id =>
      refine ⟨fun hm => List.mem_cons_of_mem _ (h.mem hm), fun hm => ?_, fun σ => ?_⟩
      · rcases List.mem_cons.1 hm with hm | hm
        · cases hm
          exact .inl List.mem_cons_self
        · exact (h.of_mem hm).imp (List.mem_cons_of_mem _) fun hc => hc
      · have hc := h.count σ
        rw [hkeys, List.count_cons]
        show (site :: _).count σ ≤ _
        rw [List.count_cons]
        exact Nat.add_le_add_right hc _
    | _ =>
      refine ⟨h.mem, fun hm => (h.of_mem hm).imp (List.mem_cons_of_mem _) id, fun σ => ?_⟩
      rw [hkeys]
      exact Nat.le_trans (h.count σ) List.count_le_count_cons
  funcDecl f h hn := ((h (L.funcDecl_own f _ ▸ hn)).charged _).named L f.name (.func f)
  clsDecl c h hn := ((h (L.clsDecl_own c _ ▸ hn)).charged _).named L c.name (.cls c)
  property _ _ _ h := h
  hole _ := ⟨nofun, nofun, fun _ => Nat.zero_le _⟩

theorem named_toSites (name : Option Ident) (d : Definition) (a : Piece) :
    (L.named name d a).toSites = a.toSites.declareName name := by
  cases name <;> rfl

/-- Without boxes, the sites of a piece are those of the syntax. -/
theorem sites_relates : L.fold.Relates Fold.sites
    fun a b => (∀ x ∈ b.own, x ∉ L.late) → a.toSites = b where
  empty _ := rfl
  append h h' hn :=
    congrArg₂ Sites.append (h fun x hx => hn x (List.mem_append_left _ hx))
      (h' fun x hx => hn x (List.mem_append_right _ hx))
  ident _ _ _ := rfl
  expr e {a b} _ h hn := by
    have hab : a.toSites = b := h hn
    have hb : L.boxed? e a = none := by
      rw [boxed?, Option.filter_eq_none_iff]
      intro σ _ hσ
      obtain ⟨hl, ho, -⟩ := of_decide_eq_true hσ
      rw [hab] at ho
      exact hn σ ho hl
    show (((L.boxed? e a).map L.box).getD (L.inside e a)).toSites = _
    rw [hb, ← hab]
    rfl
  stmt _ _ _ _ h hn := h hn
  declarator kind site target init h hn :=
    congrArg (fun a : Sites => { a with decls := (site, a.binders) :: a.decls }) (h hn)
  element kind site target init h hn :=
    congrArg (fun a : Sites => { a with elems := site :: a.elems }) (h hn)
  funcDecl f h hn :=
    (L.named_toSites f.name (.func f) _).trans <| congrArg (Sites.declareName · f.name) <| h fun x hx =>
      hn x ((congrArg (x ∈ ·) (Sites.declareName_own _ f.name)).mpr hx)
  clsDecl c h hn :=
    (L.named_toSites c.name (.cls c) _).trans <| congrArg (Sites.declareName · c.name) <| h fun x hx =>
      hn x ((congrArg (x ∈ ·) (Sites.declareName_own _ c.name)).mpr hx)
  property _ _ _ h := h
  hole _ := rfl

/-- What is given to a name is given by a declaration of that name alone. -/
def Titled (a : Piece) : Prop :=
  ∀ σ d, (σ, some d) ∈ a.contents → (∃ x, (σ, [x]) ∈ a.decls) ∧
    ((d.isNamed = true → L.isClass σ = d.cls?.isSome) → d.isAt L σ)

variable {L} in
theorem Titled.among {a : Piece} (h : L.Titled a) {ds : List (Site × List Site)} (hds : a.decls ⊆ ds)
    {σ : Site} {d : Definition} (hm : (σ, some d) ∈ a.contents) :
    (∃ x, (σ, [x]) ∈ ds) ∧ ((d.isNamed = true → L.isClass σ = d.cls?.isSome) → d.isAt L σ) := by
  obtain ⟨⟨x, hx⟩, hat⟩ := h σ d hm
  exact ⟨⟨x, hds hx⟩, hat⟩

variable {L} in
theorem Titled.charged {a : Piece} (h : L.Titled a) (n : Nat) : L.Titled (a.charged n) := h

variable {L} in
theorem Titled.named {a : Piece} (h : L.Titled a) (name : Option Ident) {d : Definition}
    (hd : ∀ id, name = some id → L.isClass id.site = d.cls?.isSome → d.isAt L id.site) (hn : d.isNamed = true) :
    L.Titled (L.named name d a) := by
  cases name with
  | none => exact h
  | some id =>
    intro σ e hm
    rcases List.mem_cons.1 hm with hm | hm
    · cases hm
      exact ⟨⟨id.site, List.mem_cons_self⟩, fun hk => hd id rfl (hk hn)⟩
    · exact h.among (List.subset_cons_self _ _) hm

theorem titled_relates : L.fold.Relates Fold.unit fun a _ => L.Titled a where
  empty := nofun
  append h h' σ d hm := by
    rcases List.mem_append.1 hm with hm | hm
    · exact h.among (List.subset_append_left _ _) hm
    · exact h'.among (List.subset_append_right _ _) hm
  ident _ _ := nofun
  expr e {a _} _ h := by
    show L.Titled (((L.boxed? e a).map L.box).getD (L.inside e a))
    cases L.boxed? e a with
    | none => exact h
    | some σ => exact nofun
  stmt _ _ _ _ h := h
  declarator kind site target init h σ d hm := by
    rcases List.mem_cons.1 hm with hm | hm
    · cases target with
      | ident id =>
        cases hm
        have hb : ((Pattern.ident id).fold L.fold kind).binders ++ (Expr.foldOpt L.fold init).binders =
            [id.site] := by
          rw [Expr.foldOpt_binders, Pattern.fold_binders]
          rfl
        refine ⟨⟨id.site, ?_⟩, fun _ => trivial⟩
        rw [← hb]
        exact List.mem_cons_self
      | _ => cases hm
    · exact h.among (List.subset_cons_self _ _) hm
  element _ _ _ _ h := h
  funcDecl f h := (h.charged _).named f.name (fun _ hid hk => ⟨congrArg (Option.map Ident.site) hid, hk⟩) rfl
  clsDecl c h := (h.charged _).named c.name (fun _ hid hk => ⟨congrArg (Option.map Ident.site) hid, hk⟩) rfl
  property _ _ _ h := h
  hole := nofun

/-! ### What a program costs at first -/

/-- What is owed for a declaration with the given content. -/
def owed (c : Site × Option Definition) : Nat :=
  if c.1 ∈ L.dead then (c.2.map fun d => (d.piece L).cost.val [] []).getD 0 else 0

def owes (a : Piece) : Nat := (a.contents.map L.owed).sum

theorem owes_append (a b : Piece) : L.owes (a.append b) = L.owes a + L.owes b := by
  rw [owes, Piece.append, List.map_append, List.sum_append]
  rfl

theorem owes_cons {a b : Piece} {c : Site × Option Definition} (h : b.contents = c :: a.contents) :
    L.owes b = L.owed c + L.owes a := by
  rw [owes, h, List.map_cons, List.sum_cons]
  rfl

variable {L} in
theorem charged_owes {a : Piece} {n m : Nat} (h : a.cost.val [] [] + L.owes a ≤ n) :
    (a.charged m).cost.val [] [] + L.owes a ≤ n + m := by
  show a.cost.val [] [] + m + L.owes a ≤ n + m
  omega

variable {L} in
theorem named_charges_owed {a : Piece} {n : Nat} (name : Option Ident) {d : Definition} (hd : d.piece L = a)
    (h : a.cost.val [] [] + L.owes a ≤ n) :
    (L.named name d a).cost.val [] [] + L.owes (L.named name d a) ≤ n := by
  cases name with
  | none => exact h
  | some id =>
    rw [L.owes_cons (a := a) (c := (id.site, some d)) rfl]
    by_cases hJ : id.site ∈ L.dead
    · simp only [Ledger.named, owed, if_pos hJ, Option.map_some, Option.getD_some, hd, Cost.const_val]
      omega
    · simp only [Ledger.named, owed, if_neg hJ]
      omega

variable {L} in
theorem declarator_charges_owed (kind : BindingKind) (site : Site) (target : Pattern) (init : Option Expr) {n : Nat}
    (h : ((target.fold L.fold kind).append (Expr.foldOpt L.fold init)).cost.val [] [] +
      L.owes ((target.fold L.fold kind).append (Expr.foldOpt L.fold init)) ≤ n) :
    ((Declarator.mk site target init).fold L.fold kind).cost.val [] [] +
      L.owes ((Declarator.mk site target init).fold L.fold kind) ≤
        n + L.tariff.declaratorCost (.mk site target init) := by
  have hcons : L.owes ((Declarator.mk site target init).fold L.fold kind) =
      L.owed (site, if target.isName then some (.variable init) else none) +
        L.owes ((target.fold L.fold kind).append (Expr.foldOpt L.fold init)) := L.owes_cons rfl
  have hcost : L.tariff.declaratorCost (.mk site target init) =
      (!target.isName).toNat * L.tariff.unit + init.isSome.toNat * L.tariff.unit := Nat.add_mul ..
  rw [hcons, hcost]
  cases hp : target.isName with
  | false =>
    have howed : L.owed (site, none) = 0 := ite_self 0
    have hle : ((Declarator.mk site target init).fold L.fold kind).cost.val [] [] ≤ _ :=
      Visit.pattern_cost kind site init hp ▸ Cost.declarator_pattern_le
    simp only [Bool.false_eq_true, if_false, howed, Bool.not_false, Bool.toNat_true]
    omega
  | true =>
    cases target with
    | ident id =>
      rw [Visit.name_parts] at h
      rw [Visit.name_cost kind id init List.not_mem_nil List.not_mem_nil]
      by_cases hJ : site ∈ L.dead
      · simp only [owed, if_pos hJ, if_true, Option.map_some, Option.getD_some, Definition.piece]
        omega
      · simp only [owed, if_neg hJ]
        omega
    | _ => cases hp

/-- What is charged at once and what is owed make up what the tariff says. -/
theorem tariff_relates : L.fold.Relates L.tariff.fold
    fun a n => (∀ x ∈ a.own, x ∉ L.late) → a.cost.val [] [] + L.owes a ≤ n where
  empty _ := Nat.le_refl 0
  append {a n a' n'} h h' hn := by
    have h := h fun x hx => hn x (List.mem_append_left _ hx)
    have h' := h' fun x hx => hn x (List.mem_append_right _ hx)
    show (a.append a').cost.val [] [] + L.owes (a.append a') ≤ n + n'
    rw [owes_append]
    simp only [Piece.append, Cost.add_val]
    omega
  ident _ _ _ := Nat.le_refl _
  expr e {a n} _ h hn := by
    have he := L.expr_unboxed hn
    rw [he] at hn ⊢
    exact charged_owes (h hn)
  stmt x {a n} _ h hn := charged_owes (h hn)
  declarator kind site target init h hn := declarator_charges_owed kind site target init (h hn)
  element kind site target init h hn := by
    exact charged_owes (h hn)
  funcDecl f h hn := named_charges_owed f.name rfl (charged_owes (h (L.funcDecl_own f _ ▸ hn)))
  clsDecl c h hn := named_charges_owed c.name rfl (charged_owes (h (L.clsDecl_own c _ ▸ hn)))
  property _ _ _ h := h
  hole _ := Nat.le_refl 0

/-! ### The program before the pass -/

/-- The ledger has been made for a pass over the program that starts in the given state. -/
structure Suits (p : Program) (s : State) : Prop where
  entries : L.entries = (p.fold Fold.sites).decls
  elems : L.elems = (p.fold Fold.sites).elems
  late : ∀ σ ∈ L.late, σ ∈ L.entries.map Prod.fst
  isClass : ∀ σ, L.isClass σ = (s.definition? σ).any fun d => d.cls?.isSome

section Start

variable {L} {p : Program} {s : State} {info : Info} {usage : Usage}

/-- Nothing is visited late before the pass. -/
theorem Suits.toSites (h : L.Suits p s) (hp : Numbered (p.fold Fold.sites) info) :
    (p.fold L.fold).toSites = p.fold Fold.sites ∧ ∀ x ∈ (p.fold L.fold).own, x ∉ L.late := by
  have hn : ∀ x ∈ (p.fold Fold.sites).own, x ∉ L.late := by
    intro x hx hxl
    have hxe := h.late x hxl
    rw [h.entries] at hxe
    exact (List.nodup_append.1 hp.nodup).2.2 x hxe x (List.mem_append_left _ hx) rfl
  have ha := Program.fold_related L.sites_relates p hn
  exact ⟨ha, ha ▸ hn⟩

theorem Suits.keys (h : L.Suits p s) (hp : Numbered (p.fold Fold.sites) info) :
    (p.fold L.fold).keys.Sublist (p.fold Fold.sites).all := by
  have ha := (h.toSites hp).1
  rw [← ha, Piece.keys, Sites.all]
  exact (List.sublist_append_right _ _).append_left _

/-- The definitions at the start of a pass are those of the program. -/
theorem Suits.definition (h : L.Suits p (.start p info usage)) (hp : Numbered (p.fold Fold.sites) info)
    (σ : Site) (d : Definition) :
    (State.start p info usage).definition? σ = some d ↔ (σ, d) ∈ p.fold declarations := by
  have hd := Program.fold_related L.defines_relates p (h.toSites hp).2
  have hkeys := h.keys hp
  have hnd : ((p.fold declarations).map Prod.fst).Nodup := by
    refine List.nodup_iff_count_le_one.2 fun x => Nat.le_trans (hd.count x) ?_
    exact List.nodup_iff_count_le_one.1 (hp.nodup.sublist hkeys) x
  have hlt (x : Site × Definition) (hx : x ∈ p.fold declarations) :
      x.1 < (Array.replicate info.decls.size (none : Option Definition)).size := by
    have hmem : x.1 ∈ (p.fold L.fold).keys := by
      refine List.count_pos_iff.1 (Nat.lt_of_lt_of_le ?_ (hd.count x.1))
      exact List.count_pos_iff.2 (List.mem_map_of_mem hx)
    rw [Array.size_replicate]
    exact (hp.range _ (hkeys.subset hmem)).2
  refine (foldl_setIfInBounds_iff hnd hlt σ d).trans ⟨fun hm => hm.elim id fun hm => ?_, .inl⟩
  have hnone := hm.2
  rw [Array.getElem?_replicate] at hnone
  split at hnone <;> cases hnone

theorem Suits.content (h : L.Suits p (.start p info usage)) (hp : Numbered (p.fold Fold.sites) info)
    {c : Site × Option Definition} (hc : c ∈ (p.fold L.fold).contents) :
    (State.start p info usage).definition? c.1 = c.2 := by
  have hd := Program.fold_related L.defines_relates p (h.toSites hp).2
  have hnd : ((p.fold L.fold).contents.map Prod.fst ++ (p.fold L.fold).elems).Nodup := by
    rw [(p.fold L.fold).keyed]
    exact hp.nodup.sublist (h.keys hp)
  have hnd := List.nodup_append.1 hnd
  obtain ⟨σ, d⟩ := c
  cases d with
  | some d => exact (h.definition hp σ d).2 (hd.mem hc)
  | none =>
    refine Option.eq_none_iff_forall_ne_some.2 fun d hdef => ?_
    rcases hd.of_mem ((h.definition hp σ d).1 hdef) with he | hc'
    · exact hnd.2.2 σ (List.mem_map_of_mem hc) σ he rfl
    · cases List.inj_on_of_nodup_map hnd.1 hc hc' rfl

/-- The program is ready for the pass. -/
theorem Suits.ready (h : L.Suits p (.start p info usage)) (hp : Numbered (p.fold Fold.sites) info) :
    L.Ready (p.fold L.fold) (.start p info usage) where
  dead _ hσ := nomatch hσ
  origins hi hσ := h.entries ▸ hp.bound _ _ _ hi hσ
  defined {σ d} hdef hne := by
    have hd := Program.fold_related L.defines_relates p (h.toSites hp).2
    have ha := (h.toSites hp).1
    have hel : (p.fold L.fold).elems = L.elems := h.elems ▸ congrArg Sites.elems ha
    have hc := (hd.of_mem ((h.definition hp σ d).1 hdef)).resolve_left (hel ▸ hne)
    obtain ⟨hx, hat⟩ := Program.fold_related L.titled_relates p σ d hc
    refine ⟨hat fun _ => ?_, ?_⟩
    · rw [h.isClass, hdef]
      rfl
    · rw [h.entries, ← ha]
      exact hx
  buried hσ := nomatch hσ
  late hl := nomatch hl
  nodup := hp.nodup.sublist (h.keys hp)
  entries := by
    rw [h.entries, ← (h.toSites hp).1]
    exact List.Subset.refl _
  elems := by
    rw [h.elems, ← (h.toSites hp).1]
    exact List.Subset.refl _
  unboxed := (h.toSites hp).2
  contents _ hc := .inl (h.content hp hc)

/-- What is summed up over declarations is so over what the program gives to them. -/
theorem Suits.sum_contents (h : L.Suits p (.start p info usage)) (hp : Numbered (p.fold Fold.sites) info)
    {D : Finset Site} (hd : ∀ σ ∈ D, σ ∈ L.entries.map Prod.fst) (f : Option Definition → Nat) :
    ∑ σ ∈ D, f ((State.start p info usage).definition? σ) =
      ((p.fold L.fold).contents.map fun c => if c.1 ∈ D then f c.2 else 0).sum := by
  have hkeyed : (p.fold L.fold).contents.map Prod.fst = L.entries.map Prod.fst := by
    rw [(p.fold L.fold).keyed, h.entries, ← (h.toSites hp).1]
  have hcontent (c : Site × Option Definition) (hc : c ∈ (p.fold L.fold).contents) :
      (if c.1 ∈ D then f c.2 else 0) = if c.1 ∈ D then f ((State.start p info usage).definition? c.1) else 0 := by
    rw [h.content hp hc]
  calc
    ∑ σ ∈ D, f ((State.start p info usage).definition? σ) =
        ∑ σ ∈ (L.entries.map Prod.fst).toFinset,
          if σ ∈ D then f ((State.start p info usage).definition? σ) else 0 := by
      rw [Finset.sum_ite_mem, Finset.inter_eq_right.2 fun σ hσ => List.mem_toFinset.2 (hd σ hσ)]
    _ = ((p.fold L.fold).contents.map fun c => if c.1 ∈ D then f c.2 else 0).sum := by
      rw [List.sum_toFinset _ L.nodup, ← hkeyed, List.map_map, List.map_congr_left hcontent]
      rfl

/-- What is owed at the start of the pass. -/
theorem Suits.stake (h : L.Suits p (.start p info usage)) (hp : Numbered (p.fold Fold.sites) info)
    (hd : ∀ σ ∈ L.dead, σ ∈ L.entries.map Prod.fst) :
    L.stake ∅ (.start p info usage) = L.owes (p.fold L.fold) := by
  have hterm (σ : Site) : L.term (.start p info usage) σ = L.value (.start p info usage) σ :=
    if_neg List.not_mem_nil
  calc
    L.stake ∅ (.start p info usage) = ((∑ σ ∈ L.dead, L.value (.start p info usage) σ : Nat) : Int) := by
      rw [Ledger.stake, Finset.sdiff_empty, Nat.cast_sum]
      exact Finset.sum_congr rfl fun σ _ => hterm σ
    _ = L.owes (p.fold L.fold) := by
      let f (d : Option Definition) : Nat := (d.map fun d : Definition => (d.piece L).cost.val [] []).getD 0
      exact congrArg Nat.cast (h.sum_contents hp hd f)

/-- At the start the program costs no more than the tariff says. -/
theorem Suits.cost (h : L.Suits p (.start p info usage)) (hp : Numbered (p.fold Fold.sites) info)
    (hd : ∀ σ ∈ L.dead, σ ∈ L.entries.map Prod.fst) :
    (p.fold L.fold).cost.val [] [] + L.stake ∅ (.start p info usage) ≤ p.fold L.tariff.fold := by
  have hb := Program.fold_related L.tariff_relates p (h.toSites hp).2
  rw [h.stake hp hd]
  exact_mod_cast hb

end Start

end Ledger

end Deadwood
