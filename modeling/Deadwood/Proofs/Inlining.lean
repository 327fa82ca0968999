import Deadwood.Proofs.Account

/-!
# Inlining is paid for

The value that takes the place of a reference is what its declaration gives to the name.  The state owes
that value no longer, and the declaration is dead from then on.
-/

namespace Deadwood

open Elimination

/-! ### What is inlined -/

/-- The value that a definition gives to its name. -/
def Elimination.Definition.value? : Definition → Option Expr
  | .variable init => init
  | .func f => some (.func f)
  | .cls c => some (.cls c)

/-- Where a name comes from that is given its value by a definition at the given site. -/
def Elimination.Definition.origin (σ : Site) : Definition → Origin
  | .variable _ => .declarator σ
  | .func _ => .func σ
  | .cls _ => .cls σ

theorem Elimination.Definition.origin_site? (σ : Site) (d : Definition) : (d.origin σ).site? = some σ := by
  cases d <;> rfl

namespace Elimination.State

variable {s : State} {id : Ident} {i : BindingId} {b : Binding} {value : Expr}

theorem valueOf?_spec (h : s.valueOf? b = some value) :
    ∃ σ d e, b.origin = d.origin σ ∧ s.definition? σ = some d ∧ d.value? = some e ∧
      value = s.renewExpr e := by
  unfold valueOf? at h
  split at h
  next σ ho =>
    split at h
    · split at h
      next init hd =>
        obtain ⟨e, he, hv⟩ := Option.map_eq_some_iff.1 h
        exact ⟨σ, .variable init, e, ho, hd, he, hv.symm⟩
      · cases h
    · cases h
  next σ ho =>
    split at h
    next f hd => exact ⟨σ, .func f, .func f, ho, hd, rfl, (Option.some.inj h).symm⟩
    · cases h
  next σ ho =>
    split at h
    next c hd => exact ⟨σ, .cls c, .cls c, ho, hd, rfl, (Option.some.inj h).symm⟩
    · cases h
  · cases h

/-- What has been checked of a value that is inlined. -/
structure Inlines (s : State) (id : Ident) (i : BindingId) (b : Binding) (value : Expr) : Prop where
  moved : id.site ∉ s.moved
  bound : s.info.bindingOf? id = some i
  binding : s.info.binding? i = some b
  inlinable : s.isInlinable i b = true
  valueOf : s.valueOf? b = some value
  references : ∀ r ∈ value.references, r.site ≠ id.site

theorem inlined?_spec (h : s.inlined? id = some (i, b, value)) : s.Inlines id i b value := by
  obtain ⟨⟨j, c, v⟩, hc, h⟩ := Option.bind_eq_some_iff.1 h
  obtain ⟨scope, -, h⟩ := Option.bind_eq_some_iff.1 h
  obtain ⟨_, -, h⟩ := Option.bind_eq_some_iff.1 h
  obtain ⟨_, hr, h⟩ := Option.bind_eq_some_iff.1 h
  cases h
  obtain ⟨hm, hj, hb, hi, hv⟩ := candidate?_eq_some_iff.1 hc
  have hr := of_guard hr
  simp only [Bool.not_eq_true', Bool.or_eq_false_iff, List.any_eq_false, decide_eq_true_eq] at hr
  refine ⟨fun hmem => ?_, hj, hb, hi, hv, hr.1⟩
  rw [List.contains_iff_mem.2 hmem] at hm
  cases hm

/-- The state after a value has been inlined. -/
def inlining (s : State) (i : BindingId) (b : Binding) (value : Expr) : State :=
  { s with
    moved := value.references.map Ident.site ++ s.moved
    info := (s.info.modifyScope b.scope fun sc => sc.remove b.name).modifyBinding i fun b =>
      { b with references := 0 }
    dead := b.origin.site?.toList ++ s.dead
    changes := { rule := .inline, name := b.name } :: s.changes }

/-- A reference stays, or its value takes its place. -/
theorem inline_cases (id : Ident) (s : State) : ∃ c, s.Settles (s.noting c) ∧
    (inline id s = (none, s.noting c) ∨ ∃ i b value, (s.noting c).Inlines id i b value ∧
      inline id s = (some value, (s.noting c).inlining i b value)) := by
  refine ⟨_, ask_settles s ((s.candidate? id).map fun c => c.2.2), ?_⟩
  simp only [inline, run_bind, run_get]
  cases h : s.inlined? id with
  | none => exact .inl rfl
  | some r =>
    have hi := inlined?_spec h
    exact .inr ⟨r.1, r.2.1, r.2.2, ⟨hi.moved, hi.bound, hi.binding, hi.inlinable, hi.valueOf, hi.references⟩, rfl⟩

theorem binding?_modifyScope (info : Info) (m : Mark) (f : Scope → Scope) (j : BindingId) :
    (info.modifyScope m f).binding? j = info.binding? j := by
  unfold Info.modifyScope
  split <;> rfl

/-- The binding that is inlined is not referred to any more, and the others are as they were. -/
theorem inlining_binding? (j : BindingId) :
    (s.inlining i b value).info.binding? j =
      if i = j then (s.info.binding? j).map fun b => { b with references := 0 } else s.info.binding? j := by
  show ((s.info.modifyScope b.scope _).modifyBinding i _).binding? j = _
  rw [binding?_modifyBinding, binding?_modifyScope]

theorem inlining_decls : (s.inlining i b value).info.decls = s.info.decls := by
  show (s.info.modifyScope b.scope _).decls = _
  unfold Info.modifyScope
  split <;> rfl

theorem inlining_unused : (s.inlining i b value).isReferenced (some i) = false := by
  rw [isReferenced_some, inlining_binding?, if_pos rfl]
  cases s.info.binding? i <;> rfl

theorem inlining_grows : s.Grows (s.inlining i b value) where
  decls := inlining_decls
  origins {j c} hc := by
    rw [inlining_binding?] at hc
    split at hc
    · obtain ⟨a, ha, rfl⟩ := Option.map_eq_some_iff.1 hc
      exact ⟨a, ha, rfl⟩
    · exact ⟨c, hc, rfl⟩
  unused {j} hj := by
    cases j with
    | none => rfl
    | some j =>
      by_cases hij : i = j
      · exact hij ▸ inlining_unused
      · rw [isReferenced_some, inlining_binding?, if_neg hij]
        exact hj
  moved := List.subset_append_right _ _
  dead := List.subset_append_right _ _
  trimmed := List.Subset.refl _
  late := List.Subset.refl _

end Elimination.State

namespace Ledger

variable {L : Ledger} {s : State} {σ : Site} {d : Definition} {e : Expr}

/-! ### What the value costs and refers to -/

/-- What is outside of boxes is referred to. -/
theorem refs_relates : L.fold.Relates (Fold.idents (· = .reference))
    fun a ids => a.refs ⊆ ids.map Ident.site where
  empty := List.nil_subset _
  append h h' := by
    rw [Fold.idents, List.map_append]
    exact List.append_subset.2
      ⟨fun x hx => List.mem_append_left _ (h hx), fun x hx => List.mem_append_right _ (h' hx)⟩
  ident role id := by
    show (if role = .reference then _ else _) ⊆ List.map _ (if decide (role = .reference) then _ else _)
    by_cases h : role = .reference
    · simp [h]
    · simp [h]
  expr e {a ids} _ h := by
    show (((L.boxed? e a).map L.box).getD (L.inside e a)).refs ⊆ _
    cases L.boxed? e a with
    | none => exact h
    | some σ => exact List.nil_subset _
  stmt _ _ _ _ h := h
  declarator _ _ _ _ h := h
  element _ _ _ _ h := h
  funcDecl f h := by
    show (L.named f.name _ _).refs ⊆ _
    cases f.name <;> exact h
  clsDecl c h := by
    show (L.named c.name _ _).refs ⊆ _
    cases c.name <;> exact h
  property _ _ _ h := h
  hole := List.nil_subset _

/-- The name of a function costs the same in a declaration and in an expression. -/
theorem func_own (f : Func) : (f.fold L.fold .own).cost = (f.fold L.fold .func).cost ∧
    (f.fold L.fold .own).refs = (f.fold L.fold .func).refs := by
  cases f with
  | mk name params rest body async generator =>
    cases name with
    | none => exact ⟨rfl, rfl⟩
    | some id => exact ⟨congrArg (fun n => (Cost.const n).add _) (L.tariff.identCost_binding ..), rfl⟩

theorem cls_own (c : Class) : (c.fold L.fold .own).cost = (c.fold L.fold .cls).cost ∧
    (c.fold L.fold .own).refs = (c.fold L.fold .cls).refs := by
  cases c with
  | mk name superclass body decorators =>
    cases name with
    | none => exact ⟨rfl, rfl⟩
    | some id =>
      exact ⟨congrArg (fun n => Cost.add _ ((Cost.const n).add _)) (L.tariff.identCost_binding ..), rfl⟩

theorem exprCost_func (L : Ledger) (f : Func) : L.tariff.exprCost (.func f) = L.tariff.expr (.func f) := by
  show 0 * _ + _ = _
  omega

theorem exprCost_cls (L : Ledger) (c : Class) : L.tariff.exprCost (.cls c) = L.tariff.expr (.cls c) := by
  show 0 * _ + _ = _
  omega

/-- A function that is no box costs the same as its declaration gives to its name. -/
theorem inside_func (f : Func) : (L.inside (.func f) (f.fold L.fold .own)).cost = ((Definition.func f).piece L).cost := by
  show Cost.add _ _ = Cost.add _ _
  rw [(func_own f).1, exprCost_func]

theorem inside_cls (c : Class) : (L.inside (.cls c) (c.fold L.fold .own)).cost = ((Definition.cls c).piece L).cost := by
  show Cost.add _ _ = Cost.add _ _
  rw [(cls_own c).1, exprCost_cls]

theorem renew_func (hk : L.Knows s) {f : Func} (hf : f.name.map Ident.site = some σ)
    (hσ : s.late.lookup σ = none) :
    ∃ g, s.renewExpr (.func f) = .func g ∧ (f.fold L.fold .own).Same (g.fold L.fold .own) := by
  unfold State.renewExpr
  split
  · exact ⟨f, rfl, .refl _⟩
  · obtain ⟨id, hid, rfl⟩ := Option.map_eq_some_iff.1 hf
    have ho : s.renewal.otherFunc f = none := by
      show f.name.bind _ = none
      rw [hid, Option.bind_some, hσ]
      rfl
    refine ⟨(f.remove s.renewal false).1, ?_, ?_⟩
    · show ((Expr.func f).remove s.renewal false).1 = _
      simp only [Expr.remove, ho]
      rfl
    · exact (Func.remove_related (renewal_removes hk) .own f false Removal.allows_false).1

theorem renew_cls (hk : L.Knows s) {c : Class} (hc : c.name.map Ident.site = some σ)
    (hσ : s.late.lookup σ = none) :
    ∃ g, s.renewExpr (.cls c) = .cls g ∧ (c.fold L.fold .own).Same (g.fold L.fold .own) := by
  unfold State.renewExpr
  split
  · exact ⟨c, rfl, .refl _⟩
  · obtain ⟨id, hid, rfl⟩ := Option.map_eq_some_iff.1 hc
    have ho : s.renewal.otherClass c = none := by
      show c.name.bind _ = none
      rw [hid, Option.bind_some, hσ]
      rfl
    refine ⟨(c.remove s.renewal false).1, ?_, ?_⟩
    · show ((Expr.cls c).remove s.renewal false).1 = _
      simp only [Expr.remove, ho]
      rfl
    · exact (Class.remove_related (renewal_removes hk) .own c false Removal.allows_false).1

/-- The value that is inlined refers to all that its declaration refers to. -/
theorem value_refs (hk : L.Knows s) (hat : d.isAt L σ) (hσ : s.late.lookup σ = none)
    (he : d.value? = some e) : (d.piece L).refs ⊆ (s.renewExpr e).references.map Ident.site := by
  cases d with
  | «variable» init =>
    cases he
    have hr : (e.fold L.fold).refs = _ := (renewExpr_same hk e).refs
    exact hr ▸ Expr.fold_related refs_relates (s.renewExpr e)
  | func f =>
    cases he
    obtain ⟨g, hg, hs⟩ := renew_func hk hat.1 hσ
    have hr : (f.fold L.fold .func).refs = _ := (func_own f).2.symm.trans hs.refs
    rw [hg]
    exact hr ▸ Func.fold_related refs_relates .own g
  | cls c =>
    cases he
    obtain ⟨g, hg, hs⟩ := renew_cls hk hat.1 hσ
    have hr : (c.fold L.fold .cls).refs = _ := (cls_own c).2.symm.trans hs.refs
    rw [hg]
    exact hr ▸ Class.fold_related refs_relates .own g

/-- A function or class costs its price where it is visited late. -/
theorem value_price (hat : d.isAt L σ) (hn : d.isNamed = true) (hl : σ ∈ L.late)
    (he : d.value? = some e) : (e.fold L.fold).cost = .const (L.price σ) := by
  cases d with
  | «variable» => cases hn
  | func f =>
    cases he
    rw [L.func_box hat.1 hat.2 hl]
    rfl
  | cls c =>
    cases he
    rw [L.cls_box hat.1 hat.2 hl]
    rfl

/-- Any other value costs what its declaration gives to the name. -/
theorem value_cost (hat : d.isAt L σ) (hl : ¬ (σ ∈ L.late ∧ d.isNamed = true))
    (he : d.value? = some e) (D R : List Site) :
    (e.fold L.fold).cost.val D R = (d.piece L).cost.val D R := by
  cases d with
  | «variable» init =>
    cases he
    rfl
  | func f =>
    cases he
    have hno (τ : Site) (hτ : (Expr.func f).ownSite? = some τ) : τ ∉ L.late := by
      cases hτ.symm.trans hat.1
      exact fun h => hl ⟨h, rfl⟩
    simp only [Expr.fold]
    rw [Visit.unboxed_expr hno, inside_func]
  | cls c =>
    cases he
    have hno (τ : Site) (hτ : (Expr.cls c).ownSite? = some τ) : τ ∉ L.late := by
      cases hτ.symm.trans hat.1
      exact fun h => hl ⟨h, rfl⟩
    simp only [Expr.fold]
    rw [Visit.unboxed_expr hno, inside_cls]

/-! ### The account of an inlining -/

section

variable {id : Ident} {i : BindingId} {b : Binding} {value : Expr}

/-- The name that is inlined is the one that is declared at the site of its origin. -/
theorem Sound.origin (h : L.Sound s) (hi : s.Inlines id i b value) (ho : b.origin.site? = some σ)
    (hdef : s.definition? σ = some d) : ∃ x, (σ, [x]) ∈ L.entries ∧ s.info.decls[x]? = some (some i) := by
  obtain ⟨e, he, heσ, x, hx, hxi⟩ := h.origins hi.binding ho
  obtain ⟨-, y, hy⟩ := h.defined hdef (heσ ▸ L.apart e he)
  cases L.entry_unique he hy heσ
  cases List.mem_singleton.1 hx
  exact ⟨_, hy, hxi⟩

/-- A declaration whose name is inlined is not dead before. -/
theorem Sound.not_dead (h : L.Sound s) (hi : s.Inlines id i b value) (ho : b.origin.site? = some σ)
    (hdef : s.definition? σ = some d) : σ ∉ s.dead := by
  intro hσ
  obtain ⟨x, hx, hxi⟩ := h.origin hi ho hdef
  obtain ⟨e, he, heσ, hu⟩ := h.dead σ hσ
  cases L.entry_unique he hx heσ
  have hu := hu x (List.mem_singleton_self _)
  have hin := hi.inlinable
  rw [State.isUsedAt, hxi, Option.join_some, State.isReferenced_some, hi.binding] at hu
  simp only [State.isInlinable, Bool.and_eq_true, decide_eq_true_eq] at hin
  simp only [Option.any_some, Binding.isReferenced, Bool.and_eq_false_iff, decide_eq_false_iff_not] at hu
  rcases hu with hu | hu
  · omega
  · rw [hin.1.1.1.2] at hu
    cases hu

theorem Sound.inlining (h : L.Sound s) (hi : s.Inlines id i b value) (ho : b.origin.site? = some σ)
    (hdef : s.definition? σ = some d) (hrefs : (d.piece L).refs ⊆ value.references.map Ident.site) :
    L.Sound (s.inlining i b value) := by
  obtain ⟨x, hx, hxi⟩ := h.origin hi ho hdef
  have hmem {τ : Site} (hτ : τ ∈ (s.inlining i b value).dead) : τ = σ ∨ τ ∈ s.dead := by
    have hτ : τ ∈ b.origin.site?.toList ++ s.dead := hτ
    rw [ho] at hτ
    exact List.mem_cons.1 hτ
  have hg : s.Grows (s.inlining i b value) := State.inlining_grows
  refine ⟨fun τ hτ => ?_, fun hj hτ => ?_, h.defined, fun {τ f} hτ hdef' hn => ?_, fun hl => ?_⟩
  · rcases hmem hτ with rfl | hτ
    · refine ⟨_, hx, rfl, fun z hz => ?_⟩
      rw [List.mem_singleton.1 hz, State.isUsedAt, State.inlining_decls, hxi]
      exact State.inlining_unused
    · obtain ⟨e, he, heτ, hu⟩ := h.dead τ hτ
      exact ⟨e, he, heτ, fun z hz => hg.isUsedAt (hu z hz)⟩
  · obtain ⟨c, hc, hco⟩ := hg.origins hj
    rw [hg.decls]
    exact h.origins hc (hco ▸ hτ)
  · rcases hmem hτ with rfl | hτ
    · cases hdef.symm.trans hdef'
      exact fun z hz => List.mem_append_left _ (hrefs hz)
    · exact fun z hz => List.mem_append_right _ (h.buried hτ hdef' hn hz)
  · obtain ⟨hτ, hdef', hn, hu⟩ := h.late hl
    exact ⟨hg.dead hτ, hdef', hn, hu⟩

/-- What is owed for a declaration pays for its value. -/
theorem term_inlining (i : BindingId) (value : Expr) (hk : L.Knows s) (ho : b.origin.site? = some σ) (hdef : s.definition? σ = some d)
    (hat : d.isAt L σ) (hσ : σ ∉ s.dead) (he : d.value? = some e) :
    ((s.renewExpr e).fold L.fold).cost.val (s.inlining i b value).dead [] +
      L.term (s.inlining i b value) σ ≤ L.term s σ := by
  have hdead : σ ∈ (s.inlining i b value).dead := by
    show σ ∈ b.origin.site?.toList ++ s.dead
    rw [ho]
    exact List.mem_cons_self
  have hdef' : (s.inlining i b value).definition? σ = some d := hdef
  have hs : L.value s σ = (d.piece L).cost.val s.dead [] := by
    rw [Ledger.value, hdef]
    rfl
  have hle : L.value (s.inlining i b value) σ ≤ L.value s σ :=
    L.value_le rfl (List.subset_append_right _ _)
  have hcost := (d.piece L).cost.antitone
    (List.subset_append_right b.origin.site?.toList s.dead) (List.Subset.refl [])
  rw [← (renewExpr_same hk e).cost, term, term, if_pos hdead, if_neg hσ, hdef', Option.any_some]
  by_cases hl : σ ∈ L.late ∧ d.isNamed = true
  · rw [if_pos hl, value_price hat hl.2 hl.1 he, Cost.const_val]
    omega
  · rw [if_neg hl, value_cost hat hl he]
    show (((d.piece L).cost.val (b.origin.site?.toList ++ s.dead) [] : Nat) : Int) + 0 ≤ _
    omega

/-- The value that takes the place of a reference refers to all that its declaration refers to. -/
theorem Sound.inlined_refs (h : L.Sound s) (hk : L.Knows s) (hi : s.Inlines id i b value) (ho : b.origin.site? = some σ)
    (hdef : s.definition? σ = some d) (he : d.value? = some e) (hv : value = s.renewExpr e) :
    (d.piece L).refs ⊆ value.references.map Ident.site := by
  obtain ⟨x, hx, -⟩ := h.origin hi ho hdef
  have hlate : s.late.lookup σ = none := by
    cases hl : s.late.lookup σ with
    | none => rfl
    | some f => exact absurd (h.late hl).1 (h.not_dead hi ho hdef)
  exact hv ▸ value_refs hk (h.defined hdef (L.apart _ hx)).1 hlate he

/-- The reference is not inside of the value itself. -/
theorem Sound.inlined_outside (h : L.Sound s) (hk : L.Knows s) (hi : s.Inlines id i b value) (ho : b.origin.site? = some σ)
    (hdef : s.definition? σ = some d) (he : d.value? = some e) (hv : value = s.renewExpr e) : id.site ∉ (d.piece L).refs :=
  fun hmem => by
    obtain ⟨r, hr, hrs⟩ := List.mem_map.1 (h.inlined_refs hk hi ho hdef he hv hmem)
    exact hi.references r hr hrs

/-- The state pays for the value that takes the place of a reference. -/
theorem Visit.inlines {a : Piece} (hrefs : a.refs = [id.site]) (hcost : ∀ D R, L.tariff.unit ≤ a.cost.val D R)
    (h : s.Inlines id i b value) : L.Visit a s (value.fold L.fold) (s.inlining i b value) := by
  refine ⟨State.inlining_grows, fun hr hb => ?_⟩
  have hk : L.Knows s := hr.toSound.knows (hb.of_grows State.inlining_grows)
  obtain ⟨σ, d, e, ho, hdef, he, hv⟩ := State.valueOf?_spec h.valueOf
  have ho : b.origin.site? = some σ := ho ▸ d.origin_site? σ
  obtain ⟨x, hx, -⟩ := hr.toSound.origin h ho hdef
  have hat := (hr.defined hdef (L.apart _ hx)).1
  have hσ : σ ∉ s.dead := hr.toSound.not_dead h ho hdef
  have hsub := hr.toSound.inlined_refs hk h ho hdef he hv
  have hblock : ¬ a.refs ⊆ (d.piece L).refs := by
    rw [hrefs, List.cons_subset]
    exact fun hmem => hr.toSound.inlined_outside hk h ho hdef he hv hmem.1
  have hdead : (s.inlining i b value).dead = σ :: s.dead := by
    show b.origin.site?.toList ++ s.dead = _
    rw [ho]
    rfl
  refine ⟨hr.toSound.inlining h ho hdef hsub, fun _ _ => rfl, fun _ _ => rfl, fun τ _ href hτ => ?_,
    fun hm => ?_, fun x hx => ?_, fun X hX => ?_⟩
  · rw [hdead, List.mem_cons] at hτ
    refine hτ.resolve_left ?_
    rintro rfl
    exact hblock (href d hdef)
  · rw [hrefs, List.cons_subset] at hm
    exact absurd hm.1 h.moved
  · rw [value.fold_outer L] at hx
    cases hx
  · have hX' : σ ∉ X := fun hmem => hblock ((hX σ hmem).2 d hdef)
    have hJ : σ ∈ L.dead := hb.dead σ (hdead ▸ List.mem_cons_self) (List.mem_map_of_mem hx)
    have hst : L.stake (insert σ X) (s.inlining i b value) ≤ L.stake (insert σ X) s :=
      L.stake_le fun τ _ => L.term_le rfl (List.subset_append_right _ _)
    have hterm := term_inlining i value hk ho hdef hat hσ he
    have hone := hcost s.dead s.trimmed
    have hch : L.spent (s.inlining i b value) = L.spent s + L.tariff.unit := L.spent_succ rfl
    rw [Accounts, L.stake_insert hJ hX', L.stake_insert hJ hX', hch, hv]
    rw [hv] at hterm hst
    omega

/-- A reference pays for a change. -/
theorem unit_le_reference (id : Ident) {D R : List Site} :
    L.tariff.unit ≤ ((Expr.ident id).fold L.fold).cost.val D R :=
  Nat.le_add_right_of_le (Nat.le_add_right _ _)

/-- A note may be made before a visit. -/
theorem Visit.noted {a b : Piece} {s u : State} {c : Bool} (hs : s.Settles (s.noting c))
    (h : L.Visit a (s.noting c) b u) : L.Visit a s b u := by
  refine h.before hs.grows fun hr _ => ⟨?_, fun _ hσ => .inl hσ, fun _ _ => rfl, fun _ _ => rfl, fun _ => ?_, ?_⟩
  · exact
      { hr.toSound.settles hs fun σ hσ => .inl hσ with
        nodup := hr.nodup
        entries := hr.entries
        elems := hr.elems
        unboxed := hr.unboxed
        contents := hr.contents }
  · exact Int.le_refl _
  · exact Nat.le_refl _

theorem Visit.inlineExpr (id : Ident) (s : State) :
    L.Visit ((Expr.ident id).fold L.fold) s (((inline id s).1.getD (.ident id)).fold L.fold)
      (inline id s).2 := by
  obtain ⟨c, hs, h | ⟨i, b, value, hi, h⟩⟩ := State.inline_cases id s
  · rw [h]
    exact noted hs (idle fun _ _ => rfl)
  · rw [h]
    exact noted hs (inlines rfl (fun _ _ => unit_le_reference id) hi)

theorem Visit.inlineProperty (id : Ident) (s : State) :
    L.Visit ((Property.short id none).fold L.fold) s ((Property.inlined id (inline id s).1).fold L.fold)
      (inline id s).2 := by
  obtain ⟨c, hs, h | ⟨i, b, value, hi, h⟩⟩ := State.inline_cases id s
  · rw [h]
    exact noted hs (idle fun _ _ => rfl)
  · rw [h]
    have hv : (Property.inlined id (some value)).fold L.fold = value.fold L.fold :=
      L.fold_lawful.empty_left _
    rw [hv]
    exact noted hs (inlines rfl (fun _ _ => Nat.le_add_right_of_le (Nat.le_add_right _ _)) hi)

end

end Ledger

end Deadwood
