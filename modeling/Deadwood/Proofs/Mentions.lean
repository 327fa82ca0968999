import Deadwood.Proofs.Digraphs
import Deadwood.Proofs.Fold
import Deadwood.Scope.Usage

/-!
# Mentions of bindings

The mentions of a resolved program are its references to bindings, each with the declaration that it stands
in.  The usage graph adds them up: the weight of an edge is the number of mentions that it stands for.
-/

namespace Deadwood

/-- A reference to a binding. -/
structure Mention where
  target : BindingId
  /-- The binding that is declared by the innermost declaration of a function or class around the reference;
  none outside of all of them. -/
  source : Option BindingId
deriving DecidableEq, Repr, Inhabited

namespace Mention

/-- The mention as it stands inside of a declaration of the given binding. -/
def within (b : Option BindingId) (m : Mention) : Mention := { m with source := m.source <|> b }

@[simp] theorem within_target (b : Option BindingId) (m : Mention) : (m.within b).target = m.target := rfl

@[simp] theorem within_none (m : Mention) : m.within none = m := by
  cases m with
  | mk target source => cases source <;> rfl

theorem map_within_none (ms : List Mention) : ms.map (within none) = ms :=
  (List.map_congr_left fun m _ => m.within_none).trans (List.map_id ms)

@[simp] theorem within_some_within (b : BindingId) (source : Option BindingId) (m : Mention) :
    (m.within (some b)).within source = m.within (some b) := by
  cases m with
  | mk target source => cases source <;> rfl

end Mention

/-- Collects the mentions.  A declaration is that of a function or class, or of a name, parameter or element
of a pattern that is given a function or class.  A function or class without a name, which stands only at the
top level after `export default`, declares no binding. -/
def Fold.mentions (info : Info) : Fold (List Mention) where
  empty := []
  append := (· ++ ·)
  ident _ id := (info.bindingOf? id).toList.map fun b => ⟨b, none⟩
  declarator d ms := ms.map (Mention.within (Usage.named? info d))
  funcDecl f ms := ms.map (Mention.within (f.name.bind info.declaration?))
  clsDecl c ms := ms.map (Mention.within (c.name.bind info.declaration?))

/-- The mentions of a resolved program, in the order they are written. -/
def Program.mentions (p : Program) (info : Info) : List Mention := p.fold (Fold.mentions info)

namespace Usage

/-- The number of references that an edge stands for. -/
def weight (u : Usage) (a b : BindingId) : Nat := (u.graph.weight? a b).getD 0

/-- `v` is `u` with the given mentions added. -/
structure Adds (ms : List Mention) (u v : Usage) : Prop where
  wellFormed : u.graph.WellFormed → v.graph.WellFormed
  entries : ∀ b, b ∈ v.entries ↔ b ∈ u.entries ∨ ⟨b, none⟩ ∈ ms
  weight : ∀ a b, v.weight a b = u.weight a b + ms.count ⟨b, some a⟩
  weighs : (∀ a b, (u.graph.weight? a b).isSome → 0 < u.weight a b) →
    ∀ a b, (v.graph.weight? a b).isSome → 0 < v.weight a b

variable {ms ms' : List Mention} {u v w : Usage}

namespace Adds

theorem refl (u : Usage) : Adds [] u u where
  wellFormed h := h
  entries b := by simp
  weight a b := rfl
  weighs h := h

theorem trans (h : Adds ms u v) (h' : Adds ms' v w) : Adds (ms ++ ms') u w where
  wellFormed hu := h'.wellFormed (h.wellFormed hu)
  entries b := by rw [h'.entries, h.entries, List.mem_append, or_assoc]
  weight a b := by rw [h'.weight, h.weight, List.count_append, Nat.add_assoc]
  weighs hu := h'.weighs (h.weighs hu)

/-- Naming a binding adds no mention. -/
theorem define (u : Usage) (b : BindingId) : Adds [] u (u.define b) where
  wellFormed h := h.addNode b
  entries b := by simp [Usage.define]
  weight a c := by simp [Usage.weight, Usage.define, Digraph.weight?_addNode]
  weighs h a c hac := by
    rw [Usage.define, Digraph.weight?_addNode] at hac
    have hpos := h a c hac
    rwa [Usage.weight, Usage.define, Digraph.weight?_addNode]

theorem refer (source : Option BindingId) (b : BindingId) (u : Usage) : Adds [⟨b, source⟩] u (u.refer source b) := by
  cases source with
  | none => exact {
      wellFormed := fun h => h
      entries := fun c => by simp [Usage.refer, or_comm]
      weight := fun a c => by simp [Usage.weight, Usage.refer]
      weighs := fun h => h }
  | some a => exact {
      wellFormed := fun h => h.addEdge a b _
      entries := fun c => by simp [Usage.refer]
      weight := fun c d => by
        simp only [Usage.weight, Usage.refer, Digraph.weight?_addEdge, List.count_singleton, beq_iff_eq,
          Mention.mk.injEq, Option.some.injEq]
        by_cases h : a = c ∧ b = d
        · obtain ⟨rfl, rfl⟩ := h
          simp
        · rw [if_neg fun h' => h ⟨h'.1.symm, h'.2.symm⟩, if_neg fun h' => h ⟨h'.2, h'.1⟩, Nat.add_zero]
      weighs := fun h c d hcd => by
        simp only [Usage.weight, Usage.refer, Digraph.weight?_addEdge] at hcd ⊢
        by_cases hab : c = a ∧ d = b
        · rw [if_pos hab]
          exact Nat.succ_pos _
        · rw [if_neg hab] at hcd ⊢
          exact h c d hcd }

end Adds

/-- What a builder adds are the given mentions, inside of what it is in itself. -/
def Counts (f : Builder) (ms : List Mention) : Prop :=
  ∀ source u v, f source u = some v → Adds (ms.map (Mention.within source)) u v

theorem Counts.within {f : Builder} (h : Counts f ms) (b : Option BindingId) :
    Counts (within b f) (ms.map (Mention.within b)) := by
  intro source u v huv
  cases b with
  | none =>
    rw [Mention.map_within_none]
    exact h source u v huv
  | some b =>
    have hmap : (ms.map (Mention.within (some b))).map (Mention.within source) = ms.map (Mention.within (some b)) := by
      rw [List.map_map]
      exact List.map_congr_left fun m _ => m.within_some_within b source
    rw [hmap]
    exact (Adds.define u b).trans (h (some b) (u.define b) v huv)

/-- The usage adds up the mentions of every piece of syntax. -/
theorem counts_relates (info : Info) : (fold info).Relates (Fold.mentions info) Counts where
  empty source u v huv := by
    cases huv
    exact .refl u
  append {f ms g ms'} h h' source u w huw := by
    obtain ⟨v, huv, hvw⟩ := Option.bind_eq_some_iff.1 huw
    rw [show (Fold.mentions info).append ms ms' = ms ++ ms' from rfl, List.map_append]
    exact (h source u v huv).trans (h' source v w hvw)
  ident role id source u v huv := by
    simp only [fold] at huv
    simp only [Fold.mentions]
    cases hid : info.bindingOf? id with
    | none =>
      rw [hid] at huv
      cases huv
      exact .refl u
    | some b =>
      rw [hid] at huv
      cases huv
      exact .refer source b u
  expr _ _ _ _ h := h
  stmt _ _ _ _ h := h
  declarator kind site target init h := h.within _
  element kind site target init h := h.within _
  funcDecl f h := h.within _
  clsDecl c h := h.within _
  property _ _ _ h := h
  hole source u v huv := nomatch huv

end Usage

/-- The usage of a program adds up its mentions. -/
theorem Program.usage_adds {p : Program} {info : Info} {u : Usage} (h : p.usage? info = some u) :
    Usage.Adds (p.mentions info) .empty u := by
  have hadds := Program.fold_related (Usage.counts_relates info) p none .empty u h
  rwa [Mention.map_within_none] at hadds

namespace Usage

section

variable {info : Info} {b : BindingId}

theorem leads_iff (h : Adds ms .empty u) {a b : BindingId} : u.graph.Leads a b ↔ ⟨b, some a⟩ ∈ ms := by
  have hweight : u.weight a b = ms.count ⟨b, some a⟩ := (h.weight a b).trans (Nat.zero_add _)
  have hempty : ∀ a b, (Usage.empty.graph.weight? a b).isSome → 0 < Usage.empty.weight a b := nofun
  rw [(h.wellFormed .empty).leads_iff_weight?]
  constructor
  · intro hab
    have hpos := h.weighs hempty a b hab
    rw [hweight] at hpos
    exact List.count_pos_iff.1 hpos
  · intro hm
    have hpos := List.count_pos_iff.2 hm
    rw [← hweight] at hpos
    by_contra hnone
    rw [weight, Option.not_isSome_iff_eq_none.1 hnone] at hpos
    exact Nat.lt_irrefl 0 hpos

/-- The mentions of `b` in the declarations of different bindings, one after another. -/
theorem sum_count (ms : List Mention) (b : BindingId) {sources : List BindingId} (hs : sources.Nodup) :
    sources.foldr (fun a n => ms.count ⟨b, some a⟩ + n) 0 =
      ms.countP fun m => m.target = b ∧ ∃ a ∈ sources, m.source = some a := by
  induction sources with
  | nil => simp
  | cons a sources ih =>
    have hcons := List.nodup_cons.1 hs
    rw [List.foldr_cons, ih hcons.2, List.count,
      List.countP_eq_countP_filter_add ms (fun m => m.target = b ∧ ∃ c ∈ a :: sources, m.source = some c)
        fun m => m = ⟨b, some a⟩, List.countP_filter, List.countP_filter]
    congr 1
    · refine List.countP_congr fun m _ => ?_
      simp only [beq_iff_eq, Bool.and_eq_true, decide_eq_true_eq]
      constructor
      · rintro rfl
        exact ⟨⟨rfl, a, List.mem_cons_self, rfl⟩, rfl⟩
      · exact fun h => h.2
    · refine List.countP_congr fun m _ => ?_
      simp only [Bool.and_eq_true, decide_eq_true_eq, Bool.not_eq_eq_eq_not, Bool.not_true, decide_eq_false_iff_not]
      constructor
      · rintro ⟨hb, c, hc, hm⟩
        refine ⟨⟨hb, c, List.mem_cons_of_mem _ hc, hm⟩, ?_⟩
        rintro rfl
        cases hm
        exact hcons.1 hc
      · rintro ⟨⟨hb, c, hc, hm⟩, hne⟩
        refine ⟨hb, c, (List.mem_cons.1 hc).resolve_left ?_, hm⟩
        rintro rfl
        exact hne (by cases m; simp_all)

/-- What makes a binding closed, where its references are its mentions. -/
theorem isClosed_iff (h : Adds ms .empty u) {members : List BindingId}
    (href : ∀ d, info.binding? b = some d → d.references = ms.countP (·.target = b)) :
    u.isClosed info members b ↔ (∃ d, info.binding? b = some d ∧ d.isExported = false) ∧
      ∀ m ∈ ms, m.target = b → ∃ a ∈ members, m.source = some a := by
  have hentry : b ∈ u.entries ↔ ⟨b, none⟩ ∈ ms := (h.entries b).trans (or_iff_right List.not_mem_nil)
  have hincoming : ∀ a, a ∈ u.graph.incoming b ↔ ⟨b, some a⟩ ∈ ms := fun a =>
    ((h.wellFormed .empty).mem_incoming a b).trans (leads_iff h)
  have hnodup : (u.graph.incoming b).Nodup := (h.wellFormed .empty).incoming_nodup b
  rw [isClosed]
  cases hb : info.binding? b with
  | none => simp
  | some d =>
    have hsum : (u.graph.incoming b).foldr (fun a n => (u.graph.weight? a b).getD 0 + n) 0 =
        ms.countP fun m => m.target = b ∧ ∃ a ∈ u.graph.incoming b, m.source = some a := by
      rw [← sum_count ms b hnodup]
      congr 1
      funext a n
      exact congrArg (· + n) ((h.weight a b).trans (Nat.zero_add _))
    simp only [Bool.and_eq_true, Bool.not_eq_eq_eq_not, Bool.not_true, List.contains_eq_mem, decide_eq_false_iff_not,
      List.all_eq_true, decide_eq_true_eq, hsum, href d hb, hentry, Option.some.injEq, exists_eq_left']
    constructor
    · rintro ⟨⟨⟨hnone, hhidden⟩, hall⟩, -⟩
      refine ⟨hhidden, fun m hm hmb => ?_⟩
      subst hmb
      obtain ⟨target, source⟩ := m
      cases source with
      | none => exact absurd hm hnone
      | some a => exact ⟨a, hall a ((hincoming a).2 hm), rfl⟩
    · rintro ⟨hhidden, hall⟩
      refine ⟨⟨⟨fun hm => ?_, hhidden⟩, fun a ha => ?_⟩, ?_⟩
      · obtain ⟨a, -, ha⟩ := hall _ hm rfl
        cases ha
      · obtain ⟨c, hc, hac⟩ := hall _ ((hincoming a).1 ha) rfl
        cases hac
        exact hc
      · refine List.countP_congr fun m hm => ?_
        simp only [decide_eq_true_eq]
        refine ⟨fun hmb => hmb.1, fun hmb => ⟨hmb, ?_⟩⟩
        obtain ⟨a, -, ha⟩ := hall m hm hmb
        refine ⟨a, (hincoming a).2 ?_, ha⟩
        rw [← hmb, ← ha]
        exact hm

end

end Usage

end Deadwood
