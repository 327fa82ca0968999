import Deadwood.Proofs.Renumbering
import Deadwood.Scope.Resolve
import Mathlib.Data.List.Basic

/-!
# The scopes that are kept

When scopes are left out of a program, those that are kept get the numbers of their places among all that
are kept.  `Matches` says that two tables differ in nothing but this; here is what it takes of every way in
which resolution changes a table.
-/

namespace Deadwood

/-! ### Numbers -/

/-- The number of a mark among the marks that are kept. -/
def numberIn (K : List Mark) (m : Mark) : Mark := if m = 0 then 0 else K.idxOf m + 1

/-- Whether a mark is kept; the mark that stands for no scope always is. -/
def KeptIn (K : List Mark) (m : Mark) : Prop := m = 0 ∨ m ∈ K

section

variable {K L : List Mark} {m n : Mark}

@[simp] theorem numberIn_zero : numberIn K 0 = 0 := rfl

theorem numberIn_of_ne (h : m ≠ 0) : numberIn K m = K.idxOf m + 1 := if_neg h

theorem numberIn_eq_zero (K : List Mark) (m : Mark) : numberIn K m = 0 ↔ m = 0 := by
  by_cases h : m = 0
  · simp [h]
  · simp [numberIn_of_ne h, h]

theorem numberIn_injective (hm : KeptIn K m) (h : numberIn K m = numberIn K n) : m = n := by
  by_cases h0 : m = 0
  · rw [h0, numberIn_zero, eq_comm, numberIn_eq_zero] at h
    rw [h0, h]
  · have h0' : n ≠ 0 := fun hn0 => h0 ((numberIn_eq_zero K m).1 (by rw [h, hn0, numberIn_zero]))
    rw [numberIn_of_ne h0, numberIn_of_ne h0', Nat.add_right_cancel_iff] at h
    exact (List.idxOf_inj (hm.resolve_left h0)).1 h

theorem KeptIn.mono (h : KeptIn K m) (hL : K <+: L) : KeptIn L m := h.imp id fun hm => hL.subset hm

/-- Keeping more scopes does not change the numbers of the ones before. -/
theorem KeptIn.numberIn_eq (h : KeptIn K m) (hL : K <+: L) : numberIn L m = numberIn K m := by
  rcases h with rfl | hm
  · rfl
  · obtain ⟨_, rfl⟩ := hL
    rw [numberIn, numberIn, List.idxOf_append_of_mem hm]

theorem numberIn_last (h0 : m ≠ 0) (h : m ∉ K) : numberIn (K ++ [m]) m = K.length + 1 := by
  rw [numberIn_of_ne h0, List.idxOf_append_of_notMem h, List.idxOf_cons_self, Nat.add_zero]

theorem numberIn_first (h : K.head? = some 1) : numberIn K 1 = 1 := by
  obtain ⟨_, rfl⟩ := List.head?_eq_some_iff.1 h
  rw [numberIn_of_ne Nat.one_ne_zero, List.idxOf_cons_self]

theorem numberIn_pos (h : m ≠ 0) : 0 < numberIn K m :=
  Nat.pos_of_ne_zero fun h0 => h ((numberIn_eq_zero K m).1 h0)

/-- Two scopes stand at one place before if they do after; no scope stands for the first one. -/
theorem numberIn_place (h : K.head? = some 1) (hK : 0 ∉ K) (hm : KeptIn K m) (hn : n ∈ K) :
    numberIn K m - 1 = numberIn K n - 1 ↔ m - 1 = n - 1 := by
  have hne {k : Mark} (hk : k ∈ K) : k ≠ 0 := fun h0 => hK (h0 ▸ hk)
  have hplace {k : Mark} (hk : k ∈ K) : numberIn K k - 1 = numberIn K n - 1 ↔ k - 1 = n - 1 := by
    constructor
    · intro he
      rw [numberIn_injective (.inr hk) (Nat.sub_one_cancel (numberIn_pos (hne hk)) (numberIn_pos (hne hn)) he)]
    · intro he
      rw [Nat.sub_one_cancel (Nat.pos_of_ne_zero (hne hk)) (Nat.pos_of_ne_zero (hne hn)) he]
  rcases hm with rfl | hm
  · have hone := hplace (List.mem_of_head? h)
    rwa [numberIn_first h] at hone
  · exact hplace hm

end

/-! ### Renumbered parts -/

section

variable {φ ψ : Mark → Mark}

theorem Binding.renumber_congr {b : Binding} (h : φ b.scope = ψ b.scope) (h' : φ b.declScope = ψ b.declScope) :
    b.renumber φ = b.renumber ψ := by
  rw [Binding.renumber, Binding.renumber, h, h']

theorem Scope.renumber_congr {sc : Scope} (h : ∀ m ∈ sc.path, φ m = ψ m) : sc.renumber φ = sc.renumber ψ := by
  rw [Scope.renumber, Scope.renumber, h _ List.mem_cons_self,
    List.map_congr_left fun m hm => h m (List.mem_cons_of_mem _ hm)]

/-- A change that commutes with a function on the elements. -/
theorem map_modify {α β : Type} (xs : Array α) (i : Nat) {f : α → α} {g : β → β} (k : α → β)
    (h : ∀ x, k (f x) = g (k x)) : (xs.modify i f).map k = (xs.map k).modify i g := by
  apply Array.ext_getElem?
  intro j
  rw [Array.getElem?_map, Array.getElem?_modify, Array.getElem?_modify, Array.getElem?_map]
  split
  · rw [Option.map_map, Option.map_map]
    exact congrArg (fun k => Option.map k _) (funext h)
  · rfl

end

/-! ### Tables -/

/-- The second table has the scopes of the first one that are kept, and says the same of the names. -/
structure Matches (K : List Mark) (info info' : Info) : Prop where
  decls : info'.decls = info.decls
  bindings : info'.bindings = info.bindings.map (Binding.renumber (numberIn K))
  refs : info'.refs = info.refs.map (Option.map fun r => (r.1, numberIn K r.2))
  scopes : ∀ m ∈ K, info'.scope? (numberIn K m) = (info.scope? m).map (Scope.renumber (numberIn K))
  path : ∀ m ∈ K, ∀ sc ∈ info.scope? m, ∀ n ∈ sc.path, n ∈ K
  held : ∀ i, ∀ b ∈ info.binding? i, KeptIn K b.scope ∧ KeptIn K b.declScope
  around : ∀ site : Site, ∀ r ∈ info.refs[site]?.join, KeptIn K r.2

namespace Matches

variable {K : List Mark} {info info' : Info}

/-- What is asked of the one table has the same answer in the other one. -/
def renumbering (h : Matches K info info') : Renumbering where
  info
  info'
  number := numberIn K
  kept := KeptIn K
  number_eq_zero := numberIn_eq_zero K
  injective hm _ := numberIn_injective hm
  decls := h.decls
  bindings := h.bindings
  refs := h.refs
  scopes hm := by
    rcases hm with rfl | hm
    · rfl
    · exact h.scopes _ hm
  path hm hsc n hn := by
    rcases hm with rfl | hm
    · cases hsc
    · exact .inr (h.path _ hm _ hsc n hn)
  held hb := h.held _ _ hb
  around {id m} hm := by
    obtain ⟨r, hr, rfl⟩ := Option.map_eq_some_iff.1 hm
    exact h.around _ _ hr

theorem modifyBinding (h : Matches K info info') (i : BindingId) {g : Binding → Binding}
    (hg : ∀ b, (g b).renumber (numberIn K) = g (b.renumber (numberIn K)))
    (hs : ∀ b, (g b).scope = b.scope ∧ (g b).declScope = b.declScope) :
    Matches K (info.modifyBinding i g) (info'.modifyBinding i g) :=
  { h with
    bindings := by
      rw [Info.modifyBinding, Info.modifyBinding, h.bindings]
      exact (map_modify _ _ _ hg).symm
    held := fun j b hb => by
      rw [Info.binding?, Info.modifyBinding, Array.getElem?_modify] at hb
      split at hb
      · obtain ⟨c, hc, rfl⟩ := Option.map_eq_some_iff.1 hb
        rw [(hs c).1, (hs c).2]
        exact h.held j c hc
      · exact h.held j b hb }

theorem pushBinding (h : Matches K info info') {b : Binding} (hb : KeptIn K b.scope ∧ KeptIn K b.declScope) :
    Matches K { info with bindings := info.bindings.push b }
      { info' with bindings := info'.bindings.push (b.renumber (numberIn K)) } :=
  { h with
    bindings := by rw [h.bindings, Array.map_push]
    held := fun i c hc => by
      simp only [Info.binding?, Array.getElem?_push, Option.mem_def] at hc
      split at hc
      · rw [← Option.some.inj hc]
        exact hb
      · exact h.held i c hc }

/-- The second table has as many bindings. -/
theorem size_bindings (h : Matches K info info') : info'.bindings.size = info.bindings.size := by
  rw [h.bindings, Array.size_map]

theorem setRef (h : Matches K info info') (site : Site) (b : BindingId) {m : Mark} (hm : KeptIn K m) :
    Matches K { info with refs := info.refs.setIfInBounds site (some (b, m)) }
      { info' with refs := info'.refs.setIfInBounds site (some (b, numberIn K m)) } :=
  { h with
    refs := by rw [h.refs, Array.map_setIfInBounds, Option.map_some]
    around := fun j r hr => by
      simp only [Array.getElem?_setIfInBounds, Option.mem_def] at hr
      split at hr
      · split at hr
        · rw [← Option.some.inj hr]
          exact hm
        · cases hr
      · exact h.around j r hr }

/-- Sites that nothing refers from yet. -/
theorem withSites (h : Matches K info info') (decls : Array (Option BindingId)) (n : Nat) :
    Matches K { info with decls, refs := Array.replicate n none }
      { info' with decls, refs := Array.replicate n none } :=
  { h with
    decls := rfl
    refs := by rw [Array.map_replicate, Option.map_none]
    around := fun j r hr => by
      simp only [Array.getElem?_replicate, Option.mem_def] at hr
      split at hr <;> cases hr }

theorem modifyScope (h : Matches K info info') (hfirst : K.head? = some 1) (hK : 0 ∉ K) {m : Mark}
    (hm : KeptIn K m) {g : Scope → Scope}
    (hg : ∀ sc, (g sc).renumber (numberIn K) = g (sc.renumber (numberIn K)))
    (hpath : ∀ sc, (g sc).path = sc.path) :
    Matches K { info with scopes := info.scopes.modify (m - 1) g }
      { info' with scopes := info'.scopes.modify (numberIn K m - 1) g } :=
  { h with
    scopes := fun n hn => by
      have hn0 : n ≠ 0 := fun h0 => hK (h0 ▸ hn)
      have hpos : numberIn K n ≠ 0 := fun h0 => hn0 ((numberIn_eq_zero K n).1 h0)
      have hs := h.scopes n hn
      simp only [Info.scope?, if_neg hn0, if_neg hpos] at hs ⊢
      rw [Array.getElem?_modify, Array.getElem?_modify, hs]
      simp only [numberIn_place hfirst hK hm hn]
      split
      · simp only [Option.map_map]
        exact congrArg (fun k => Option.map k _) (funext fun sc => (hg sc).symm)
      · rfl
    path := fun n hn sc hsc k hk => by
      have hn0 : n ≠ 0 := fun h0 => hK (h0 ▸ hn)
      simp only [Info.scope?, if_neg hn0, Array.getElem?_modify, Option.mem_def] at hsc
      split at hsc
      · obtain ⟨c, hc, rfl⟩ := Option.map_eq_some_iff.1 hsc
        rw [hpath] at hk
        exact h.path n hn c (by rw [Info.scope?, if_neg hn0]; exact hc) k hk
      · exact h.path n hn sc (by rw [Info.scope?, if_neg hn0]; exact hsc) k hk }

/-- Scopes that are not kept make no difference. -/
theorem skipScopes (h : Matches K info info') (hK : ∀ m ∈ K, 0 < m ∧ m ≤ info.scopes.size) (more : Array Scope) :
    Matches K { info with scopes := info.scopes ++ more } info' := by
  have hscope : ∀ m ∈ K, Info.scope? { info with scopes := info.scopes ++ more } m = info.scope? m := by
    intro m hm
    have hm0 : m ≠ 0 := Nat.pos_iff_ne_zero.1 (hK m hm).1
    have hlt : m - 1 < info.scopes.size := Nat.sub_one_lt_of_le (hK m hm).1 (hK m hm).2
    rw [Info.scope?, Info.scope?, if_neg hm0, if_neg hm0]
    exact Array.getElem?_append_left hlt
  exact { h with
    scopes := fun m hm => by rw [hscope m hm]; exact h.scopes m hm
    path := fun m hm sc hsc => h.path m hm sc (by rwa [hscope m hm] at hsc) }

/-- A new scope that is kept. -/
theorem pushScope (h : Matches K info info') (hK : ∀ m ∈ K, 0 < m ∧ m ≤ info.scopes.size)
    (hsize : info'.scopes.size = K.length) (sc : Scope) (hmark : sc.mark = info.scopes.size + 1)
    (houter : ∀ m ∈ sc.outer, m ∈ K) :
    Matches (K ++ [info.scopes.size + 1]) { info with scopes := info.scopes.push sc }
      { info' with scopes := info'.scopes.push (sc.renumber (numberIn (K ++ [info.scopes.size + 1]))) } := by
  have hnew : info.scopes.size + 1 ∉ K := fun hm => Nat.not_succ_le_self _ (hK _ hm).2
  have hpre : K <+: K ++ [info.scopes.size + 1] := List.prefix_append ..
  have hlast := numberIn_last (Nat.succ_ne_zero info.scopes.size) hnew
  have hold : ∀ m ∈ K, Info.scope? { info with scopes := info.scopes.push sc } m = info.scope? m := by
    intro m hm
    have hm0 : m ≠ 0 := Nat.pos_iff_ne_zero.1 (hK m hm).1
    have hlt : m - 1 ≠ info.scopes.size := Nat.ne_of_lt (Nat.sub_one_lt_of_le (hK m hm).1 (hK m hm).2)
    rw [Info.scope?, Info.scope?, if_neg hm0, if_neg hm0]
    exact Array.getElem?_push.trans (if_neg hlt)
  have hnewest : Info.scope? { info with scopes := info.scopes.push sc } (info.scopes.size + 1) = some sc := by
    rw [Info.scope?, if_neg (Nat.succ_ne_zero _)]
    exact Array.getElem?_push.trans (if_pos rfl)
  exact {
    decls := h.decls
    bindings := by
      show info'.bindings = info.bindings.map _
      rw [h.bindings]
      refine Array.ext_getElem? fun i => ?_
      rw [Array.getElem?_map, Array.getElem?_map]
      refine Option.map_congr fun b hb => ?_
      have hb := h.held i b hb
      exact Binding.renumber_congr (hb.1.numberIn_eq hpre).symm (hb.2.numberIn_eq hpre).symm
    refs := by
      show info'.refs = info.refs.map _
      rw [h.refs]
      refine Array.ext_getElem? fun i => ?_
      rw [Array.getElem?_map, Array.getElem?_map]
      refine Option.map_congr fun r hr => Option.map_congr fun q hq => ?_
      have hq := h.around i q (by rw [hr]; exact hq)
      rw [hq.numberIn_eq hpre]
    scopes := fun m hm => by
      rcases List.mem_append.1 hm with hm | hm
      · have hm0 : m ≠ 0 := Nat.pos_iff_ne_zero.1 (hK m hm).1
        have hlt : K.idxOf m ≠ info'.scopes.size := by
          rw [hsize]
          exact Nat.ne_of_lt (List.idxOf_lt_length_of_mem hm)
        rw [hold m hm, KeptIn.numberIn_eq (.inr hm) hpre]
        calc
          _ = info'.scope? (numberIn K m) := by
            rw [numberIn_of_ne hm0, Info.scope?, Info.scope?, if_neg (Nat.succ_ne_zero _), if_neg (Nat.succ_ne_zero _)]
            exact Array.getElem?_push.trans (if_neg hlt)
          _ = (info.scope? m).map (Scope.renumber (numberIn K)) := h.scopes m hm
          _ = _ := Option.map_congr fun c hc => Scope.renumber_congr fun n hn =>
            (KeptIn.numberIn_eq (.inr (h.path m hm c hc n hn)) hpre).symm
      · rw [List.mem_singleton.1 hm, hnewest, hlast, ← hsize, Info.scope?, if_neg (Nat.succ_ne_zero _)]
        exact Array.getElem?_push.trans (if_pos rfl)
    path := fun m hm c hc n hn => by
      rcases List.mem_append.1 hm with hm | hm
      · rw [hold m hm] at hc
        exact List.mem_append_left _ (h.path m hm c hc n hn)
      · rw [List.mem_singleton.1 hm, hnewest] at hc
        cases hc
        rcases List.mem_cons.1 hn with rfl | hn
        · rw [hmark]
          exact List.mem_append_right _ List.mem_cons_self
        · exact List.mem_append_left _ (houter n hn)
    held := fun i b hb => ⟨(h.held i b hb).1.mono hpre, (h.held i b hb).2.mono hpre⟩
    around := fun site r hr => (h.around site r hr).mono hpre }

end Matches

end Deadwood
