import Deadwood.Proofs.Tables
import Deadwood.Proofs.Uses

/-!
# Watching a binding

The references to a binding that is watched are counted out no faster than its uses go.  This holds of a pass as
long as nothing that is inlined in the end stands in what has been discarded before: all references to such a
declaration are inside of what its scope covers, so it has been inlined when the pass has gone through that.
-/

namespace Deadwood

open Elimination

namespace Elimination.State

variable {s t u : State} {i j : BindingId}

/-! ### What is never undone -/

/-- The scope of a binding does not have it any more. -/
def Unbound (s : State) (j : BindingId) : Prop := ∀ c, s.info.binding? j = some c → s.info.isBound j c = false

/-- What is sure of a binding whose name has been inlined. -/
def Chosen (s : State) (j : BindingId) : Prop :=
  ∀ c, s.info.binding? j = some c → c.isExported = false ∧ c.kind.isFixed = false ∧
    ∀ σ, c.origin = .declarator σ → σ ∈ s.listed ∧ ¬ (c.kind = .var ∧ c.declScope ≠ c.scope)

/-- A pass leads from `s` to `t`, whatever it is that it goes through. -/
structure Leads (s t : State) : Prop extends s.Grows t where
  refs : t.info.refs = s.info.refs
  size : t.info.bindings.size = s.info.bindings.size
  bindings : ∀ {j c}, t.info.binding? j = some c →
    ∃ b n, s.info.binding? j = some b ∧ c = { b with references := n }
  unbound : ∀ {j}, s.Unbound j → t.Unbound j
  listed : s.listed ⊆ t.listed

namespace Leads

theorem refl (s : State) : s.Leads s where
  toGrows := .refl s
  refs := rfl
  size := rfl
  bindings h := ⟨_, _, h, rfl⟩
  unbound h := h
  listed _ h := h

theorem trans (h : s.Leads t) (h' : t.Leads u) : s.Leads u where
  toGrows := h.toGrows.trans h'.toGrows
  refs := h'.refs.trans h.refs
  size := h'.size.trans h.size
  bindings hc := by
    obtain ⟨b, n, hb, rfl⟩ := h'.bindings hc
    obtain ⟨a, k, ha, rfl⟩ := h.bindings hb
    exact ⟨a, n, ha, rfl⟩
  unbound hj := h'.unbound (h.unbound hj)
  listed := List.Subset.trans h.listed h'.listed

theorem boundAt? (h : s.Leads t) (x : Site) : t.info.boundAt? x = s.info.boundAt? x := by
  rw [Info.boundAt?, Info.boundAt?, h.refs]

theorem chosen (h : s.Leads t) (hj : s.Chosen j) : t.Chosen j := by
  intro c hc
  obtain ⟨b, n, hb, rfl⟩ := h.bindings hc
  obtain ⟨he, hk, hl⟩ := hj b hb
  exact ⟨he, hk, fun σ hσ => ⟨h.listed (hl σ hσ).1, (hl σ hσ).2⟩⟩

theorem referenced (h : s.Leads t) (hj : t.isReferenced (some j) = true) : s.isReferenced (some j) = true := by
  by_contra hs
  rw [h.unused (Bool.not_eq_true _ ▸ hs)] at hj
  cases hj

end Leads

/-- Steps that settle the state do not take a name out of a scope. -/
theorem Settles.unbound_iff (h : s.Settles t) : t.Unbound j ↔ s.Unbound j := by
  have hbound (c : Binding) (n : Nat) :
      t.info.isBound j { c with references := n } = s.info.isBound j c := by
    simp only [Info.isBound, Info.scope?, h.scopes]
  constructor
  · intro ht b hb
    obtain ⟨c, hc⟩ : ∃ c, t.info.binding? j = some c := by
      cases hc : t.info.binding? j with
      | some c => exact ⟨c, rfl⟩
      | none =>
        rw [Info.binding?, Array.getElem?_eq_none_iff, h.size, ← Array.getElem?_eq_none_iff] at hc
        cases hc.symm.trans hb
    obtain ⟨b', n, hb', -, rfl⟩ := h.bindings hc
    cases hb.symm.trans hb'
    exact hbound b n ▸ ht _ hc
  · intro hs c hc
    obtain ⟨b, n, hb, -, rfl⟩ := h.bindings hc
    exact (hbound b n).trans (hs b hb)

theorem Settles.leads (h : s.Settles t) : s.Leads t where
  toGrows := h.grows
  refs := h.refs
  size := h.size
  bindings hc := by
    obtain ⟨b, n, hb, -, hc⟩ := h.bindings hc
    exact ⟨b, n, hb, hc⟩
  unbound := h.unbound_iff.2
  listed := h.listed ▸ List.Subset.refl _

theorem put_leads {σ : Site} {d : Definition} {late : List (Site × Definition)}
    (h : s.late.map Prod.fst ⊆ late.map Prod.fst) : s.Leads (s.put σ d late) :=
  { Leads.refl s with toGrows := put_grows h }

/-! ### Inlining -/

variable {id : Ident} {b : Binding} {value : Expr}

theorem scope?_modifyScope (info : Info) (m n : Mark) (f : Scope → Scope) :
    (info.modifyScope m f).scope? n = if m = n then (info.scope? n).map f else info.scope? n := by
  unfold Info.modifyScope
  by_cases hm : m = 0
  · rw [if_pos hm]
    split
    · next h =>
      rw [Info.scope?, if_pos (h ▸ hm)]
      rfl
    · rfl
  · rw [if_neg hm]
    unfold Info.scope?
    by_cases hn : n = 0
    · rw [if_pos hn, if_pos hn, if_neg fun h => hm (h.trans hn)]
    · rw [if_neg hn, if_neg hn, Array.getElem?_modify]
      have he : m - 1 = n - 1 ↔ m = n := ⟨Nat.pred_inj (Nat.pos_of_ne_zero hm) (Nat.pos_of_ne_zero hn),
        congrArg (· - 1)⟩
      simp only [he]

/-- What a scope has for a name is taken away where it is the name of the binding that is inlined. -/
theorem inlining_isBound (c : Binding) (j : BindingId) :
    (s.inlining i b value).info.isBound j c =
      (s.info.isBound j c && !decide (b.scope = c.scope ∧ b.name = c.name)) := by
  have hs : (s.inlining i b value).info.scope? c.scope =
      if b.scope = c.scope then (s.info.scope? c.scope).map fun sc => sc.remove b.name else s.info.scope? c.scope :=
    scope?_modifyScope ..
  have hl (sc : Scope) : (sc.remove b.name).binding? c.name = if c.name = b.name then none else sc.binding? c.name :=
    lookup_filter_ne sc.names b.name c.name
  simp only [Info.isBound, hs]
  split
  · next h =>
    simp only [Option.any_map, hl, h, true_and]
    split
    · next hn => simp [hn]
    · next hn => simp [show b.name ≠ c.name from fun h' => hn h'.symm]
  · next h => simp [h]

theorem isBound_of_isInlinable (h : s.isInlinable i b = true) : s.info.isBound i b = true := by
  simp only [isInlinable, Bool.and_eq_true] at h
  exact h.1.2

/-- The binding that is inlined loses its place in its scope, and no other one does. -/
theorem inlining_unbound (h : s.Inlines id i b value) :
    (s.inlining i b value).Unbound j ↔ j = i ∨ s.Unbound j := by
  have hb := isBound_of_isInlinable h.inlinable
  constructor
  · intro ht
    by_cases hij : j = i
    · exact .inl hij
    · refine .inr fun c hc => ?_
      have ht := ht c (by rw [inlining_binding?, if_neg fun h' => hij h'.symm, hc])
      rw [inlining_isBound, Bool.and_eq_false_iff] at ht
      refine ht.elim (fun h' => h') fun hn => ?_
      simp only [Bool.not_eq_false', decide_eq_true_eq] at hn
      -- A scope has one binding for a name.
      rw [Info.isBound, Option.any_eq_true] at hb
      obtain ⟨sc, hsc, hi⟩ := hb
      rw [Info.isBound, ← hn.1, ← hn.2, hsc, Option.any_some]
      simp only [decide_eq_true_eq] at hi
      rw [hi]
      simp [show i ≠ j from fun h' => hij h'.symm]
  · rintro (rfl | hj) c hc
    · rw [inlining_binding?, if_pos rfl] at hc
      obtain ⟨b', hb', rfl⟩ := Option.map_eq_some_iff.1 hc
      cases h.binding.symm.trans hb'
      rw [inlining_isBound]
      simp
    · rw [inlining_isBound, Bool.and_eq_false_iff]
      rw [inlining_binding?] at hc
      split at hc
      · obtain ⟨b', hb', rfl⟩ := Option.map_eq_some_iff.1 hc
        exact .inl (hj b' hb')
      · exact .inl (hj c hc)

theorem inlining_refs : (s.inlining i b value).info.refs = s.info.refs := by
  show (s.info.modifyScope b.scope _).refs = _
  unfold Info.modifyScope
  split <;> rfl

theorem inlining_leads (h : s.Inlines id i b value) : s.Leads (s.inlining i b value) where
  toGrows := inlining_grows
  refs := inlining_refs
  size := by
    refine (Array.size_modify ..).trans ?_
    unfold Info.modifyScope
    split <;> rfl
  bindings {j c} hc := by
    rw [inlining_binding?] at hc
    split at hc
    · obtain ⟨a, ha, rfl⟩ := Option.map_eq_some_iff.1 hc
      exact ⟨a, 0, ha, rfl⟩
    · exact ⟨c, _, hc, rfl⟩
  unbound hj := (inlining_unbound h).2 (.inr hj)
  listed := List.Subset.refl _

/-- A variable that is inlined has been listed, and one that is declared by `var` is in scope where it is declared. -/
theorem Inlines.chosen (h : s.Inlines id i b value) : (s.inlining i b value).Chosen i := by
  intro c hc
  rw [inlining_binding?, if_pos rfl] at hc
  obtain ⟨b', hb', rfl⟩ := Option.map_eq_some_iff.1 hc
  cases h.binding.symm.trans hb'
  have hin := h.inlinable
  simp only [isInlinable, Bool.and_eq_true, Bool.not_eq_true'] at hin
  refine ⟨hin.1.1.1.1.1.2, hin.2, fun σ hσ => ?_⟩
  have hv := h.valueOf
  have hσ : b.origin = .declarator σ := hσ
  simp only [valueOf?, hσ] at hv
  split at hv
  · next hl =>
    simp only [Bool.and_eq_true, Bool.not_eq_true', Bool.and_eq_false_iff, decide_eq_false_iff_not,
      List.contains_iff_mem] at hl
    exact ⟨hl.1, fun hk => hl.2.elim (fun h' => h' hk.1) fun h' => h' hk.2⟩
  · cases hv

theorem Inlines.referenced (h : s.Inlines id i b value) : s.isReferenced (some i) = true := by
  have hin := h.inlinable
  simp only [isInlinable, Bool.and_eq_true, decide_eq_true_eq, Bool.not_eq_true'] at hin
  rw [isReferenced_some, h.binding, Option.any_some, Binding.isReferenced, hin.1.1.1.1.1.1.1, hin.1.1.1.2]
  rfl

/-- Inlining one binding leaves the references to another one. -/
theorem inlining_references (h : j ≠ i) : (s.inlining i b value).references j = s.references j := by
  rw [references, inlining_binding?, if_neg fun h' => h h'.symm]
  rfl

end Elimination.State

/-! ### What the state owes -/

/-- The uses in what a declaration gives to its name. -/
def Elimination.Definition.uses (W : Watch) : Definition → Uses W
  | .variable init => Expr.foldOpt W.fold init
  | .func f => (f.fold W.fold .func).close
  | .cls c => (c.fold W.fold .cls).close

namespace Watch

variable (W : Watch) {X : Finset Site} {s t : State} {σ τ : Site} {d : Definition} {late : List (Site × Definition)}

/-- What is owed for a declaration that is inlined in the pass, until it is dead. -/
def term (s : State) (σ : Site) : Nat :=
  if σ ∈ s.dead then 0 else ((s.definition? σ).map fun d => ((d.uses W).cost []).val s.dead []).getD 0

/-- What is owed for the declarations outside of `X` that are inlined in the pass. -/
def stake (X : Finset Site) (s : State) : Nat := ∑ σ ∈ W.gone \ X, W.term s σ

theorem term_le (hdef : t.definition? σ = s.definition? σ) (hdead : s.dead ⊆ t.dead) : W.term t σ ≤ W.term s σ := by
  unfold term
  split
  · exact Nat.zero_le _
  · next ht =>
    rw [if_neg fun hs => ht (hdead hs), hdef]
    cases s.definition? σ with
    | none => exact Nat.le_refl _
    | some d => exact ((d.uses W).cost []).antitone hdead (List.Subset.refl _)

theorem stake_le (h : ∀ σ ∉ X, W.term t σ ≤ W.term s σ) : W.stake X t ≤ W.stake X s :=
  Finset.sum_le_sum fun σ hσ => h σ (Finset.mem_sdiff.1 hσ).2

theorem stake_settles (h : s.Settles t) : W.stake X t ≤ W.stake X s :=
  W.stake_le fun σ _ => W.term_le (h.definition? σ) h.dead

theorem stake_insert (hσ : σ ∈ W.gone) (hX : σ ∉ X) : W.stake X s = W.term s σ + W.stake (insert σ X) s := by
  have hmem : σ ∈ W.gone \ X := Finset.mem_sdiff.2 ⟨hσ, hX⟩
  rw [stake, ← Finset.add_sum_erase _ _ hmem, stake, Finset.sdiff_insert]

variable {W}

theorem term_eq (hdef : s.definition? σ = some d) (h : σ ∉ s.dead) :
    W.term s σ = ((d.uses W).cost []).val s.dead [] := by
  rw [term, if_neg h, hdef]
  rfl

/-- What uses cost is owed where they are the value of a declaration that is inlined in the pass and not dead. -/
theorem stake_defined (hσ : σ ∈ W.gone) (hX : σ ∉ X) (hdef : s.definition? σ = some d) (h : σ ∉ s.dead) :
    W.stake X s = ((d.uses W).cost []).val s.dead [] + W.stake (insert σ X) s := by
  rw [W.stake_insert hσ hX, term_eq hdef h]

theorem term_put_ne (h : τ ≠ σ) : W.term (t.put σ d late) τ = W.term t τ := by
  have hdef : (t.put σ d late).definition? τ = t.definition? τ := by
    rw [State.definition?_put, if_neg fun heq => h heq.1.symm]
  rw [term, term, hdef]
  rfl

theorem stake_put (h : σ ∈ W.gone → σ ∈ X) : W.stake X (t.put σ d late) = W.stake X t := by
  refine Finset.sum_congr rfl fun τ hτ => term_put_ne ?_
  rintro rfl
  exact (Finset.mem_sdiff.1 hτ).2 (h (Finset.mem_sdiff.1 hτ).1)

end Watch

/-! ### What holds in the states of a pass -/

/-- The piece is charged all of its live uses where the declarations are dead that are inlined and referred to
inside of it only. -/
def Uses.Home {W : Watch} (a : Uses W) (dead : List Site) : Prop :=
  ∀ D, dead ⊆ D → W.Settled a.sites D → a.live D ≤ (a.cost []).val D []

theorem Uses.Home.mono {W : Watch} {a : Uses W} {D D' : List Site} (h : a.Home D) (hD : D ⊆ D') : a.Home D' :=
  fun E hE => h E (List.Subset.trans hD hE)

/-- The state fits what is known beforehand. -/
structure Watch.Sound (W : Watch) (s : State) : Prop where
  bound : ∀ x, s.info.boundAt? x = W.bound x
  origin : ∀ {j c}, s.info.binding? j = some c → W.origin j = c.origin.site?
  before : ∀ j, W.before j → s.Unbound j
  late : s.late = []
  dead : ∀ j ∈ W.inlined, s.Unbound j → ∀ σ, W.origin j = some σ → σ ∈ s.dead
  named : ∀ {σ d}, σ ∈ s.dead → s.definition? σ = some d → d.isNamed = true → σ ∈ W.gone
  homes : ∀ {σ d}, σ ∈ W.gone → s.definition? σ = some d → (d.uses W).Home s.dead

/-- What has happened so far is known beforehand. -/
structure Watch.Bounds (W : Watch) (s : State) : Prop where
  unbound : ∀ j, s.Unbound j → W.before j ∨ j ∈ W.inlined
  target : ¬ s.Unbound W.target

/-- Every binding that is inlined either has been, or there is a reference to it outside of the piece. -/
def Watch.Calm (W : Watch) (a : Uses W) (t : State) : Prop :=
  ∀ j ∈ W.inlined, t.Unbound j ∨
    ∃ y, y ∉ a.sites ∧ y ∉ t.moved ∧ W.bound y = some j ∧ t.isReferenced (some j) = true

/-- A piece is to be visited from `s` to `t`. -/
structure Watch.Ready (W : Watch) (L : Ledger) (a : Piece × Uses W) (s t : State) : Prop where
  ready : L.Ready a.1 s
  bounds : L.Bounds t
  sound : W.Sound s
  limits : W.Bounds t
  closed : a.2.closed
  nodup : a.2.sites.Nodup
  calm : W.Calm a.2 t

/-- What a visit leaves has its uses counted, where the declarators `R` are trimmed before. -/
structure Watch.Kept (W : Watch) (L : Ledger) (R : List Site) (a : Piece × Uses W) (s : State) (b : Piece × Uses W)
    (t : State) : Prop where
  sound : W.Sound t
  settled : ∀ D, t.dead ⊆ D → b.2.live D ≤ (b.2.cost a.2.tops).val D []
  account : ∀ X, L.Spares X a.1 s →
    (b.2.cost []).val t.dead [] + W.stake X t + s.references W.target ≤
      (a.2.cost []).val s.dead R + W.stake X s + t.references W.target

/-- What holds of a visit whatever it is that is visited; only declarators among `xs` are listed. -/
structure Watch.Run (W : Watch) (L : Ledger) (xs : List Site) (a : Piece × Uses W) (s : State) (b : Piece × Uses W)
    (t : State) : Prop where
  visit : L.Visit a.1 s b.1 t
  leads : s.Leads t
  kills : ∀ j, t.Unbound j → s.Unbound j ∨ ∃ y ∈ a.2.refs s.dead s.trimmed,
    y ∉ s.moved ∧ s.info.boundAt? y = some j ∧ s.isReferenced (some j) = true
  chosen : ∀ j, t.Unbound j → s.Unbound j ∨ t.Chosen j
  listed : ∀ σ ∈ t.listed, σ ∈ s.listed ∨ σ ∈ xs

/-- A visit under the condition `ok`. -/
structure Watch.Track (W : Watch) (L : Ledger) (R xs : List Site) (ok : Prop) (a : Piece × Uses W) (s : State)
    (b : Piece × Uses W) (t : State) : Prop where
  run : W.Run L xs a s b t
  kept : W.Ready L a s t → ok → W.Kept L R a s b t

namespace Place

variable {W : Watch}

/-- The declarators that may be trimmed before a piece is visited. -/
def trims (m : Place) (s : State) : List Site := if m = .part then s.trimmed else []

/-- The declarators that are listed while a piece is visited. -/
def lists (m : Place) (a : Uses W) : List Site := if m = .list then a.lists ++ a.tops else a.lists

/-- None of the declarations of a statement that stands alone is inlined. -/
def ok (m : Place) (a : Uses W) : Prop := m = .slot → ∀ σ ∈ a.tops, σ ∉ W.gone

end Place

/-- A visit of a piece. -/
def Watch.Part (W : Watch) (L : Ledger) (m : Place) (a : Piece × Uses W) (s : State) (b : Piece × Uses W) (t : State) :
    Prop := W.Track L (m.trims s) (m.lists a.2) (m.ok a.2) a s b t

/-- A visit of the parts of a statement, which declares no function or class that is dead. -/
def Watch.Parts (W : Watch) (L : Ledger) (a : Piece × Uses W) (s : State) (b : Piece × Uses W) (t : State) : Prop :=
  W.Track L s.trimmed a.2.lists (∀ σ ∈ a.2.heads, σ ∉ s.dead) a s b t

/-- A visit of a statement, which declares no function or class that is dead. -/
def Watch.Whole (W : Watch) (L : Ledger) (a : Piece × Uses W) (s : State) (b : Piece × Uses W) (t : State) : Prop :=
  W.Track L [] a.2.lists (∀ σ ∈ a.2.heads, σ ∉ s.dead) a s b t

end Deadwood
