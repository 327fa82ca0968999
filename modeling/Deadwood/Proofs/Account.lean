import Deadwood.Proofs.Ledger
import Deadwood.Proofs.Traversal
import Mathlib.Algebra.Order.BigOperators.Group.Finset

/-!
# Accounts of a pass

The state of a pass owes what the declarations hold that will be dead in the end.  Inlining moves a value
from the state to the place of its only reference.  Nothing is paid twice: a name that is inlined is not
used any more, and what is inside of a value that has moved does not move again.
-/

namespace Deadwood

open Elimination

namespace Elimination.State

variable {s t u : State}

/-- Whether the name that is declared at a site is referred to. -/
def isUsedAt (s : State) (x : Site) : Bool := s.isReferenced s.info.decls[x]?.join

/-- Whether the declaration at a site is that of a function or class, where there is a definition. -/
def form? (s : State) (σ : Site) : Option Bool := (s.definition? σ).map Definition.isNamed

/-- A pass leads from `s` to `t`. -/
structure Grows (s t : State) : Prop where
  decls : t.info.decls = s.info.decls
  origins : ∀ {i c}, t.info.binding? i = some c → ∃ b, s.info.binding? i = some b ∧ b.origin = c.origin
  unused : ∀ {i}, s.isReferenced i = false → t.isReferenced i = false
  moved : s.moved ⊆ t.moved
  dead : s.dead ⊆ t.dead
  trimmed : s.trimmed ⊆ t.trimmed
  late : s.late.map Prod.fst ⊆ t.late.map Prod.fst

namespace Grows

theorem refl (s : State) : s.Grows s where
  decls := rfl
  origins h := ⟨_, h, rfl⟩
  unused h := h
  moved _ h := h
  dead _ h := h
  trimmed _ h := h
  late _ h := h

theorem trans (h : s.Grows t) (h' : t.Grows u) : s.Grows u where
  decls := h'.decls.trans h.decls
  origins hc := by
    obtain ⟨b, hb, ho⟩ := h'.origins hc
    obtain ⟨a, ha, ho'⟩ := h.origins hb
    exact ⟨a, ha, ho'.trans ho⟩
  unused hi := h'.unused (h.unused hi)
  moved := List.Subset.trans h.moved h'.moved
  dead := List.Subset.trans h.dead h'.dead
  trimmed := List.Subset.trans h.trimmed h'.trimmed
  late := List.Subset.trans h.late h'.late

theorem isUsedAt (h : s.Grows t) {x : Site} (hx : s.isUsedAt x = false) : t.isUsedAt x = false := by
  rw [State.isUsedAt, h.decls]
  exact h.unused hx

end Grows

theorem Settles.grows (h : s.Settles t) : s.Grows t where
  decls := h.decls
  origins hc := by
    obtain ⟨b, n, hb, -, rfl⟩ := h.bindings hc
    exact ⟨b, hb, rfl⟩
  unused := h.isReferenced
  moved := h.moved ▸ List.Subset.refl _
  dead := h.dead
  trimmed := h.trimmed ▸ List.Subset.refl _
  late := h.late ▸ List.Subset.refl _

theorem Settles.definition? (h : s.Settles t) (σ : Site) : t.definition? σ = s.definition? σ :=
  congrArg (fun ds => (ds[σ]?).join) h.definitions

theorem Settles.form? (h : s.Settles t) (σ : Site) : t.form? σ = s.form? σ :=
  congrArg (Option.map Definition.isNamed) (h.definition? σ)

theorem isDead_iff {σ : Site} : s.isDead σ = true ↔ σ ∈ s.dead := List.contains_iff_mem

theorem isDead_eq_false_iff {σ : Site} : s.isDead σ = false ↔ σ ∉ s.dead := by
  rw [← isDead_iff, Bool.not_eq_true]

/-- The state after the declaration at a site has got a new definition. -/
def put (s : State) (σ : Site) (d : Definition) (late : List (Site × Definition)) : State :=
  { s with definitions := s.definitions.setIfInBounds σ (some d), late }

theorem definition?_put (s : State) (σ τ : Site) (d : Definition) (late : List (Site × Definition)) :
    (s.put σ d late).definition? τ =
      if σ = τ ∧ σ < s.definitions.size then some d else s.definition? τ := by
  show ((s.definitions.setIfInBounds σ (some d))[τ]?).join = _
  rw [Array.getElem?_setIfInBounds]
  by_cases h : σ = τ
  · subst h
    by_cases hs : σ < s.definitions.size
    · simp [hs]
    · simp [hs, State.definition?]
  · simp [h, State.definition?]

theorem form?_put {σ : Site} {d : Definition} (late : List (Site × Definition))
    (h : s.form? σ = some d.isNamed) (τ : Site) : (s.put σ d late).form? τ = s.form? τ := by
  unfold form?
  rw [definition?_put]
  split
  next hτ => rw [← hτ.1]; exact h.symm
  · rfl

theorem put_grows {σ : Site} {d : Definition} {late : List (Site × Definition)}
    (h : s.late.map Prod.fst ⊆ late.map Prod.fst) : s.Grows (s.put σ d late) :=
  { Grows.refl s with late := h }

theorem lt_of_definition? {σ : Site} {d : Definition} (h : s.definition? σ = some d) :
    σ < s.definitions.size := by
  have h' : s.definitions[σ]?.join = some d := h
  cases hs : s.definitions[σ]? with
  | none => rw [hs] at h'; cases h'
  | some x => exact (Array.getElem?_eq_some_iff.1 hs).1

end Elimination.State

/-! ### What the state owes -/

namespace Ledger

variable (L : Ledger) {X : Finset Site} {s t : State} {σ : Site}

/-- What a declaration gives to its name. -/
def value (s : State) (σ : Site) : Nat :=
  ((s.definition? σ).map fun d => (d.piece L).cost.val s.dead []).getD 0

/-- What is owed for a declaration.  What has moved is paid for, except where its price in the end is
not yet known. -/
def term (s : State) (σ : Site) : Int :=
  if σ ∈ s.dead then
    if σ ∈ L.late ∧ (s.definition? σ).any Definition.isNamed then L.value s σ - L.price σ else 0
  else L.value s σ

/-- What is owed for the declarations outside of `X` that are dead in the end. -/
def stake (X : Finset Site) (s : State) : Int := ∑ σ ∈ L.dead \ X, L.term s σ

theorem value_le (hdef : t.definition? σ = s.definition? σ) (hdead : s.dead ⊆ t.dead) :
    L.value t σ ≤ L.value s σ := by
  rw [value, value, hdef]
  cases s.definition? σ with
  | none => exact Nat.le_refl _
  | some d => exact (d.piece L).cost.antitone hdead (List.Subset.refl _)

theorem term_le (hdef : t.definition? σ = s.definition? σ) (hdead : s.dead ⊆ t.dead) :
    L.term t σ ≤ L.term s σ := by
  have hv := L.value_le hdef hdead
  have hd : σ ∈ s.dead → σ ∈ t.dead := @hdead σ
  unfold term
  rw [hdef]
  by_cases ht : σ ∈ t.dead
  · rw [if_pos ht]
    split <;> split <;> omega
  · rw [if_neg ht, if_neg (fun h => ht (hd h))]
    omega

theorem stake_le (h : ∀ σ ∉ X, L.term t σ ≤ L.term s σ) : L.stake X t ≤ L.stake X s :=
  Finset.sum_le_sum fun σ hσ => h σ (Finset.mem_sdiff.1 hσ).2

theorem stake_settles (h : s.Settles t) : L.stake X t ≤ L.stake X s :=
  L.stake_le fun σ _ => L.term_le (h.definition? σ) h.dead

theorem stake_insert (hσ : σ ∈ L.dead) (hX : σ ∉ X) :
    L.stake X s = L.term s σ + L.stake (insert σ X) s := by
  have hmem : σ ∈ L.dead \ X := Finset.mem_sdiff.2 ⟨hσ, hX⟩
  rw [stake, ← Finset.add_sum_erase _ _ hmem, stake, Finset.sdiff_insert]

end Ledger

/-! ### What holds in the states of a pass -/

/-- The state fits the ledger. -/
structure Ledger.Sound (L : Ledger) (s : State) : Prop where
  dead : ∀ σ ∈ s.dead, ∃ e ∈ L.entries, e.1 = σ ∧ ∀ x ∈ e.2, s.isUsedAt x = false
  origins : ∀ {i b σ}, s.info.binding? i = some b → b.origin.site? = some σ →
    ∃ e ∈ L.entries, e.1 = σ ∧ ∃ x ∈ e.2, s.info.decls[x]? = some (some i)
  defined : ∀ {σ d}, s.definition? σ = some d → σ ∉ L.elems → d.isAt L σ ∧ ∃ x, (σ, [x]) ∈ L.entries
  /-- What a dead function or class refers to has moved with it. -/
  buried : ∀ {σ d}, σ ∈ s.dead → s.definition? σ = some d → d.isNamed = true →
    (d.piece L).refs ⊆ s.moved
  late : ∀ {σ d}, s.late.lookup σ = some d →
    σ ∈ s.dead ∧ s.definition? σ = some d ∧ d.isNamed = true ∧ ∀ x ∈ (d.piece L).own, x ∉ L.late

/-- What has happened so far is in the ledger. -/
structure Ledger.Bounds (L : Ledger) (s : State) : Prop where
  dead : ∀ σ ∈ s.dead, σ ∈ L.entries.map Prod.fst → σ ∈ L.dead
  late : ∀ σ ∈ s.late.map Prod.fst, σ ∈ L.entries.map Prod.fst → σ ∈ L.late

/-- A piece of syntax is ready to be visited. -/
structure Ledger.Ready (L : Ledger) (a : Piece) (s : State) : Prop extends L.Sound s where
  nodup : a.keys.Nodup
  entries : a.decls ⊆ L.entries
  elems : a.elems ⊆ L.elems
  unboxed : ∀ x ∈ a.own, x ∉ L.late
  contents : ∀ c ∈ a.contents, s.definition? c.1 = c.2 ∨
    (∃ init, c.2 = some (.variable init)) ∧ s.form? c.1 = some false ∧ (c.1 ∈ s.dead ∨ c.1 ∈ s.trimmed)

/-- The declarations `X` are around a piece of syntax. -/
def Ledger.Spares (L : Ledger) (X : Finset Site) (a : Piece) (s : State) : Prop :=
  ∀ σ ∈ X, σ ∉ a.keys ∧ ∀ d, s.definition? σ = some d → a.refs ⊆ (d.piece L).refs

/-- What the changes so far have cost. -/
def Ledger.spent (L : Ledger) (s : State) : Nat := s.changes.length * L.tariff.unit

theorem Ledger.spent_succ (L : Ledger) {s t : State} (h : t.changes.length = s.changes.length + 1) :
    L.spent t = L.spent s + L.tariff.unit := by
  rw [spent, h, Nat.add_mul, Nat.one_mul, spent]

theorem Ledger.spent_congr (L : Ledger) {s t : State} (h : t.changes = s.changes) : L.spent t = L.spent s := by
  rw [spent, h, spent]

/-- What is left of a piece of syntax, with what the state owes and the changes, costs no more than the
piece did. -/
def Ledger.Accounts (L : Ledger) (X : Finset Site) (a : Piece) (s : State) (b : Piece) (t : State) :
    Prop :=
  b.cost.val t.dead [] + L.stake X t + L.spent t ≤
    a.cost.val s.dead s.trimmed + L.stake X s + L.spent s

/-- A visit of the piece `a` has left the piece `b`. -/
structure Ledger.Done (L : Ledger) (a : Piece) (s : State) (b : Piece) (t : State) : Prop where
  sound : L.Sound t
  definitions : ∀ σ ∉ a.keys, t.definition? σ = s.definition? σ
  forms : ∀ σ ∉ L.elems, t.form? σ = s.form? σ
  spared : ∀ σ ∉ a.keys, (∀ d, s.definition? σ = some d → a.refs ⊆ (d.piece L).refs) →
    σ ∈ t.dead → σ ∈ s.dead
  quiet : a.refs ⊆ s.moved → b.refs ⊆ t.moved ∧ ∀ x ∈ b.own, x ∉ L.late
  outer : ∀ e ∈ b.outer, e ∈ L.entries ∨ e.1 = 0
  account : ∀ X, L.Spares X a s → L.Accounts X a s b t

/-- A visit keeps to the ledger. -/
structure Ledger.Visit (L : Ledger) (a : Piece) (s : State) (b : Piece) (t : State) : Prop where
  grows : s.Grows t
  done : L.Ready a s → L.Bounds t → L.Done a s b t

namespace Ledger

variable {L : Ledger} {a b c : Piece} {s t u : State}

theorem Bounds.of_grows (h : L.Bounds t) (hg : s.Grows t) : L.Bounds s :=
  ⟨fun σ hσ => h.dead σ (hg.dead hσ), fun σ hσ => h.late σ (hg.late hσ)⟩

theorem Sound.entry (h : L.Sound s) {σ : Site} (hσ : σ ∈ s.dead) : σ ∈ L.entries.map Prod.fst := by
  obtain ⟨e, he, rfl, -⟩ := h.dead σ hσ
  exact List.mem_map_of_mem he

/-- Elements of patterns and parameters are never dead. -/
theorem Sound.not_elem (h : L.Sound s) {σ : Site} (hσ : σ ∈ s.dead) : σ ∉ L.elems := by
  obtain ⟨e, he, rfl, -⟩ := h.dead σ hσ
  exact L.apart e he

theorem Ready.content_apart (h : L.Ready a s) {c : Site × Option Definition} (hc : c ∈ a.contents) :
    c.1 ∉ L.elems := by
  have hc : c.1 ∈ a.contents.map Prod.fst := List.mem_map_of_mem hc
  rw [a.keyed] at hc
  obtain ⟨e, he, hec⟩ := List.mem_map.1 hc
  exact hec ▸ L.apart e (h.entries he)

theorem Sound.knows (h : L.Sound s) (hb : L.Bounds s) : L.Knows s := by
  intro σ d hd
  have hl := h.late hd
  refine ⟨hb.late σ ?_ (h.entry hl.1), (h.defined hl.2.1 (h.not_elem hl.1)).1⟩
  obtain ⟨l, l', hl, -⟩ := List.lookup_eq_some_iff.1 hd
  rw [hl]
  simp

theorem entry_unique {e e' : Site × List Site} (he : e ∈ L.entries) (he' : e' ∈ L.entries)
    (h : e.1 = e'.1) : e = e' := List.inj_on_of_nodup_map L.nodup he he' h

/-- Steps that only settle the state keep it sound, if what they bury is not used. -/
theorem Sound.settles (h : L.Sound s) (hs : s.Settles t)
    (hd : ∀ σ ∈ t.dead, σ ∈ s.dead ∨ ∃ e ∈ L.entries, e.1 = σ ∧ (∀ x ∈ e.2, t.isUsedAt x = false) ∧
      ∀ d, s.definition? σ = some d → d.isNamed = false) : L.Sound t where
  dead σ hσ := by
    rcases hd σ hσ with hσ | ⟨e, he, heσ, hu, -⟩
    · obtain ⟨e, he, heσ, hu⟩ := h.dead σ hσ
      exact ⟨e, he, heσ, fun x hx => hs.grows.isUsedAt (hu x hx)⟩
    · exact ⟨e, he, heσ, hu⟩
  origins hi hσ := by
    obtain ⟨b, hb, ho⟩ := hs.grows.origins hi
    rw [hs.decls]
    exact h.origins hb (ho ▸ hσ)
  defined hdef hne := h.defined (hs.definition? _ ▸ hdef) hne
  buried {σ d} hσ hdef hn := by
    rw [hs.definition?] at hdef
    rw [hs.moved]
    rcases hd σ hσ with hσ | ⟨_, _, _, _, hv⟩
    · exact h.buried hσ hdef hn
    · rw [hv _ hdef] at hn
      cases hn
  late hl := by
    rw [hs.late] at hl
    obtain ⟨hσ, hdef, hn, hu⟩ := h.late hl
    exact ⟨hs.dead hσ, (hs.definition? _).trans hdef, hn, hu⟩

/-- What is around a piece is around its parts. -/
theorem Spares.mono {X : Finset Site} (h : L.Spares X b s) (hk : a.keys ⊆ b.keys) (hr : a.refs ⊆ b.refs) :
    L.Spares X a s := fun σ hσ =>
  ⟨fun hmem => (h σ hσ).1 (hk hmem), fun d hd => List.Subset.trans hr ((h σ hσ).2 d hd)⟩

/-! ### One piece after another -/

section Append

variable {a' : Piece} {X : Finset Site}

theorem append_apart {σ : Site} (h : σ ∉ (a.append b).keys) : σ ∉ a.keys ∧ σ ∉ b.keys := by
  rw [(Piece.append_keys a b).mem_iff, List.mem_append, not_or] at h
  exact h

theorem Ready.left (h : L.Ready (a.append b) s) : L.Ready a s :=
  { h with
    nodup := (List.nodup_append.1 ((Piece.append_keys a b).nodup_iff.1 h.nodup)).1
    entries := fun _ he => h.entries (List.mem_append_left _ he)
    elems := fun _ hx => h.elems (List.mem_append_left _ hx)
    unboxed := fun x hx => h.unboxed x (List.mem_append_left _ hx)
    contents := fun c hc => h.contents c (List.mem_append_left _ hc) }

/-- A visit of the first piece leaves the second one ready. -/
theorem Ready.right (h : L.Ready (a.append b) s) (hg : s.Grows t) (ha : L.Done a s a' t) : L.Ready b t := by
  have hnd := List.nodup_append.1 ((Piece.append_keys a b).nodup_iff.1 h.nodup)
  have hoff {σ : Site} (hσ : σ ∈ b.keys) : σ ∉ a.keys := fun hσ' => hnd.2.2 _ hσ' _ hσ rfl
  exact { ha.sound with
    nodup := hnd.2.1
    entries := fun e he => h.entries (List.mem_append_right _ he)
    elems := fun x hx => h.elems (List.mem_append_right _ hx)
    unboxed := fun x hx => h.unboxed x (List.mem_append_right _ hx)
    contents := fun c hc => by
      rw [ha.definitions _ (hoff (Piece.mem_keys hc))]
      refine (h.contents c (List.mem_append_right _ hc)).imp id fun ⟨hv, hf, hd⟩ => ?_
      exact ⟨hv, (ha.forms _ (h.content_apart (List.mem_append_right _ hc))).trans hf,
        hd.imp (@hg.dead c.1) (@hg.trimmed c.1)⟩ }

theorem Spares.left (h : L.Spares X (a.append b) s) : L.Spares X a s :=
  h.mono (fun _ hσ => (Piece.append_keys a b).mem_iff.2 (List.mem_append_left _ hσ)) (List.subset_append_left ..)

theorem Spares.right (h : L.Spares X (a.append b) s) (ha : L.Done a s a' t) : L.Spares X b t := fun σ hσ =>
  ⟨(append_apart (h σ hσ).1).2, fun d hd _ hx =>
    (h σ hσ).2 d (ha.definitions σ (append_apart (h σ hσ).1).1 ▸ hd) (List.mem_append_right _ hx)⟩

end Append

namespace Visit

theorem append {a' b' : Piece} (h : L.Visit a s a' t) (h' : L.Visit b t b' u) :
    L.Visit (a.append b) s (a'.append b') u := by
  refine ⟨h.grows.trans h'.grows, fun hr hb => ?_⟩
  have ha := h.done hr.left (hb.of_grows h'.grows)
  have hb' := h'.done (hr.right h.grows ha) hb
  refine ⟨hb'.sound, fun σ hσ => ?_, fun σ hσ => (hb'.forms σ hσ).trans (ha.forms σ hσ),
    fun σ hσ href hd => ?_, fun href => ?_, ?_, fun X hX => ?_⟩
  · exact (hb'.definitions σ (append_apart hσ).2).trans (ha.definitions σ (append_apart hσ).1)
  · have hdef := ha.definitions σ (append_apart hσ).1
    refine ha.spared σ (append_apart hσ).1 (fun d hd' => ?_) (hb'.spared σ (append_apart hσ).2 (fun d hd' => ?_) hd)
    · exact fun x hx => href d hd' (List.mem_append_left _ hx)
    · exact fun x hx => href d (hdef ▸ hd') (List.mem_append_right _ hx)
  · obtain ⟨har, hao⟩ := ha.quiet fun x hx => href (List.mem_append_left _ hx)
    obtain ⟨hbr, hbo⟩ := hb'.quiet fun x hx => h.grows.moved (href (List.mem_append_right _ hx))
    refine ⟨List.append_subset.2 ⟨fun x hx => h'.grows.moved (har hx), hbr⟩, ?_⟩
    intro x hx
    exact (List.mem_append.1 hx).elim (hao x) (hbo x)
  · intro e he
    exact (List.mem_append.1 he).elim (ha.outer e) (hb'.outer e)
  · have h₁ := ha.account X hX.left
    have h₂ := hb'.account X (hX.right ha)
    have h₃ := a'.cost.antitone h'.grows.dead (List.Subset.refl [])
    have h₄ := b.cost.antitone h.grows.dead h.grows.trimmed
    simp only [Accounts, Piece.append, Cost.add_val] at h₁ h₂ ⊢
    omega

/-- Nothing happens to a piece that costs the same whatever is trimmed. -/
theorem idle (hc : L.Ready a s → L.Bounds s → a.cost.val s.dead [] = a.cost.val s.dead s.trimmed) :
    L.Visit a s a s := by
  refine ⟨.refl s, fun hr hb => ⟨hr.toSound, fun _ _ => rfl, fun _ _ => rfl, fun _ _ _ h => h, fun h => ⟨h, hr.unboxed⟩,
    fun e he => .inl (hr.entries (a.outer_subset he)), fun X _ => ?_⟩⟩
  rw [Accounts, hc hr hb]

/-- The same is added to the costs before and after a visit. -/
theorem pad (h : L.Visit a s b t) (n : Nat) {a' b' : Piece} (hdecls : a'.decls = a.decls)
    (helems : a'.elems = a.elems) (hown : a'.own = a.own) (hcontents : a'.contents = a.contents) (hrefs : a'.refs = a.refs)
    (hcost : a'.cost = a.cost.add (.const n)) (hrefs' : b'.refs = b.refs) (hown' : b'.own = b.own)
    (houter' : b'.outer ⊆ b.outer) (hcost' : b'.cost = b.cost.add (.const n)) : L.Visit a' s b' t := by
  have hkeys : a'.keys = a.keys := by rw [Piece.keys, Piece.keys, hdecls, helems]
  refine ⟨h.grows, fun hr hb => ?_⟩
  have hd := h.done
    { hr with
      nodup := hkeys ▸ hr.nodup
      entries := hdecls ▸ hr.entries
      elems := helems ▸ hr.elems
      unboxed := hown ▸ hr.unboxed
      contents := hcontents ▸ hr.contents } hb
  refine ⟨hd.sound, hkeys ▸ hd.definitions, hd.forms, ?_, ?_, fun e he => hd.outer e (houter' he), fun X hX => ?_⟩
  · rw [hkeys, hrefs]
    exact hd.spared
  · rw [hrefs, hrefs', hown']
    exact hd.quiet
  · have ha := hd.account X fun σ hσ => ⟨hkeys ▸ (hX σ hσ).1, hrefs ▸ (hX σ hσ).2⟩
    simp only [Accounts, hcost, hcost', Cost.add_val, Cost.const_val] at ha ⊢
    omega

theorem charged {n m : Nat} (h : L.Visit a s b t) (hm : m = n) : L.Visit (a.charged n) s (b.charged m) t := by
  subst hm
  exact h.pad m rfl rfl rfl rfl rfl rfl rfl rfl (List.Subset.refl _) rfl

theorem stmt {x x' : Stmt} (hx : x.head = x'.head) (h : L.Visit a s b t) :
    L.Visit (L.fold.stmt x a) s (L.fold.stmt x' b) t :=
  h.charged (L.tariff.stmtCost_of_head hx).symm

theorem unboxed_expr {e : Expr} (h : ∀ σ, e.ownSite? = some σ → σ ∉ L.late) :
    L.fold.expr e a = L.inside e a := by
  have hb : L.boxed? e a = none := by
    rw [boxed?, Option.filter_eq_none_iff]
    intro σ hσ hl
    exact h σ hσ (of_decide_eq_true hl).1
  show ((L.boxed? e a).map L.box).getD _ = _
  rw [hb]
  rfl

/-- The own name of an expression is among the names of its parts. -/
theorem ownSite_mem {e : Expr} {σ : Site} (hf : ∀ f, e = .func f → a = f.fold L.fold .own)
    (hc : ∀ c, e = .cls c → a = c.fold L.fold .own) (hσ : e.ownSite? = some σ) : σ ∈ a.own := by
  cases e with
  | func f =>
    rw [hf f rfl]
    obtain ⟨id, hid, rfl⟩ := Option.map_eq_some_iff.1 hσ
    cases f with
    | mk name params rest body async generator =>
      cases hid
      exact List.mem_append_left _ (List.mem_singleton_self _)
  | cls c =>
    rw [hc c rfl]
    obtain ⟨id, hid, rfl⟩ := Option.map_eq_some_iff.1 hσ
    cases c with
    | mk name superclass body decorators =>
      cases hid
      exact List.mem_append_right _ (List.mem_append_left _ (List.mem_singleton_self _))
  | _ => cases hσ

/-- The name of an expression that is ready is one of its own, so the expression is no box. -/
theorem ownSite_not_late {e : Expr} (hf : ∀ f, e = .func f → a = f.fold L.fold .own)
    (hc : ∀ c, e = .cls c → a = c.fold L.fold .own) (hr : L.Ready (L.fold.expr e a) s) {σ : Site}
    (hσ : e.ownSite? = some σ) : σ ∉ L.late := by
  have hr : L.Ready (((L.boxed? e a).map L.box).getD (L.inside e a)) s := hr
  cases hb : L.boxed? e a with
  | none =>
    rw [hb] at hr
    have hmem : σ ∈ a.own := ownSite_mem hf hc hσ
    exact hr.unboxed σ hmem
  | some τ =>
    rw [hb] at hr
    have hτ := (of_decide_eq_true (Option.filter_eq_some_iff.1 hb).2).1
    exact absurd hτ (hr.unboxed τ (List.mem_singleton_self _))

theorem expr {e e' : Expr} (hf : ∀ f, e = .func f → a = f.fold L.fold .own)
    (hc : ∀ c, e = .cls c → a = c.fold L.fold .own) (he : e.head = e'.head) (h : L.Visit a s b t) :
    L.Visit (L.fold.expr e a) s (L.fold.expr e' b) t := by
  refine ⟨h.grows, fun hr => ?_⟩
  have hno (σ : Site) (hσ : e.ownSite? = some σ) : σ ∉ L.late := ownSite_not_late hf hc hr hσ
  have hv : L.Visit (L.inside e a) s (L.inside e' b) t := by
    refine h.pad (L.tariff.exprCost e) rfl rfl rfl rfl rfl rfl rfl rfl (List.nil_subset _) ?_
    show b.cost.add (.const (L.tariff.exprCost e')) = _
    rw [L.tariff.exprCost_of_head he]
  rw [unboxed_expr hno] at hr ⊢
  rw [unboxed_expr (Expr.ownSite?_of_head he ▸ hno)]
  exact hv.done hr

theorem deadDeclarator (kind : BindingKind) {d : Declarator} (hd : s.isDead d.site = true) :
    L.Visit (d.fold L.fold kind) s (d.fold L.fold kind) s := by
  refine idle fun _ _ => ?_
  cases d with
  | mk site target init =>
    have hzero (c : Cost) (r : List Site) :
        (Cost.declarator (site ∈ L.dead) site target.isName init.isSome L.tariff.unit
          (L.tariff.nameCost target) c).val s.dead r = 0 :=
      if_pos (List.contains_iff_mem.1 hd)
    exact (hzero _ _).trans (hzero _ _).symm

theorem deadStmt {x : Stmt} (hx : s.isDeadStmt x = true) :
    L.Visit (x.fold L.fold) s (x.fold L.fold) s := by
  refine idle fun hr hb => ?_
  have hnamed {name : Option Ident} (hn : (name.any fun id => s.isDead id.site) = true)
      (d : Definition) (a : Piece) (r : List Site) : (L.named name d a).cost.val s.dead r = 0 := by
    cases name with
    | none => cases hn
    | some id =>
      have hid : id.site ∈ s.dead := List.contains_iff_mem.1 hn
      have hid : id.site ∈ L.dead := hb.dead _ hid (hr.toSound.entry hid)
      simp only [named, if_pos hid]
      rfl
  cases x with
  | func f => exact congrArg (· + _) ((hnamed hx _ _ _).trans (hnamed hx _ _ _).symm)
  | cls c => exact congrArg (· + _) ((hnamed hx _ _ _).trans (hnamed hx _ _ _).symm)
  | _ => cases hx

end Visit

/-! ### Steps before and after a visit -/

/-- What is left of a piece after a step that only settles the state and buries declarations of `K`. -/
structure After (L : Ledger) (K : List Site) (b : Piece) (t : State) (c : Piece) (u : State) :
    Prop where
  sound : L.Sound u
  dead : ∀ σ ∈ u.dead, σ ∈ t.dead ∨ σ ∈ K
  refs : c.refs ⊆ b.refs
  own : c.own ⊆ b.own
  outer : ∀ e ∈ c.outer, e ∈ b.outer ∨ e.1 = 0
  cost : c.cost.val u.dead [] + L.spent u ≤ b.cost.val t.dead [] + L.spent t

/-- A step at the declarations of a piece that is going to be visited. -/
structure Before (L : Ledger) (a : Piece) (s t : State) : Prop where
  ready : L.Ready a t
  dead : ∀ σ ∈ t.dead, σ ∈ s.dead ∨ σ ∈ a.keys
  definitions : ∀ σ ∉ a.keys, t.definition? σ = s.definition? σ
  forms : ∀ σ ∉ L.elems, t.form? σ = s.form? σ
  term : ∀ σ, L.term t σ ≤ L.term s σ
  cost : a.cost.val t.dead t.trimmed + L.spent t ≤ a.cost.val s.dead s.trimmed + L.spent s

namespace Visit

theorem after (h : L.Visit a s b t) (hs : t.Settles u)
    (hafter : L.Ready a s → L.Bounds u → L.Done a s b t → L.After a.keys b t c u) :
    L.Visit a s c u := by
  refine ⟨h.grows.trans hs.grows, fun hr hb => ?_⟩
  have hd := h.done hr (hb.of_grows hs.grows)
  have ha := hafter hr hb hd
  refine ⟨ha.sound, fun σ hσ => (hs.definition? σ).trans (hd.definitions σ hσ),
    fun σ hσ => (hs.form? σ).trans (hd.forms σ hσ), fun σ hσ href hu => ?_, fun href => ?_, fun e he => ?_, fun X hX => ?_⟩
  · exact hd.spared σ hσ href ((ha.dead σ hu).resolve_right hσ)
  · obtain ⟨hbr, hbo⟩ := hd.quiet href
    exact ⟨fun x hx => hs.moved ▸ hbr (ha.refs hx), fun x hx => hbo x (ha.own hx)⟩
  · rcases ha.outer e he with he | he
    · exact hd.outer e he
    · exact .inr he
  · have h₁ := hd.account X hX
    have h₂ := L.stake_settles hs (X := X)
    have h₃ := ha.cost
    simp only [Accounts] at h₁ ⊢
    omega

theorem before (h : L.Visit a t b u) (hg : s.Grows t) (hbefore : L.Ready a s → L.Bounds t → L.Before a s t) :
    L.Visit a s b u := by
  refine ⟨hg.trans h.grows, fun hr hb => ?_⟩
  have hf := hbefore hr (hb.of_grows h.grows)
  have hd := h.done hf.ready hb
  refine ⟨hd.sound, fun σ hσ => (hd.definitions σ hσ).trans (hf.definitions σ hσ),
    fun σ hσ => (hd.forms σ hσ).trans (hf.forms σ hσ), fun σ hσ href hu => ?_, fun href => hd.quiet fun x hx => hg.moved (href hx), hd.outer, fun X hX => ?_⟩
  · have ht := hd.spared σ hσ (fun d hd' => href d (hf.definitions σ hσ ▸ hd')) hu
    exact (hf.dead σ ht).resolve_right hσ
  · have h₁ := hd.account X fun σ hσ =>
      ⟨(hX σ hσ).1, fun d hd' => (hX σ hσ).2 d (hf.definitions σ (hX σ hσ).1 ▸ hd')⟩
    have h₂ := L.stake_le (X := X) fun σ _ => hf.term σ
    have h₃ := hf.cost
    simp only [Accounts] at h₁ ⊢
    omega

/-- A piece goes without a visit, and nothing of it is left that a visit could change. -/
theorem discard (hs : s.Settles u) (hrefs : c.refs = []) (hown : c.own = [])
    (houter : ∀ e ∈ c.outer, e.1 = 0)
    (h : L.Ready a s → L.Bounds u → L.Sound u ∧ (∀ σ ∈ u.dead, σ ∈ s.dead ∨ σ ∈ a.keys) ∧
      c.cost.val u.dead [] + L.spent u ≤ a.cost.val s.dead s.trimmed + L.spent s) :
    L.Visit a s c u := by
  refine ⟨hs.grows, fun hr hb => ?_⟩
  obtain ⟨hsound, hdead, hcost⟩ := h hr hb
  refine ⟨hsound, fun σ _ => hs.definition? σ, fun σ _ => hs.form? σ, fun σ hσ _ hu => (hdead σ hu).resolve_right hσ,
    fun _ => ?_, fun e he => .inr (houter e he), fun X _ => ?_⟩
  · rw [hrefs, hown]
    exact ⟨List.nil_subset _, nofun⟩
  · have hst := L.stake_settles hs (X := X)
    simp only [Accounts]
    omega

end Visit

/-! ### Definitions -/

variable {σ : Site} {d : Definition} {late : List (Site × Definition)}

/-- A new definition keeps the state sound, if it is known where it has been visited late. -/
theorem Sound.put (h : L.Sound t) (hat : d.isAt L σ) (hx : σ ∉ L.elems → ∃ x, (σ, [x]) ∈ L.entries)
    (hrefs : σ ∈ t.dead → (d.piece L).refs ⊆ t.moved)
    (hlate : ∀ {τ e}, late.lookup τ = some e → τ ≠ σ ∧ t.late.lookup τ = some e ∨
      τ = σ ∧ e = d ∧ σ ∈ t.dead ∧ σ < t.definitions.size ∧ d.isNamed = true ∧
        ∀ x ∈ (d.piece L).own, x ∉ L.late) :
    L.Sound (t.put σ d late) where
  dead := h.dead
  origins := h.origins
  defined {τ e} hdef hne := by
    rw [State.definition?_put] at hdef
    split at hdef
    next hτ =>
      cases hdef
      rw [← hτ.1] at hne ⊢
      exact ⟨hat, hx hne⟩
    next => exact h.defined hdef hne
  buried {τ e} hτ hdef hn := by
    rw [State.definition?_put] at hdef
    split at hdef
    next heq =>
      cases hdef
      exact hrefs (heq.1 ▸ hτ)
    next => exact h.buried hτ hdef hn
  late {τ e} hl := by
    rw [State.definition?_put]
    rcases hlate hl with ⟨hne, hl⟩ | ⟨rfl, rfl, hd, hlt, hn, hu⟩
    · rw [if_neg fun heq => hne heq.1.symm]
      exact h.late hl
    · rw [if_pos ⟨rfl, hlt⟩]
      exact ⟨hd, rfl, hn, hu⟩

theorem term_put_ne {τ : Site} (hτ : τ ≠ σ) : L.term (t.put σ d late) τ = L.term t τ := by
  have hdef : (t.put σ d late).definition? τ = t.definition? τ := by
    rw [State.definition?_put, if_neg fun heq => hτ heq.1.symm]
  simp only [term, value, hdef]
  rfl

theorem value_put (hlt : σ < t.definitions.size) :
    L.value (t.put σ d late) σ = (d.piece L).cost.val t.dead [] := by
  rw [value, State.definition?_put, if_pos ⟨rfl, hlt⟩]
  rfl

theorem stake_put_of_mem {X : Finset Site} (hσ : σ ∈ X) : L.stake X (t.put σ d late) = L.stake X t := by
  refine Finset.sum_congr rfl fun τ hτ => term_put_ne ?_
  rintro rfl
  exact (Finset.mem_sdiff.1 hτ).2 hσ

theorem stake_put_of_not_mem {X : Finset Site} (hσ : σ ∉ L.dead) :
    L.stake X (t.put σ d late) = L.stake X t := by
  refine Finset.sum_congr rfl fun τ hτ => term_put_ne ?_
  rintro rfl
  exact hσ (Finset.mem_sdiff.1 hτ).1

/-- What is owed changes with the definition. -/
theorem stake_redefine {X : Finset Site} (d' : Definition) (late : List (Site × Definition)) (hJ : σ ∈ L.dead) (hX : σ ∉ X)
    (hdef : s.definition? σ = some d) (hlt : σ < t.definitions.size) (hdead : σ ∈ t.dead ↔ σ ∈ s.dead)
    (hlate : σ ∈ t.dead → σ ∈ L.late ∧ d.isNamed = true ∧ d'.isNamed = true) :
    L.stake X (t.put σ d' late) + L.stake (insert σ X) s + (d.piece L).cost.val s.dead [] =
      L.stake X s + L.stake (insert σ X) t + (d'.piece L).cost.val t.dead [] := by
  have hs : L.value s σ = (d.piece L).cost.val s.dead [] := by
    rw [value, hdef]
    rfl
  have ht : L.value (t.put σ d' late) σ = (d'.piece L).cost.val t.dead [] := value_put hlt
  rw [L.stake_insert hJ hX, L.stake_insert hJ hX, stake_put_of_mem (Finset.mem_insert_self _ _), term,
    term, hs, ht]
  have hd : σ ∈ (t.put σ d' late).dead ↔ σ ∈ s.dead := hdead
  by_cases h : σ ∈ s.dead
  · obtain ⟨hl, hn, hn'⟩ := hlate (hdead.2 h)
    have hany : ((t.put σ d' late).definition? σ).any Definition.isNamed = true := by
      rw [State.definition?_put, if_pos ⟨rfl, hlt⟩]
      exact hn'
    rw [if_pos h, if_pos (hd.2 h), if_pos ⟨hl, hany⟩, hdef, if_pos ⟨hl, hn⟩]
    omega
  · rw [if_neg h, if_neg (fun h' => h (hd.1 h'))]
    omega

/-- What has been visited late after the declaration at `σ` has got the definition `d`. -/
def lateWith (σ : Site) (d : Definition) (t : State) : List (Site × Definition) :=
  if σ ∈ t.dead then (σ, d) :: t.late else t.late

theorem lateWith_subset : t.late.map Prod.fst ⊆ (lateWith σ d t).map Prod.fst := by
  unfold lateWith
  split
  · exact List.subset_cons_self _ _
  · exact List.Subset.refl _

theorem lookup_lateWith (h : L.Sound t) {τ : Site} {e : Definition}
    (hl : (lateWith σ d t).lookup τ = some e) :
    τ ≠ σ ∧ t.late.lookup τ = some e ∨ τ = σ ∧ e = d ∧ σ ∈ t.dead := by
  unfold lateWith at hl
  split at hl
  next hdead =>
    rw [List.lookup_cons] at hl
    split at hl
    next hτ =>
      cases hl
      exact .inr ⟨beq_iff_eq.1 hτ, rfl, hdead⟩
    next hτ => exact .inl ⟨beq_eq_false_iff_ne.1 hτ, hl⟩
  next hdead => exact .inl ⟨fun hτ => hdead (hτ ▸ (h.late hl).1), hl⟩

theorem defineNamed_eq (id : Ident) (d : Definition) (t : State) :
    (defineNamed (some id) d t).2 = t.put id.site d (lateWith id.site d t) := by
  show (if t.isDead id.site then _ else _ : State) = _
  simp only [State.isDead_iff, lateWith]
  split <;> rfl

namespace Visit

section Named

variable {id : Ident} (hd : d.piece L = a) (hn : d.isNamed = true) (hr : L.Ready (L.named (some id) d a) s)

include hr

theorem named_ready : L.Ready a s :=
  { hr with
    nodup := (List.nodup_cons.1 hr.nodup).2
    entries := fun _ he => hr.entries (List.mem_cons_of_mem _ he)
    unboxed := hr.unboxed
    contents := fun c hc => hr.contents c (List.mem_cons_of_mem _ hc) }

theorem named_apart : id.site ∉ a.keys := (List.nodup_cons.1 hr.nodup).1

include hn

theorem named_definition : s.definition? id.site = some d := by
  rcases hr.contents (id.site, some d) List.mem_cons_self with hdef | ⟨⟨init, hi⟩, -, -⟩
  · exact hdef
  · rw [Option.some.inj hi] at hn
    cases hn

include hd

/-- What is inside of a declaration refers to what the declaration does. -/
theorem named_refs (e : Definition) (he : s.definition? id.site = some e) : a.refs ⊆ (e.piece L).refs := by
  rw [named_definition hn hr] at he
  cases he
  rw [hd]
  exact List.Subset.refl _

/-- The declaration is around its parts, like those that are around it. -/
theorem named_spares {X : Finset Site} (hX : L.Spares X (L.named (some id) d a) s) : L.Spares (insert id.site X) a s :=
  (Finset.forall_mem_insert ..).2 ⟨⟨named_apart hr, named_refs hd hn hr⟩,
    hX.mono (List.subset_cons_self _ _) (List.Subset.refl _)⟩

/-- A name is not inlined inside of what it stands for. -/
theorem named_alive (hg : s.Grows t) (hin : L.Done a s b t) : id.site ∈ t.dead ↔ id.site ∈ s.dead :=
  ⟨hin.spared _ (named_apart hr) (named_refs hd hn hr), fun hs => hg.dead hs⟩

end Named

/-- The declaration of a function or class is visited. -/
theorem named {name : Option Ident} {d d' : Definition} (hd : d.piece L = a) (hd' : d'.piece L = b)
    (hn : d.isNamed = true) (hn' : d'.isNamed = true) (hat : ∀ id, name = some id → d.isAt L id.site → d'.isAt L id.site)
    (h : L.Visit a s b t) :
    L.Visit (L.named name d a) s (L.named name d' b) (defineNamed name d' t).2 := by
  cases name with
  | none => exact h.pad 0 rfl rfl rfl rfl rfl rfl rfl rfl (List.nil_subset _) rfl
  | some id =>
    rw [defineNamed_eq]
    refine ⟨h.grows.trans (State.put_grows lateWith_subset), fun hr hb => ?_⟩
    have hdef := named_definition hn hr
    have hin := h.done (named_ready hr) (hb.of_grows (State.put_grows lateWith_subset))
    have hlt : id.site < t.definitions.size :=
      State.lt_of_definition? ((hin.definitions _ (named_apart hr)).trans hdef)
    have hspared := named_alive hd hn hr h.grows hin
    have hquiet (ht : id.site ∈ t.dead) : b.refs ⊆ t.moved ∧ ∀ x ∈ b.own, x ∉ L.late :=
      hin.quiet (hd ▸ hr.buried (hspared.1 ht) hdef hn)
    have hoff {τ : Site} (hτ : τ ∉ (L.named (some id) d a).keys) : τ ≠ id.site ∧ τ ∉ a.keys :=
      not_or.1 fun ho => hτ (List.mem_cons.2 ho)
    refine ⟨?_, fun τ hτ => ?_, fun τ hne => ?_, fun τ hτ => hin.spared τ (hoff hτ).2, hin.quiet, nofun,
      fun X hX => ?_⟩
    · have hdefd := hr.defined hdef (L.apart _ (hr.entries List.mem_cons_self))
      refine hin.sound.put (hat id rfl hdefd.1) (fun _ => ⟨id.site, hr.entries List.mem_cons_self⟩)
        (fun ht => hd' ▸ (hquiet ht).1) fun hl => (lookup_lateWith hin.sound hl).imp (fun hl => hl) fun hl => ?_
      exact ⟨hl.1, hl.2.1, hl.2.2, hlt, hn', hd' ▸ (hquiet hl.2.2).2⟩
    · rw [State.definition?_put, if_neg fun heq => (hoff hτ).1 heq.1.symm]
      exact hin.definitions τ (hoff hτ).2
    · refine (State.form?_put _ ?_ τ).trans (hin.forms τ hne)
      rw [hin.forms _ (L.apart _ (hr.entries List.mem_cons_self)), State.form?, hdef, hn']
      exact congrArg some hn
    · by_cases hJ : id.site ∈ L.dead
      · have hX' : id.site ∉ X := fun hmem => (hX _ hmem).1 List.mem_cons_self
        have hacc := hin.account (insert id.site X) (named_spares hd hn hr hX)
        have hst := stake_redefine d' (lateWith id.site d' t) hJ hX' hdef hlt hspared
          fun ht => ⟨hb.late _ (by simp [State.put, lateWith, ht])
            (List.mem_map_of_mem (hr.entries List.mem_cons_self)), hn, hn'⟩
        have hle := a.cost.antitone (List.Subset.refl s.dead) (List.nil_subset s.trimmed)
        rw [hd, hd'] at hst
        simp only [Accounts, Ledger.named, if_pos hJ, Cost.const_val] at hacc ⊢
        show _ + _ + (L.spent t : Int) ≤ _
        omega
      · have hacc := hin.account X fun τ hτ => ⟨(hoff (hX τ hτ).1).2, (hX τ hτ).2⟩
        rw [Accounts, stake_put_of_not_mem hJ]
        simp only [Ledger.named, if_neg hJ]
        exact hacc

end Visit

/-- What is inside of a declaration is ready with it. -/
theorem Ready.inner {e : Site × List Site} {b : Piece} (h : L.Ready b s) (hdecls : b.decls = e :: a.decls)
    (helems : b.elems = a.elems) (hown : b.own = a.own) (hcontents : a.contents ⊆ b.contents) : L.Ready a s where
  toSound := h.toSound
  nodup := by
    have hnd := h.nodup
    rw [Piece.keys, hdecls, helems] at hnd
    exact (List.nodup_cons.1 hnd).2
  entries x hx := h.entries (hdecls ▸ List.mem_cons_of_mem _ hx)
  elems := helems ▸ h.elems
  unboxed := hown ▸ h.unboxed
  contents c hc := h.contents c (hcontents hc)

namespace Visit

section Declarators

variable (kind : BindingKind) {site : Site} {target target' : Pattern} {init init' : Option Expr}

theorem declarator_entry (init' : Option Expr) (hnames : target.names = target'.names)
    (hr : L.Ready ((Declarator.mk site target init).fold L.fold kind) s) :
    (site, ((target'.fold L.fold kind).append (Expr.foldOpt L.fold init')).binders) ∈ L.entries := by
  have he : (site, ((target.fold L.fold kind).append (Expr.foldOpt L.fold init)).binders) ∈ L.entries :=
    hr.entries List.mem_cons_self
  rw [Piece.append_binders, Expr.foldOpt_binders, Pattern.fold_binders] at he ⊢
  rw [← hnames]
  exact he

theorem pattern_cost (site : Site) (init : Option Expr) (hp : target.isName = false) :
    ((Declarator.mk site target init).fold L.fold kind).cost = .declarator (site ∈ L.dead) site false
      init.isSome L.tariff.unit (L.tariff.nameCost target)
      ((target.fold L.fold kind).append (Expr.foldOpt L.fold init)).cost := by
  rw [← hp]
  rfl

/-- A declarator whose target is a pattern is visited. -/
theorem pattern (hs : site ∉ s.dead) (hhead : target.head = target'.head)
    (hnames : target.names = target'.names) (hinit : init'.isSome.toNat ≤ init.isSome.toNat)
    (hp : target.isName = false)
    (h : L.Visit ((target.fold L.fold kind).append (Expr.foldOpt L.fold init)) s
      ((target'.fold L.fold kind).append (Expr.foldOpt L.fold init')) t) :
    L.Visit ((Declarator.mk site target init).fold L.fold kind) s
      ((Declarator.mk site target' init').fold L.fold kind) t := by
  refine ⟨h.grows, fun hr hb => ?_⟩
  have hin := h.done (hr.inner rfl rfl rfl (List.subset_cons_self _ _)) hb
  have hoff {τ : Site} (hτ : τ ∉ ((Declarator.mk site target init).fold L.fold kind).keys) :
      τ ∉ ((target.fold L.fold kind).append (Expr.foldOpt L.fold init)).keys :=
    fun hmem => hτ (List.mem_cons_of_mem _ hmem)
  refine ⟨hin.sound, fun τ hτ => hin.definitions τ (hoff hτ), hin.forms,
    fun τ hτ => hin.spared τ (hoff hτ), hin.quiet, List.forall_mem_cons.2 ⟨.inl (declarator_entry kind init' hnames hr), hin.outer⟩, fun X hX => ?_⟩
  have hacc := hin.account X fun τ hτ => ⟨hoff (hX τ hτ).1, (hX τ hτ).2⟩
  have hp' : target'.isName = false := Pattern.isName_of_head hhead ▸ hp
  have hle : ((Declarator.mk site target' init').fold L.fold kind).cost.val t.dead [] ≤ _ :=
    pattern_cost kind site init' hp' ▸ Cost.declarator_pattern_le
  have hinit := Nat.mul_le_mul_right L.tariff.unit hinit
  simp only [Accounts, pattern_cost kind site init hp, Cost.declarator_pattern hs] at hacc ⊢
  omega

/-- A declarator of a name declares that name. -/
theorem name_entry {id : Ident} (hr : L.Ready ((Declarator.mk site (.ident id) init).fold L.fold kind) s) :
    (site, [id.site]) ∈ L.entries := by
  have he := declarator_entry kind none rfl hr
  rw [Piece.append_binders, Expr.foldOpt_binders, Pattern.fold_binders] at he
  exact he

theorem name_parts (id : Ident) (init : Option Expr) (d r : List Site) :
    (((Pattern.ident id).fold L.fold kind).append (Expr.foldOpt L.fold init)).cost.val d r =
      L.tariff.nameCost (.ident id) + (Expr.foldOpt L.fold init).cost.val d r :=
  congrArg (· + _) (L.tariff.identCost_binding kind .var id)

/-- What a declarator of a name costs that is neither dead nor trimmed. -/
theorem name_cost (id : Ident) (init : Option Expr) {d r : List Site} (hd : site ∉ d) (hr : site ∉ r) :
    ((Declarator.mk site (.ident id) init).fold L.fold kind).cost.val d r =
      (L.tariff.nameCost (.ident id) + if site ∈ L.dead then 0 else (Expr.foldOpt L.fold init).cost.val d r) +
        init.isSome.toNat * L.tariff.unit := by
  have hc : ((Declarator.mk site (.ident id) init).fold L.fold kind).cost.val d r =
      (if decide (site ∈ L.dead) then L.tariff.nameCost (.ident id) else max (L.tariff.nameCost (.ident id))
        ((((Pattern.ident id).fold L.fold kind).append (Expr.foldOpt L.fold init)).cost.val d r)) +
        init.isSome.toNat * L.tariff.unit := Cost.declarator_name hd hr
  rw [hc, name_parts]
  by_cases hJ : site ∈ L.dead
  · simp only [decide_eq_true hJ, if_pos hJ, if_true, Nat.add_zero]
  · simp only [decide_eq_false hJ, if_neg hJ, Bool.false_eq_true, if_false]
    omega

section Name

variable {id : Ident} (hr : L.Ready ((Declarator.mk site (.ident id) init).fold L.fold kind) s)

include hr

theorem name_ready : L.Ready (((Pattern.ident id).fold L.fold kind).append (Expr.foldOpt L.fold init)) s :=
  hr.inner rfl rfl rfl (List.subset_cons_self _ _)

theorem name_definition (hs : site ∉ s.dead) (htrim : site ∉ s.trimmed) :
    s.definition? site = some (.variable init) := by
  rcases hr.contents (site, some (.variable init)) List.mem_cons_self with hdef | ⟨-, -, hd | hd⟩
  · exact hdef
  · exact absurd hd hs
  · exact absurd hd htrim

theorem name_apart : site ∉ (((Pattern.ident id).fold L.fold kind).append (Expr.foldOpt L.fold init)).keys :=
  (List.nodup_cons.1 hr.nodup).1

/-- The declaration is around its parts, like those that are around it. -/
theorem name_spares (hdef : s.definition? site = some (.variable init)) {X : Finset Site}
    (hX : L.Spares X ((Declarator.mk site (.ident id) init).fold L.fold kind) s) :
    L.Spares (insert site X) (((Pattern.ident id).fold L.fold kind).append (Expr.foldOpt L.fold init)) s := by
  refine (Finset.forall_mem_insert ..).2 ⟨⟨name_apart kind hr, fun e he => ?_⟩,
    hX.mono (List.subset_cons_self _ _) (List.Subset.refl _)⟩
  rw [hdef] at he
  cases he
  exact List.Subset.refl _

/-- A name is not inlined inside of its own initializer. -/
theorem name_alive {b : Piece} (hs : site ∉ s.dead) (hdef : s.definition? site = some (.variable init))
    (hin : L.Done (((Pattern.ident id).fold L.fold kind).append (Expr.foldOpt L.fold init)) s b t) : site ∉ t.dead := by
  refine fun hd => hs (hin.spared site (name_apart kind hr) (fun e he => ?_) hd)
  rw [hdef] at he
  cases he
  exact List.Subset.refl _

end Name

/-- A declarator of a name is visited. -/
theorem name {id : Ident} (hs : site ∉ s.dead) (htrim : site ∉ s.trimmed)
    (hinit : init.isSome = init'.isSome)
    (h : L.Visit (((Pattern.ident id).fold L.fold kind).append (Expr.foldOpt L.fold init)) s
      (((Pattern.ident id).fold L.fold kind).append (Expr.foldOpt L.fold init')) t) :
    L.Visit ((Declarator.mk site (.ident id) init).fold L.fold kind) s
      ((Declarator.mk site (.ident id) init').fold L.fold kind) (t.put site (.variable init') t.late) := by
  refine ⟨h.grows.trans (State.put_grows (List.Subset.refl _)), fun hr hb => ?_⟩
  have hin := h.done (name_ready kind hr) (hb.of_grows (State.put_grows (List.Subset.refl _)))
  have hnd := name_apart kind hr
  have hoff {τ : Site} (hτ : τ ∉ ((Declarator.mk site (.ident id) init).fold L.fold kind).keys) :
      τ ≠ site ∧ τ ∉ (((Pattern.ident id).fold L.fold kind).append (Expr.foldOpt L.fold init)).keys :=
    not_or.1 fun ho => hτ (List.mem_cons.2 ho)
  have hdef := name_definition kind hr hs htrim
  have hlt : site < t.definitions.size :=
    State.lt_of_definition? ((hin.definitions _ hnd).trans hdef)
  have hdead : site ∉ t.dead := name_alive kind hr hs hdef hin
  have hapart : site ∉ L.elems := L.apart _ (name_entry kind hr)
  have hform : t.form? site = some false := by rw [hin.forms _ hapart, State.form?, hdef]; rfl
  refine ⟨?_, fun τ hτ => ?_, fun τ hne => (State.form?_put _ hform τ).trans (hin.forms τ hne),
    fun τ hτ => hin.spared τ (hoff hτ).2, hin.quiet,
    List.forall_mem_cons.2 ⟨.inl (declarator_entry kind init' rfl hr), hin.outer⟩, fun X hX => ?_⟩
  · refine hin.sound.put trivial (fun _ => ⟨id.site, name_entry kind hr⟩) (fun hd => absurd hd hdead) fun hl => ?_
    exact .inl ⟨fun hτ => hdead (hτ ▸ (hin.sound.late hl).1), hl⟩
  · rw [State.definition?_put, if_neg fun heq => (hoff hτ).1 heq.1.symm]
    exact hin.definitions τ (hoff hτ).2
  · have hX' : site ∉ X := fun hmem => (hX _ hmem).1 List.mem_cons_self
    rw [Accounts, name_cost kind id init hs htrim]
    show (((Declarator.mk site (.ident id) init').fold L.fold kind).cost.val t.dead [] : Int) +
      L.stake X (t.put site (.variable init') t.late) + (L.spent t : Int) ≤ _
    rw [name_cost kind id init' hdead List.not_mem_nil, ← hinit]
    by_cases hJ : site ∈ L.dead
    · have hacc := hin.account (insert site X) (name_spares kind hr hdef hX)
      have hst := stake_redefine (.variable init') t.late hJ hX' hdef hlt
        ⟨fun hd => absurd hd hdead, fun hd => absurd hd hs⟩ fun hd => absurd hd hdead
      have hle := (Expr.foldOpt L.fold init).cost.antitone (List.Subset.refl s.dead)
        (List.nil_subset s.trimmed)
      simp only [Accounts, name_parts, Definition.piece] at hacc hst
      simp only [if_pos hJ]
      omega
    · have hacc := hin.account X fun τ hτ => ⟨(hoff (hX τ hτ).1).2, (hX τ hτ).2⟩
      rw [stake_put_of_not_mem hJ]
      simp only [Accounts, name_parts] at hacc
      simp only [if_neg hJ]
      omega

/-- A declarator of a name that has been trimmed loses its initializer. -/
theorem trimmedName {id : Ident} (hs : site ∉ s.dead)
    (h : L.Visit ((Pattern.ident id).fold L.fold kind) s ((Pattern.ident id).fold L.fold kind) t) :
    L.Visit ((Declarator.mk site (.ident id) init).fold L.fold kind) s
      ((Declarator.mk site (.ident id) none).fold L.fold kind) (t.put site (.variable none) t.late) := by
  refine ⟨h.grows.trans (State.put_grows (List.Subset.refl _)), fun hr hb => ?_⟩
  have hdecls : ((Pattern.ident id).fold L.fold kind).decls = [] := by cases kind <;> rfl
  have helems : ((Pattern.ident id).fold L.fold kind).elems = [] := by cases kind <;> rfl
  have hkeys : ((Pattern.ident id).fold L.fold kind).keys = [] := by rw [Piece.keys, hdecls, helems]; rfl
  have hin := h.done
    { hr with
      nodup := hkeys ▸ List.nodup_nil
      entries := hdecls ▸ List.nil_subset _
      elems := helems ▸ List.nil_subset _
      unboxed := fun x hx => hr.unboxed x (List.mem_append_left _ hx)
      contents := fun _ h => absurd h List.not_mem_nil } (hb.of_grows (State.put_grows (List.Subset.refl _)))
  have hoff (τ : Site) : τ ∉ ((Pattern.ident id).fold L.fold kind).keys := hkeys ▸ List.not_mem_nil
  have hspared (τ : Site) : τ ∈ t.dead → τ ∈ s.dead :=
    hin.spared τ (hoff τ) fun _ _ => List.nil_subset _
  have hdead : site ∉ t.dead := fun hd => hs (hspared site hd)
  have hne {τ : Site} (hτ : τ ∉ ((Declarator.mk site (.ident id) init).fold L.fold kind).keys) :
      τ ≠ site := fun he => hτ (he ▸ List.mem_cons_self)
  have hform : t.form? site = some false := by
    rw [hin.forms _ (L.apart _ (name_entry kind hr))]
    rcases hr.contents (site, some (.variable init)) List.mem_cons_self with hdef | ⟨-, hform, -⟩
    · rw [State.form?, hdef]; rfl
    · exact hform
  refine ⟨?_, fun τ hτ => ?_, fun τ hne => (State.form?_put _ hform τ).trans (hin.forms τ hne),
    fun τ _ _ => hspared τ, fun _ => ?_,
    List.forall_mem_cons.2 ⟨.inl (declarator_entry kind none rfl hr), fun _ h => absurd h List.not_mem_nil⟩, fun X hX => ?_⟩
  · refine hin.sound.put trivial (fun _ => ⟨id.site, name_entry kind hr⟩) (fun hd => absurd hd hdead) fun hl => ?_
    exact .inl ⟨fun hτ => hdead (hτ ▸ (hin.sound.late hl).1), hl⟩
  · rw [State.definition?_put, if_neg fun heq => hne hτ heq.1.symm]
    exact hin.definitions τ (hoff τ)
  · refine ⟨List.nil_subset _, fun x hx => ?_⟩
    exact hr.unboxed x (List.mem_append_left _ ((List.mem_append.1 hx).resolve_right List.not_mem_nil))
  · have hacc := hin.account X fun τ hτ => ⟨hoff τ, fun _ _ => List.nil_subset _⟩
    have hst : L.stake X (t.put site (.variable none) t.late) ≤ L.stake X t := by
      refine L.stake_le fun τ _ => ?_
      by_cases hτ : τ = site
      · subst hτ
        have hd : τ ∉ (t.put τ (.variable none) t.late).dead := hdead
        rw [term, term, if_neg hd, if_neg hdead, value, State.definition?_put]
        split
        · exact Int.natCast_nonneg _
        · exact Int.le_refl _
      · rw [term_put_ne hτ]
    have hA : L.tariff.nameCost (.ident id) ≤
        ((Declarator.mk site (.ident id) init).fold L.fold kind).cost.val s.dead s.trimmed :=
      Cost.le_declarator_name hs
    have hB : ((Declarator.mk site (.ident id) none).fold L.fold kind).cost.val t.dead [] =
        L.tariff.nameCost (.ident id) := by
      rw [name_cost kind id none hdead List.not_mem_nil]
      show _ + (if site ∈ L.dead then 0 else 0) + 0 * _ = _
      simp only [ite_self, Nat.add_zero, Nat.zero_mul]
    have hacc : (L.tariff.identCost (.binding kind) id : Int) + L.stake X t + L.spent t ≤
      L.tariff.identCost (.binding kind) id + L.stake X s + L.spent s := hacc
    show (((Declarator.mk site (.ident id) none).fold L.fold kind).cost.val t.dead [] : Int) +
      L.stake X (t.put site (.variable none) t.late) + (L.spent t : Int) ≤ _
    omega

theorem ident_of_head {id : Ident} (h : (Pattern.ident id).head = target.head) : target = .ident id := by
  cases target with
  | ident => exact h.symm
  | _ => cases h

/-- A declarator is visited. -/
theorem declarator (hs : s.isDead site = false) (htrim : t.trimmed.contains site = false)
    (hhead : target.head = target'.head) (hnames : target.names = target'.names)
    (hinit : init.isSome = init'.isSome)
    (ht : L.Visit (target.fold L.fold kind) s (target'.fold L.fold kind) t)
    (hi : L.Visit (Expr.foldOpt L.fold init) t (Expr.foldOpt L.fold init') u) :
    L.Visit ((Declarator.mk site target init).fold L.fold kind) s
      ((Declarator.mk site target' init').fold L.fold kind)
      (defineVariable (.mk site target' init') u).2 := by
  have hs := State.isDead_eq_false_iff.1 hs
  have htrim : site ∉ s.trimmed := fun hmem => by
    rw [List.contains_iff_mem.2 (ht.grows.trimmed hmem)] at htrim
    cases htrim
  cases hp : target.isName with
  | true =>
    cases target with
    | ident id =>
      cases ident_of_head hhead
      exact name kind hs htrim hinit (ht.append hi)
    | _ => cases hp
  | false =>
    have hp' : target'.isName = false := Pattern.isName_of_head hhead ▸ hp
    have hv := pattern kind hs hhead hnames (Nat.le_of_eq (congrArg Bool.toNat hinit.symm)) hp
      (ht.append hi)
    cases target' with
    | ident id => cases hp'
    | _ => exact hv

/-- The initializer of a trimmed declarator never runs, and goes without a visit. -/
theorem withoutInit (init : Option Expr) (t : State) :
    L.Visit (Expr.foldOpt L.fold init) t (Expr.foldOpt L.fold none) t :=
  discard (.refl t) rfl rfl nofun fun hr _ =>
    ⟨hr.toSound, fun _ hσ => .inl hσ, Nat.add_le_add_right (Nat.zero_le _) _⟩

/-- A trimmed declarator is visited. -/
theorem trimmed (hs : s.isDead site = false) (hhead : target.head = target'.head)
    (hnames : target.names = target'.names)
    (ht : L.Visit (target.fold L.fold kind) s (target'.fold L.fold kind) t) :
    L.Visit ((Declarator.mk site target init).fold L.fold kind) s
      ((Declarator.mk site target' none).fold L.fold kind)
      (defineVariable (.mk site target' none) t).2 := by
  have hs := State.isDead_eq_false_iff.1 hs
  cases hp : target.isName with
  | true =>
    cases target with
    | ident id =>
      cases ident_of_head hhead
      exact trimmedName kind hs ht
    | _ => cases hp
  | false =>
    have hp' : target'.isName = false := Pattern.isName_of_head hhead ▸ hp
    have hv := pattern kind hs hhead hnames (Nat.zero_le _) hp (ht.append (withoutInit init t))
    cases target' with
    | ident id => cases hp'
    | _ => exact hv

theorem deadElement {d : Declarator} (hd : s.isDead d.site = true) :
    L.Visit (d.foldElem L.fold kind) s (d.foldElem L.fold kind) s := by
  refine idle fun hr _ => absurd (hr.elems ?_) (hr.toSound.not_elem (State.isDead_iff.1 hd))
  cases d
  exact List.mem_cons_self

/-- What an element is defined as is never looked at. -/
theorem defineElement (h : L.Visit a s b t) (hs : site ∈ a.elems) (e : Option Expr) :
    L.Visit a s b (t.put site (.variable e) t.late) := by
  refine ⟨h.grows.trans (State.put_grows (List.Subset.refl _)), fun hr hb => ?_⟩
  have hin := h.done hr (hb.of_grows (State.put_grows (List.Subset.refl _)))
  have hL := hr.elems hs
  have hdead : site ∉ t.dead := fun hd => hin.sound.not_elem hd hL
  have hdef {τ : Site} (hτ : τ ≠ site) :
      (t.put site (.variable e) t.late).definition? τ = t.definition? τ := by
    rw [State.definition?_put, if_neg fun heq => hτ heq.1.symm]
  refine ⟨?_, fun τ hτ => ?_, fun τ hτ => ?_, hin.spared, hin.quiet, hin.outer, fun X hX => ?_⟩
  · refine hin.sound.put trivial (fun hne => absurd hL hne) (fun hd => absurd hd hdead) fun hl => .inl ⟨?_, hl⟩
    rintro rfl
    exact hdead (hin.sound.late hl).1
  · refine (hdef ?_).trans (hin.definitions τ hτ)
    rintro rfl
    exact hτ (List.mem_append_right _ hs)
  · rw [State.form?, hdef (by rintro rfl; exact hτ hL)]
    exact hin.forms τ hτ
  · rw [Accounts, stake_put_of_not_mem (L.alive _ hL)]
    exact hin.account X hX

/-- An element costs what its parts do, and what it is. -/
theorem elementParts (site : Site) (hhead : target.head = target'.head)
    (hinit : init'.isSome.toNat ≤ init.isSome.toNat)
    (h : L.Visit ((target.fold L.fold kind).append (Expr.foldOpt L.fold init)) s
      ((target'.fold L.fold kind).append (Expr.foldOpt L.fold init')) t) :
    L.Visit ((Declarator.mk site target init).foldElem L.fold kind) s
      ((Declarator.mk site target' init').foldElem L.fold kind) t := by
  refine ⟨h.grows, fun hr hb => ?_⟩
  have hkeys : ((Declarator.mk site target init).foldElem L.fold kind).keys.Perm
      (site :: ((target.fold L.fold kind).append (Expr.foldOpt L.fold init)).keys) := List.perm_middle
  have hoff {τ : Site} (hτ : τ ∉ ((Declarator.mk site target init).foldElem L.fold kind).keys) :
      τ ∉ ((target.fold L.fold kind).append (Expr.foldOpt L.fold init)).keys :=
    fun hmem => hτ (hkeys.mem_iff.2 (List.mem_cons_of_mem _ hmem))
  have hin := h.done
    { hr with
      nodup := (List.nodup_cons.1 (hkeys.nodup_iff.1 hr.nodup)).2
      elems := fun x hx => hr.elems (List.mem_cons_of_mem _ hx) } hb
  refine ⟨hin.sound, fun τ hτ => hin.definitions τ (hoff hτ), hin.forms,
    fun τ hτ => hin.spared τ (hoff hτ), hin.quiet, hin.outer, fun X hX => ?_⟩
  have hacc := hin.account X fun τ hτ => ⟨hoff (hX τ hτ).1, (hX τ hτ).2⟩
  have hbulk : L.tariff.declaratorCost (.mk site target' init') ≤ L.tariff.declaratorCost (.mk site target init) := by
    refine Nat.mul_le_mul_right _ ?_
    rw [Declarator.bulk, Declarator.bulk, Pattern.isName_of_head hhead]
    omega
  have hA (d r : List Site) : ((Declarator.mk site target init).foldElem L.fold kind).cost.val d r =
      ((target.fold L.fold kind).append (Expr.foldOpt L.fold init)).cost.val d r +
        L.tariff.declaratorCost (.mk site target init) := rfl
  have hB (d r : List Site) : ((Declarator.mk site target' init').foldElem L.fold kind).cost.val d r =
      ((target'.fold L.fold kind).append (Expr.foldOpt L.fold init')).cost.val d r +
        L.tariff.declaratorCost (.mk site target' init') := rfl
  rw [Accounts, hA, hB]
  simp only [Accounts] at hacc
  omega

/-- An element is visited. -/
theorem element (hhead : target.head = target'.head) (hinit : init'.isSome.toNat ≤ init.isSome.toNat)
    (ht : L.Visit (target.fold L.fold kind) s (target'.fold L.fold kind) t)
    (hi : L.Visit (Expr.foldOpt L.fold init) t (Expr.foldOpt L.fold init') u) :
    L.Visit ((Declarator.mk site target init).foldElem L.fold kind) s
      ((Declarator.mk site target' init').foldElem L.fold kind)
      (defineVariable (.mk site target' init') u).2 := by
  have hv := elementParts kind site hhead hinit (ht.append hi)
  cases target' with
  | ident id => exact hv.defineElement List.mem_cons_self init'
  | _ => exact hv

end Declarators

end Visit

end Ledger

end Deadwood
