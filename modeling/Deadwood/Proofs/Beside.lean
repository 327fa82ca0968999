import Deadwood.Proofs.Kept
import Deadwood.Proofs.Numbering
import Deadwood.Proofs.Restamp
import Deadwood.Proofs.Tidy
import Mathlib.Data.List.Find

/-!
# The scopes of a tidied program

Resolution finds the same names in a program and in its tidied form: the blocks that are dropped hold none.
The two walks that resolution makes through the program are followed beside those through the tidied form,
which give the scopes that are kept the numbers of their places.
-/

namespace Deadwood

open ScopeWalk

theorem run_modify {σ : Type} (f : σ → σ) (s : σ) : (modify f : StateM σ PUnit) s = (⟨⟩, f s) := rfl

/-! ### Declarations -/

namespace Hoist

theorem declare_mark (inHead : Bool) (id : Ident) (kind : BindingKind) (origin : Site → Origin) (s : State) :
    (declare inHead id kind origin s).1.mark = 0 := by
  simp only [declare, run_bind, run_get]
  cases ((fresh s).2.scope? ((fresh s).2.holder kind)).bind (·.binding? id.name) <;> rfl

theorem declare_size (inHead : Bool) (id : Ident) (kind : BindingKind) (origin : Site → Origin) (s : State) :
    (declare inHead id kind origin s).2.scopes.size = s.scopes.size := by
  simp only [declare, run_bind, run_get]
  cases ((fresh s).2.scope? ((fresh s).2.holder kind)).bind (·.binding? id.name) with
  | some b => rfl
  | none => exact Array.size_modify ..

theorem exportDeclared_size (ids : List Ident) (s : State) :
    (exportDeclared ids s).2.scopes.size = s.scopes.size := by
  induction ids generalizing s with
  | nil => rfl
  | cons id ids ih =>
    refine (ih _).trans ?_
    dsimp only
    cases s.decls[id.site]?.join <;> rfl

/-- Two walks at the same place, where the second one has entered those scopes only that are kept. -/
structure Beside (K : List Mark) (s s' : State) : Prop where
  table : Matches K s.info s'.info
  path : s'.path = s.path.map (numberIn K)
  inside : ∀ m ∈ s.path, m ∈ K
  container : s'.container = s.container
  marks : ∀ m ∈ K, 0 < m ∧ m ≤ s.scopes.size
  size : s'.scopes.size = K.length
  first : K.head? = some 1

namespace Beside

variable {K : List Mark} {s s' : State}

theorem zero_notMem (h : Beside K s s') : 0 ∉ K := fun h0 => Nat.lt_irrefl 0 (h.marks 0 h0).1

theorem decls (h : Beside K s s') : s'.decls = s.decls := h.table.decls

theorem scope? (h : Beside K s s') {m : Mark} (hm : KeptIn K m) :
    s'.scope? (numberIn K m) = (s.scope? m).map (Scope.renumber (numberIn K)) := h.table.renumbering.scopes hm

theorem head (h : Beside K s s') :
    s'.path.head?.getD 0 = numberIn K (s.path.head?.getD 0) ∧ KeptIn K (s.path.head?.getD 0) := by
  rw [h.path, List.head?_map]
  cases hp : s.path.head? with
  | none => exact ⟨rfl, .inl rfl⟩
  | some m => exact ⟨rfl, .inr (h.inside m (List.mem_of_head? hp))⟩

theorem holder (h : Beside K s s') (kind : BindingKind) :
    s'.holder kind = numberIn K (s.holder kind) ∧ KeptIn K (s.holder kind) := by
  have hvar : s'.holder .var = numberIn K (s.holder .var) ∧ KeptIn K (s.holder .var) := by
    have hp : ∀ m ∈ s.path, ((s'.scope? (numberIn K m)).any fun sc => sc.kind = .function || sc.kind = .program) =
        (s.scope? m).any fun sc => sc.kind = .function || sc.kind = .program := by
      intro m hm
      rw [h.scope? (.inr (h.inside m hm))]
      cases s.scope? m <;> rfl
    have hfind : (s.path.find? fun m =>
        (s'.scope? (numberIn K m)).any fun sc => sc.kind = .function || sc.kind = .program) =
        s.path.find? fun m => (s.scope? m).any fun sc => sc.kind = .function || sc.kind = .program :=
      List.find?_congr hp
    simp only [State.holder, h.path, List.find?_map, Function.comp_def, hfind]
    cases hf : s.path.find? fun m => (s.scope? m).any fun sc => sc.kind = .function || sc.kind = .program with
    | none => exact ⟨rfl, .inl rfl⟩
    | some m => exact ⟨rfl, .inr (h.inside m (List.mem_of_find?_eq_some hf))⟩
  cases kind with
  | var => exact hvar
  | module => exact ⟨(numberIn_first h.first).symm, .inr (List.mem_of_head? h.first)⟩
  | _ => exact h.head

theorem fresh (h : Beside K s s') :
    (fresh s').1 = (fresh s).1 ∧ Beside K (Hoist.fresh s).2 (Hoist.fresh s').2 := by
  refine ⟨congrArg Array.size h.decls, { h with table := ?_ }⟩
  show Matches K (State.info { s with decls := s.decls.push none }) (State.info { s' with decls := s'.decls.push none })
  rw [h.decls]
  exact h.table.withSites _ _

/-- A declaration makes the same binding, or finds it. -/
theorem declare (h : Beside K s s') (inHead : Bool) {id id' : Ident} (hid : id'.name = id.name) (kind : BindingKind)
    (origin : Site → Origin) :
    (declare inHead id' kind origin s').1 = (declare inHead id kind origin s).1 ∧
      Beside K (Hoist.declare inHead id kind origin s).2 (Hoist.declare inHead id' kind origin s').2 := by
  obtain ⟨hsite, h⟩ := h.fresh
  obtain ⟨hholder, hkept⟩ := h.holder kind
  have hb : ((Hoist.fresh s').2.scope? ((Hoist.fresh s').2.holder kind)).bind (·.binding? id'.name) =
      ((Hoist.fresh s).2.scope? ((Hoist.fresh s).2.holder kind)).bind (·.binding? id.name) := by
    rw [hholder, h.scope? hkept, hid]
    cases (Hoist.fresh s).2.scope? ((Hoist.fresh s).2.holder kind) <;> rfl
  have hid' : ∀ site, { id' with mark := 0, site : Ident } = { id with mark := 0, site } := by
    cases id
    cases id'
    cases hid
    exact fun _ => rfl
  have hc : (Hoist.fresh s').2.containerFor kind = (Hoist.fresh s).2.containerFor kind := by
    cases kind <;> first | rfl | exact h.container
  simp only [Hoist.declare, run_bind, run_get, hb, hsite, hc]
  cases ((Hoist.fresh s).2.scope? ((Hoist.fresh s).2.holder kind)).bind (·.binding? id.name) with
  | some b =>
    refine ⟨hid' _, { h with table := ?_ }⟩
    simp only [run_bind, run_set, run_pure, h.decls]
    exact (h.table.modifyBinding b (by exact fun _ => rfl) (by exact fun _ => ⟨rfl, rfl⟩)).withSites _ _
  | none =>
    have hsize : (Hoist.fresh s').2.bindings.size = (Hoist.fresh s).2.bindings.size := h.table.size_bindings
    refine ⟨hid' _, { h with table := ?_, marks := ?_, size := ?_ }⟩
    · simp only [run_bind, run_set, run_pure, h.decls, hholder, hsize, h.head.1, hid]
      exact ((h.table.pushBinding ⟨hkept, h.head.2⟩).modifyScope h.first h.zero_notMem hkept
        (by exact fun _ => rfl) (by exact fun _ => rfl)).withSites _ _
    · intro m hm
      exact ⟨(h.marks m hm).1, Nat.le_trans (h.marks m hm).2 (Nat.le_of_eq (Array.size_modify ..).symm)⟩
    · rw [← h.size]
      exact Array.size_modify ..

theorem exportDeclared (h : Beside K s s') (ids : List Ident) :
    Beside K (exportDeclared ids s).2 (Hoist.exportDeclared ids s').2 := by
  induction ids generalizing s s' with
  | nil => exact h
  | cons id ids ih =>
    have hd : s'.decls[id.site]?.join = s.decls[id.site]?.join := by rw [h.decls]
    refine ih ?_
    simp only [hd]
    cases s.decls[id.site]?.join with
    | none => exact h
    | some b =>
      exact { h with
        table := h.table.modifyBinding b (g := fun b => { b with isExported := true }) (fun _ => rfl)
          fun _ => ⟨rfl, rfl⟩ }

theorem contain (h : Beside K s s') (c : Option Container) :
    Beside K (visitor.contain c s).2 (visitor.contain c s').2 := { h with container := rfl }

theorem number_entered (h : Beside K s s') :
    numberIn (K ++ [s.scopes.size + 1]) (s.scopes.size + 1) = s'.scopes.size + 1 := by
  rw [h.size]
  exact numberIn_last (Nat.succ_ne_zero _) fun hm => Nat.not_succ_le_self _ (h.marks _ hm).2

theorem path_entered (h : Beside K s s') : s'.path = s.path.map (numberIn (K ++ [s.scopes.size + 1])) :=
  h.path.trans (List.map_congr_left fun m hm =>
    (KeptIn.numberIn_eq (.inr (h.inside m hm)) (List.prefix_append ..)).symm)

/-- A scope that both walks enter is kept. -/
theorem enter (h : Beside K s s') (kind : ScopeKind) (opener : Opener) :
    Beside (K ++ [s.scopes.size + 1]) (s.entering kind opener) (s'.entering kind opener) where
  table := by
    have hsc : Scope.renumber (numberIn (K ++ [s.scopes.size + 1]))
        { mark := s.scopes.size + 1, kind, opener, outer := s.path } =
        { mark := s'.scopes.size + 1, kind, opener, outer := s'.path } := by
      simp only [Scope.renumber, h.number_entered, ← h.path_entered]
    have ht : Matches (K ++ [s.scopes.size + 1]) (s.entering kind opener).info { s'.info with
        scopes := s'.scopes.push (Scope.renumber (numberIn (K ++ [s.scopes.size + 1]))
          { mark := s.scopes.size + 1, kind, opener, outer := s.path }) } :=
      h.table.pushScope h.marks h.size _ rfl h.inside
    rw [hsc] at ht
    exact ht
  path := by
    rw [State.entering, State.entering, List.map_cons, h.number_entered, ← h.path_entered]
  inside m hm := by
    rcases List.mem_cons.1 hm with rfl | hm
    · exact List.mem_append_right _ List.mem_cons_self
    · exact List.mem_append_left _ (h.inside m hm)
  container := h.container
  marks m hm := by
    rw [State.entering, Array.size_push]
    rcases List.mem_append.1 hm with hm | hm
    · exact ⟨(h.marks m hm).1, Nat.le_succ_of_le (h.marks m hm).2⟩
    · rw [List.mem_singleton.1 hm]
      exact ⟨Nat.succ_pos _, Nat.le_refl _⟩
  size := by rw [State.entering, Array.size_push, h.size, List.length_append, List.length_singleton]
  first := by rw [List.head?_append, h.first]; rfl

/-- Leaving a scope, both walks are again where they came from. -/
theorem leave {K' : List Mark} {t t' : State} (h : Beside K s s') (ht : Beside K' t t') (hK : K <+: K') :
    Beside K' { t with path := s.path } { t' with path := s'.path } :=
  { ht with
    path := h.path.trans (List.map_congr_left fun m hm => (KeptIn.numberIn_eq (.inr (h.inside m hm)) hK).symm)
    inside := fun m hm => hK.subset (h.inside m hm) }

/-- Scopes that only the first walk has entered are not kept. -/
theorem skip (h : Beside K s s') (more : Array Scope) : Beside K { s with scopes := s.scopes ++ more } s' :=
  { h with
    table := h.table.skipScopes h.marks more
    marks := fun m hm => ⟨(h.marks m hm).1, by
      rw [Array.size_append]
      exact Nat.le_add_right_of_le (h.marks m hm).2⟩ }

/-- Both walks start inside of the program, which is kept. -/
theorem start :
    Beside [1] (State.start.entering .program .program) (State.start.entering .program .program) where
  table := {
    decls := rfl
    bindings := by simp [State.start, State.entering, State.info]
    refs := by simp [State.start, State.entering, State.info]
    scopes := fun m hm => by
      cases List.mem_singleton.1 hm
      rfl
    path := fun m hm sc hsc n hn => by
      cases List.mem_singleton.1 hm
      cases hsc
      exact hn
    held := fun i b hb => by simp [State.start, State.entering, State.info, Info.binding?] at hb
    around := fun site r hr => by
      simp only [State.start, State.entering, State.info, Array.getElem?_replicate] at hr
      split at hr <;> cases hr }
  path := rfl
  inside m hm := hm
  container := rfl
  marks m hm := by
    cases List.mem_singleton.1 hm
    decide
  size := rfl
  first := rfl

end Beside

end Hoist

/-! ### References -/

namespace Resolve

/-- The state at the start of a new scope. -/
def State.entering (r : State) : State := { r with entered := r.entered + 1, path := (r.entered + 1) :: r.path }

theorem inScope_run {γ : Type} (act : StateM State γ) (r : State) :
    inScope act r = ((act r.entering).1, { (act r.entering).2 with path := r.path }) := rfl

/-- Two walks at the same place, where the second one is through a program with the given scopes only, and
before it both have been walked through to find their declarations. -/
structure Beside (F : List Mark) (s s' : Hoist.State) (r r' : State) : Prop where
  table : Matches F r.info r'.info
  path : r'.path = r.path.map (numberIn F)
  inside : ∀ m ∈ r.path, m ∈ F
  entered : r.entered = s.scopes.size
  entered' : r'.entered = s'.scopes.size
  first : F.head? = some 1
  zero_notMem : 0 ∉ F

/-- The identifier with the mark of its scope among those that are kept. -/
def stampIn (F : List Mark) : Ident → Ident := Ident.renumber (numberIn F)

namespace Beside

variable {F : List Mark} {s s' : Hoist.State} {r r' : State}

theorem head (h : Beside F s s' r r') :
    r'.path.head?.getD 0 = numberIn F (r.path.head?.getD 0) ∧ KeptIn F (r.path.head?.getD 0) := by
  rw [h.path, List.head?_map]
  cases hp : r.path.head? with
  | none => exact ⟨rfl, .inl rfl⟩
  | some m => exact ⟨rfl, .inr (h.inside m (List.mem_of_head? hp))⟩

theorem resize {t t' : Hoist.State} (h : Beside F s s' r r') (hs : t.scopes.size = s.scopes.size)
    (hs' : t'.scopes.size = s'.scopes.size) : Beside F t t' r r' :=
  { h with
    entered := h.entered.trans hs.symm
    entered' := h.entered'.trans hs'.symm }

/-- The mark of the scope of a binding. -/
theorem holder (h : Beside F s s' r r') (b : BindingId) :
    ((r'.info.binding? b).map Binding.scope).getD 0 = numberIn F (((r.info.binding? b).map Binding.scope).getD 0) := by
  rw [show r'.info.binding? b = (r.info.binding? b).map (Binding.renumber (numberIn F)) from
    h.table.renumbering.binding? b]
  cases r.info.binding? b <;> rfl

theorem modifyBinding (h : Beside F s s' r r') (i : BindingId) {g : Binding → Binding}
    (hg : ∀ b, (g b).renumber (numberIn F) = g (b.renumber (numberIn F)))
    (hs : ∀ b, (g b).scope = b.scope ∧ (g b).declScope = b.declScope) :
    Beside F s s' { r with info := r.info.modifyBinding i g } { r' with info := r'.info.modifyBinding i g } :=
  { h with table := h.table.modifyBinding i hg hs }

theorem declare (h : Beside F s s' r r') {id : Ident} (hid : id.mark = 0) :
    (declare id r').1 = stampIn F (declare id r).1 ∧
      Beside F s s' (Resolve.declare id r).2 (Resolve.declare id r').2 := by
  have hd : r'.info.declaration? id = r.info.declaration? id := by
    rw [Info.declaration?, Info.declaration?, h.table.decls]
  simp only [Resolve.declare, run_bind, run_get, hd]
  cases r.info.declaration? id with
  | none =>
    refine ⟨?_, h⟩
    cases id
    cases hid
    rfl
  | some b =>
    exact ⟨congrArg (fun mark => { id with mark }) (h.holder b), h.modifyBinding b (fun _ => rfl) fun _ => ⟨rfl, rfl⟩⟩

theorem refer (h : Beside F s s' r r') (writing : Bool) (id : Ident) :
    (refer writing id r').1 = stampIn F (refer writing id r).1 ∧
      Beside F s s' (Resolve.refer writing id r).2 (Resolve.refer writing id r').2 := by
  have hl : r'.info.lookupIn r'.path id.name = r.info.lookupIn r.path id.name := by
    rw [h.path]
    exact h.table.renumbering.lookupIn (fun m hm => .inr (h.inside m hm)) id.name
  simp only [Resolve.refer, run_bind, run_get, hl]
  cases r.info.lookupIn r.path id.name with
  | none => exact ⟨rfl, h⟩
  | some b =>
    refine ⟨congrArg (fun mark => { id with mark }) (h.holder b), ?_⟩
    have ht := ((h.modifyBinding b (g := fun b => { b with
      references := b.references + 1
      isConstant := b.isConstant && !writing
      isForward := b.isForward || (!writing && !b.isInitialized) })
      (fun _ => rfl) fun _ => ⟨rfl, rfl⟩).table.setRef id.site b h.head.2)
    rw [← h.head.1] at ht
    exact { h with table := ht }

theorem exportName (h : Beside F s s' r r') (id : Ident) :
    (exportName id r').1 = stampIn F (exportName id r).1 ∧
      Beside F s s' (Resolve.exportName id r).2 (Resolve.exportName id r').2 := by
  obtain ⟨hid, h⟩ := h.refer false id
  have hb : (Resolve.refer false id r').2.info.bindingOf? (Resolve.refer false id r').1 =
      (Resolve.refer false id r).2.info.bindingOf? (Resolve.refer false id r).1 := by
    rw [hid]
    exact h.table.renumbering.bindingOf? _
  refine ⟨hid, ?_⟩
  simp only [Resolve.exportName, run_bind, run_pure, run_modify, hb]
  cases (Resolve.refer false id r).2.info.bindingOf? (Resolve.refer false id r).1 with
  | none => exact h
  | some b => exact h.modifyBinding b (fun _ => rfl) fun _ => ⟨rfl, rfl⟩

theorem called (h : Beside F s s' r r') (id : Ident) :
    Beside F s s' (called id r).2 (Resolve.called (stampIn F id) r').2 := by
  have hmark : (stampIn F id).name = "eval" ∧ (stampIn F id).mark = 0 ↔ id.name = "eval" ∧ id.mark = 0 :=
    and_congr_right fun _ => numberIn_eq_zero F id.mark
  simp only [Resolve.called, run_modify, hmark]
  split
  · refine { h with table := ?_ }
    have hinside := h.inside
    have htable := h.table
    rw [h.path]
    generalize r.path = path at hinside ⊢
    generalize r.info = info, r'.info = info' at htable ⊢
    -- One scope after another can be seen by `eval`.
    induction path generalizing info info' with
    | nil => exact htable
    | cons m path ih =>
      have hm := hinside m List.mem_cons_self
      have hm0 : m ≠ 0 := fun h0 => h.zero_notMem (h0 ▸ hm)
      have hn0 : numberIn F m ≠ 0 := fun h0 => hm0 ((numberIn_eq_zero F m).1 h0)
      refine ih (fun n hn => hinside n (List.mem_cons_of_mem _ hn)) _ _ ?_
      simp only [Info.modifyScope, if_neg hm0, if_neg hn0]
      exact htable.modifyScope h.first h.zero_notMem (.inr hm) (fun _ => rfl) fun _ => rfl
  · exact h

theorem enter {K : List Mark} (hs : Hoist.Beside K s s') (h : Beside F s s' r r')
    (hF : K ++ [s.scopes.size + 1] <+: F) (kind : ScopeKind) (opener : Opener) :
    Beside F (s.entering kind opener) (s'.entering kind opener) r.entering r'.entering :=
  { h with
    path := by
      have hm : KeptIn (K ++ [s.scopes.size + 1]) (s.scopes.size + 1) :=
        .inr (List.mem_append_right _ List.mem_cons_self)
      rw [State.entering, State.entering, List.map_cons, h.entered, h.entered', h.path, hm.numberIn_eq hF,
        hs.number_entered]
    inside := fun m hm => by
      rcases List.mem_cons.1 hm with rfl | hm
      · rw [h.entered]
        exact hF.subset (List.mem_append_right _ List.mem_cons_self)
      · exact h.inside m hm
    entered := by rw [State.entering, Hoist.State.entering, Array.size_push, h.entered]
    entered' := by rw [State.entering, Hoist.State.entering, Array.size_push, h.entered'] }

theorem leave {t t' : Hoist.State} {q q' : State} (h : Beside F s s' r r') (ht : Beside F t t' q q') :
    Beside F { t with path := s.path } { t' with path := s'.path } { q with path := r.path }
      { q' with path := r'.path } :=
  { ht with
    path := h.path
    inside := h.inside }

/-- Scopes that only the first walk has entered. -/
theorem skip (h : Beside F s s' r r') (more : Array Scope) :
    Beside F { s with scopes := s.scopes ++ more } s' { r with entered := r.entered + more.size } r' :=
  { h with entered := by rw [Array.size_append, h.entered] }

end Beside

end Resolve

/-! ### Both walks -/

open Hoist Resolve

variable {α β : Type}

/-- What the two walks of resolution do to a piece of syntax and to its tidied form.  Both first walks leave
the sites where they are, and both second walks bind the same names. -/
def Alongside (T : (Ident → Ident) → α → α) (a a' : StateM Hoist.State α) (w : α → StateM Resolve.State α) : Prop :=
  ∀ K s s', Hoist.Beside K s s' → (a' s').1 = T id (a s).1 ∧
    ∃ K', K <+: K' ∧ Hoist.Beside K' (a s).2 (a' s').2 ∧
      ∀ F r r', K' <+: F → Resolve.Beside F s s' r r' →
        (w (T id (a s).1) r').1 = T (stampIn F) (w (a s).1 r).1 ∧
          Resolve.Beside F (a s).2 (a' s').2 (w (a s).1 r).2 (w (T id (a s).1) r').2

namespace Alongside

variable {T : (Ident → Ident) → α → α} {a a' : StateM Hoist.State α} {w : α → StateM Resolve.State α}
  {U : (Ident → Ident) → β → β} {b b' : StateM Hoist.State β} {v : β → StateM Resolve.State β}

/-- A piece that neither walk looks at. -/
theorem atom {z : α} (hT : ∀ f, T f z = z) (hw : ∀ r, w z r = (z, r)) : Alongside T (pure z) (pure z) w :=
  fun K s s' h => ⟨(hT id).symm, K, List.prefix_refl K, h, fun F r r' _ hr => by
    rw [run_pure, run_pure, hT id, hw, hw, hT]
    exact ⟨rfl, hr⟩⟩

theorem map (h : Alongside T a a' w) (G : α → β) (hU : ∀ f z, U f (G z) = G (T f z))
    (hv : ∀ z r, v (G z) r = (G (w z r).1, (w z r).2)) :
    Alongside U (a >>= fun z => pure (G z)) (a' >>= fun z => pure (G z)) v := by
  intro K s s' hs
  obtain ⟨he, K', hK, hs', hr⟩ := h K s s' hs
  refine ⟨?_, K', hK, hs', fun F r r' hF hrr => ?_⟩
  · rw [run_bind, run_bind, run_pure, run_pure, hU, he]
  · obtain ⟨h₁, h₂⟩ := hr F r r' hF hrr
    simp only [run_bind, run_pure, hU, hv, h₁]
    exact ⟨trivial, h₂⟩

theorem pair (h : Alongside T a a' w) (h' : Alongside U b b' v) :
    Alongside (fun f z => (T f z.1, U f z.2)) (a >>= fun z => b >>= fun y => pure (z, y))
      (a' >>= fun z => b' >>= fun y => pure (z, y))
      (fun z => w z.1 >>= fun x => v z.2 >>= fun y => pure (x, y)) := by
  intro K s s' hs
  obtain ⟨he, K₁, hK, hs₁, hr⟩ := h K s s' hs
  obtain ⟨he', K₂, hK', hs₂, hr'⟩ := h' K₁ _ _ hs₁
  refine ⟨?_, K₂, hK.trans hK', hs₂, fun F r r' hF hrr => ?_⟩
  · simp only [run_bind, run_pure, he, he']
  · obtain ⟨h₁, hr₁⟩ := hr F r r' (hK'.trans hF) hrr
    obtain ⟨h₂, hr₂⟩ := hr' F _ _ hF hr₁
    simp only [run_bind, run_pure, h₁, h₂]
    exact ⟨trivial, hr₂⟩

theorem inScope (h : Alongside T a a' w) (kind : ScopeKind) (opener : Opener) :
    Alongside T (Hoist.inScope kind opener a) (Hoist.inScope kind opener a') (fun z => Resolve.inScope (w z)) := by
  intro K s s' hs
  obtain ⟨he, K', hK, hs', hr⟩ := h _ _ _ (hs.enter kind opener)
  refine ⟨he, K', (List.prefix_append ..).trans hK, hs.leave hs' ((List.prefix_append ..).trans hK), ?_⟩
  intro F r r' hF hrr
  obtain ⟨h₁, h₂⟩ := hr F _ _ hF (.enter hs hrr (hK.trans hF) kind opener)
  exact ⟨h₁, hrr.leave h₂⟩

theorem contain (h : Alongside T a a' w) (c : Option Container) :
    Alongside T (Hoist.visitor.contain c >>= fun _ => a) (Hoist.visitor.contain c >>= fun _ => a') w := by
  intro K s s' hs
  obtain ⟨he, K', hK, hs', hr⟩ := h K _ _ (hs.contain c)
  exact ⟨he, K', hK, hs', fun F r r' hF hrr => hr F r r' hF { hrr with }⟩

/-- A site goes to what comes after it. -/
theorem site {c c' : Site → StateM Hoist.State α} {w : Site → α → StateM Resolve.State α}
    (h : ∀ site, Alongside T (c site) (c' site) (w site)) :
    Alongside (fun f z => (z.1, T f z.2)) (Hoist.fresh >>= fun site => c site >>= fun y => pure (site, y))
      (Hoist.fresh >>= fun site => c' site >>= fun y => pure (site, y))
      (fun z => w z.1 z.2 >>= fun y => pure (z.1, y)) := by
  intro K s s' hs
  obtain ⟨hsite, hs⟩ := hs.fresh
  obtain ⟨he, K', hK, hs', hr⟩ := h (Hoist.fresh s).1 K _ _ hs
  simp only [run_bind, run_pure, hsite, he]
  refine ⟨trivial, K', hK, hs', fun F r r' hF hrr => ?_⟩
  obtain ⟨h₁, h₂⟩ := hr F r r' hF { hrr with }
  rw [h₁]
  exact ⟨rfl, h₂⟩

theorem declare {f : Ident → Ident} (hf : ∀ id, (f id).name = id.name) (inHead : Bool) (id : Ident)
    (kind : BindingKind) (origin : Site → Origin) :
    Alongside (fun f id => f id) (Hoist.declare inHead id kind origin) (Hoist.declare inHead (f id) kind origin)
      Resolve.declare := by
  intro K s s' hs
  obtain ⟨he, hs'⟩ := hs.declare inHead (hf id) kind origin
  refine ⟨he, K, List.prefix_refl K, hs', fun F r r' _ hrr => ?_⟩
  exact (hrr.declare (Hoist.declare_mark ..)).imp_right fun h =>
    h.resize (Hoist.declare_size ..) (Hoist.declare_size ..)

theorem refer {f : Ident → Ident} (hf : ∀ id, (f id).name = id.name) (writing : Bool) (id : Ident) :
    Alongside (fun f id => f id) (Hoist.number id) (Hoist.number (f id)) (Resolve.refer writing) := by
  intro K s s' hs
  obtain ⟨hsite, hs'⟩ := hs.fresh
  refine ⟨?_, K, List.prefix_refl K, hs', fun F r r' _ hrr => (hrr.refer writing _).imp_right fun h => { h with }⟩
  simp only [Hoist.number, run_bind, run_pure, hsite, hf]
  rfl

theorem exportName {f : Ident → Ident} (hf : ∀ id, (f id).name = id.name) (id : Ident) :
    Alongside (fun f id => f id) (Hoist.number id) (Hoist.number (f id)) Resolve.exportName := by
  intro K s s' hs
  obtain ⟨hsite, hs'⟩ := hs.fresh
  refine ⟨?_, K, List.prefix_refl K, hs', fun F r r' _ hrr => (hrr.exportName _).imp_right fun h => { h with }⟩
  simp only [Hoist.number, run_bind, run_pure, hsite, hf]
  rfl

/-- Names of an exported declaration are looked up by their sites. -/
theorem exportDeclared (h : Alongside T a a' w) (names : α → List Ident) (hn : ∀ z, names (T id z) = names z) :
    Alongside T (a >>= fun z => Hoist.exportDeclared (names z) >>= fun _ => pure z)
      (a' >>= fun z => Hoist.exportDeclared (names z) >>= fun _ => pure z) w := by
  intro K s s' hs
  obtain ⟨he, K', hK, hs', hr⟩ := h K s s' hs
  simp only [run_bind, run_pure, he, hn]
  refine ⟨trivial, K', hK, hs'.exportDeclared _, fun F r r' hF hrr => ?_⟩
  exact (hr F r r' hF hrr).imp_right fun h => h.resize (Hoist.exportDeclared_size ..) (Hoist.exportDeclared_size ..)

/-- A call is told of when its parts have been gone through; the first walk does nothing about it. -/
theorem called (h : Alongside T a a' w) (callee : α → Expr) (hc : ∀ f z, callee (T f z) = (callee z).tidy f) :
    Alongside T (a >>= fun z => Hoist.visitor.callOf (callee z) >>= fun _ => pure z)
      (a' >>= fun z => Hoist.visitor.callOf (callee z) >>= fun _ => pure z)
      (fun z => w z >>= fun y => Resolve.visitor.callOf (callee y) >>= fun _ => pure y) := by
  have hcall (e : Expr) (s : Hoist.State) : (Hoist.visitor.callOf e s).2 = s := by cases e <;> rfl
  intro K s s' hs
  obtain ⟨he, K', hK, hs', hr⟩ := h K s s' hs
  simp only [run_bind, run_pure, hcall]
  refine ⟨he, K', hK, hs', fun F r r' hF hrr => ?_⟩
  obtain ⟨h₁, h₂⟩ := hr F r r' hF hrr
  rw [h₁, hc]
  refine ⟨rfl, ?_⟩
  cases callee (w (a s).1 r).1 with
  | ident id => exact h₂.called id
  | _ => exact h₂

end Alongside

end Deadwood
