import Deadwood.Proofs.Tables
import Mathlib.Logic.Relation
import Mathlib.Data.List.Nodup

/-!
# Graphs and their histories

A graph that is built from the empty one by adding nodes, adding edges and removing nodes is well formed: it has
every node once, and both ends of an edge and the table of weights agree on which edges there are.
-/

namespace Deadwood.Digraph

variable {ν ω : Type} [DecidableEq ν] {g : Digraph ν ω} {a b : ν}

/-! ### Paths -/

/-- An edge leads from `a` to `b`. -/
def Leads (g : Digraph ν ω) (a b : ν) : Prop := b ∈ g.neighbors a

/-- A path, which may have no edge at all, leads from `a` to `b`. -/
def Reaches (g : Digraph ν ω) : ν → ν → Prop := Relation.ReflTransGen g.Leads

theorem Reaches.refl (a : ν) : g.Reaches a a := Relation.ReflTransGen.refl

theorem Reaches.trans {c : ν} (h : g.Reaches a b) (h' : g.Reaches b c) : g.Reaches a c :=
  Relation.ReflTransGen.trans h h'

theorem Leads.reaches (h : g.Leads a b) : g.Reaches a b := Relation.ReflTransGen.single h

/-- What holds of the start of a path and is kept along every edge holds of its end. -/
theorem Reaches.induct {P : ν → Prop} (h : g.Reaches a b) (ha : P a)
    (hstep : ∀ x y, P x → g.Leads x y → P y) : P b := by
  induction h with
  | refl => exact ha
  | tail _ hxy ih => exact hstep _ _ ih hxy

/-! ### Adding nodes -/

theorem nodes_addNode : (g.addNode a).nodes = if g.hasNode a then g.nodes else g.nodes ++ [a] := by
  unfold addNode
  split <;> rfl

theorem sources_addNode : (g.addNode a).sources = g.sources := by
  unfold addNode
  split <;> rfl

theorem weights_addNode : (g.addNode a).weights = g.weights := by
  unfold addNode
  split <;> rfl

theorem hasNode_addNode : (g.addNode a).hasNode b ↔ g.hasNode b ∨ b = a := by
  unfold addNode
  split
  · next ha => exact ⟨Or.inl, fun hb => hb.elim id fun hb => hb ▸ ha⟩
  · by_cases hb : b = a <;> simp [hasNode, hb]

@[simp] theorem neighbors_addNode (c : ν) : (g.addNode c).neighbors a = g.neighbors a := by
  unfold addNode
  split
  · rfl
  · next hc =>
    by_cases ha : a = c
    · subst ha
      have hnone : g.targets.get? a = none := Option.not_isSome_iff_eq_none.1 hc
      simp [neighbors, Table.list, hnone]
    · simp [neighbors, ha]

@[simp] theorem incoming_addNode (c : ν) : (g.addNode c).incoming a = g.incoming a :=
  congrArg (Table.list · a) sources_addNode

@[simp] theorem weight?_addNode (c : ν) : (g.addNode c).weight? a b = g.weight? a b :=
  congrArg (Table.get? · (a, b)) weights_addNode

theorem leads_addNode (c : ν) : (g.addNode c).Leads a b ↔ g.Leads a b := by
  rw [Leads, neighbors_addNode, Leads]

/-! ### Adding edges -/

section AddEdge

variable (w : ω) (c d : ν)

theorem neighbors_connect :
    (g.connect a b).neighbors c = if c = a then g.neighbors a ++ [b] else g.neighbors c := Table.list_set ..

theorem incoming_connect :
    (g.connect a b).incoming c = if c = b then g.incoming b ++ [a] else g.incoming c := Table.list_set ..

theorem nodes_addEdge : (g.addEdge a b w).nodes = ((g.addNode a).addNode b).nodes := by
  unfold addEdge
  dsimp only
  split <;> rfl

theorem hasNode_addEdge : (g.addEdge a b w).hasNode c ↔ g.hasNode c ∨ c = a ∨ c = b := by
  have hends : ((g.addNode a).addNode b).hasNode c ↔ g.hasNode c ∨ c = a ∨ c = b := by
    rw [hasNode_addNode, hasNode_addNode, or_assoc]
  rw [← hends]
  unfold addEdge
  dsimp only
  split
  · exact Iff.rfl
  · -- Where the edge leads is noted under a node that is there.
    have ha : ((g.addNode a).addNode b).hasNode a := by simp [hasNode_addNode]
    by_cases hc : c = a
    · subst hc
      simpa [hasNode, connect] using ha
    · simp [hasNode, connect, hc]

theorem neighbors_addEdge : (g.addEdge a b w).neighbors c =
    if c = a ∧ g.weight? a b = none then g.neighbors c ++ [b] else g.neighbors c := by
  unfold addEdge
  dsimp only
  split
  · next h =>
    rw [weight?_addNode, weight?_addNode] at h
    rw [if_neg fun h' => Option.ne_none_iff_isSome.2 h h'.2]
    exact (neighbors_addNode b).trans (neighbors_addNode a)
  · next h =>
    rw [weight?_addNode, weight?_addNode] at h
    refine (neighbors_connect c).trans ?_
    by_cases hc : c = a <;> simp [hc, Option.not_isSome_iff_eq_none.1 h]

theorem incoming_addEdge : (g.addEdge a b w).incoming c =
    if c = b ∧ g.weight? a b = none then g.incoming c ++ [a] else g.incoming c := by
  unfold addEdge
  dsimp only
  split
  · next h =>
    rw [weight?_addNode, weight?_addNode] at h
    rw [if_neg fun h' => Option.ne_none_iff_isSome.2 h h'.2]
    exact (incoming_addNode b).trans (incoming_addNode a)
  · next h =>
    rw [weight?_addNode, weight?_addNode] at h
    refine (incoming_connect c).trans ?_
    by_cases hc : c = b <;> simp [hc, Option.not_isSome_iff_eq_none.1 h]

theorem weight?_addEdge :
    (g.addEdge a b w).weight? c d = if c = a ∧ d = b then some w else g.weight? c d := by
  have hkept : (if (((g.addNode a).addNode b).weight? a b).isSome then (g.addNode a).addNode b
      else ((g.addNode a).addNode b).connect a b).weights = g.weights := by
    split <;> exact weights_addNode.trans weights_addNode
  unfold addEdge
  refine (Table.get?_set _ (a, b) (c, d) w).trans ?_
  simp only [hkept, Prod.mk.injEq]
  rfl

end AddEdge

/-! ### Removing nodes -/

section Drop

variable (l : List ν) (c d : ν)

/-- A node is taken out of the list of every node that it is dropped from. -/
theorem filter_foldl {drop : Digraph ν ω → ν → Digraph ν ω} (view : Digraph ν ω → ν → List ν)
    (hdrop : ∀ g b, view (drop g b) c = if c = b then (view g b).filter (· ≠ a) else view g c) :
    view (l.foldl drop g) c = if c ∈ l then (view g c).filter (· ≠ a) else view g c := by
  induction l generalizing g with
  | nil => rfl
  | cons b l ih =>
    rw [List.foldl_cons, ih, hdrop]
    by_cases hc : c = b <;> by_cases hl : c ∈ l <;> simp_all

/-- A weight is gone once a node is dropped that it goes with. -/
theorem erase_foldl {drop : Digraph ν ω → ν → Digraph ν ω} {hit : ν → Prop} [DecidablePred hit]
    (hdrop : ∀ g b, (drop g b).weight? c d = if hit b then none else g.weight? c d) :
    (l.foldl drop g).weight? c d = if ∃ b ∈ l, hit b then none else g.weight? c d := by
  induction l generalizing g with
  | nil => simp
  | cons b l ih =>
    rw [List.foldl_cons, ih, hdrop]
    by_cases hb : hit b <;> simp [hb]

theorem nodes_dropSources : (l.foldl (dropSource a) g).nodes = g.nodes := by
  induction l generalizing g with
  | nil => rfl
  | cons b l ih => exact ih

theorem targets_dropSources : (l.foldl (dropSource a) g).targets = g.targets := by
  induction l generalizing g with
  | nil => rfl
  | cons b l ih => exact ih

theorem incoming_dropSources : (l.foldl (dropSource a) g).incoming c =
    if c ∈ l then (g.incoming c).filter (· ≠ a) else g.incoming c :=
  filter_foldl l c incoming fun _ _ => Table.list_set ..

theorem weight?_dropSources : (l.foldl (dropSource a) g).weight? c d =
    if c = a ∧ d ∈ l then none else g.weight? c d := by
  have hdrop (g : Digraph ν ω) (b : ν) :
      (g.dropSource a b).weight? c d = if c = a ∧ d = b then none else g.weight? c d := by
    simp only [← Prod.mk.injEq]
    exact Table.get?_erase ..
  rw [erase_foldl l c d hdrop]
  simp [and_comm]

theorem nodes_dropTargets : (l.foldl (dropTarget a) g).nodes = g.nodes := by
  induction l generalizing g with
  | nil => rfl
  | cons b l ih => exact ih

theorem sources_dropTargets : (l.foldl (dropTarget a) g).sources = g.sources := by
  induction l generalizing g with
  | nil => rfl
  | cons b l ih => exact ih

theorem hasNode_dropTargets : (l.foldl (dropTarget a) g).hasNode c ↔ g.hasNode c ∨ c ∈ l := by
  induction l generalizing g with
  | nil => simp
  | cons b l ih =>
    have hdrop : (g.dropTarget a b).hasNode c ↔ g.hasNode c ∨ c = b := by
      by_cases hc : c = b <;> simp [hasNode, dropTarget, hc]
    rw [List.foldl_cons, ih, hdrop, List.mem_cons, or_assoc]

theorem neighbors_dropTargets : (l.foldl (dropTarget a) g).neighbors c =
    if c ∈ l then (g.neighbors c).filter (· ≠ a) else g.neighbors c :=
  filter_foldl l c neighbors fun _ _ => Table.list_set ..

theorem weight?_dropTargets : (l.foldl (dropTarget a) g).weight? c d =
    if d = a ∧ c ∈ l then none else g.weight? c d := by
  have hdrop (g : Digraph ν ω) (b : ν) :
      (g.dropTarget a b).weight? c d = if c = b ∧ d = a then none else g.weight? c d := by
    simp only [← Prod.mk.injEq]
    exact Table.get?_erase ..
  rw [erase_foldl l c d hdrop]
  simp [and_comm]

end Drop

/-! ### Well-formed graphs -/

theorem filter_ne_of_not_mem {l : List ν} (h : a ∉ l) : l.filter (· ≠ a) = l := by
  refine List.filter_eq_self.2 fun x hx => decide_eq_true ?_
  rintro rfl
  exact h hx

omit [DecidableEq ν] in
theorem nodup_append_singleton {l : List ν} (hl : l.Nodup) (h : a ∉ l) : (l ++ [a]).Nodup :=
  List.concat_eq_append ▸ hl.concat h

/-- The parts of a graph agree with one another. -/
structure WellFormed (g : Digraph ν ω) : Prop where
  nodup : g.nodes.Nodup
  hasNode_iff : ∀ a, g.hasNode a ↔ a ∈ g.nodes
  leads_iff_weight? : ∀ a b, g.Leads a b ↔ (g.weight? a b).isSome
  mem_incoming : ∀ a b, a ∈ g.incoming b ↔ g.Leads a b
  neighbors_nodup : ∀ a, (g.neighbors a).Nodup
  incoming_nodup : ∀ a, (g.incoming a).Nodup
  source_mem : ∀ a b, g.Leads a b → a ∈ g.nodes
  target_mem : ∀ a b, g.Leads a b → b ∈ g.nodes

namespace WellFormed

section

variable (h : g.WellFormed) (c d : ν)

include h

theorem weight?_eq_none : g.weight? c d = none ↔ d ∉ g.neighbors c := by
  rw [← Option.not_isSome_iff_eq_none, ← h.leads_iff_weight?, Leads]

/-- No edge goes from or to what is no node. -/
theorem isolated (ha : ¬ g.hasNode a) (x : ν) : ¬ g.Leads a x ∧ ¬ g.Leads x a :=
  ⟨fun hx => ha ((h.hasNode_iff a).2 (h.source_mem a x hx)), fun hx => ha ((h.hasNode_iff a).2 (h.target_mem x a hx))⟩

/-! The parts of a graph from which a node was removed. -/

theorem nodes_removeNode : (g.removeNode a).nodes = g.nodes.filter (· ≠ a) := by
  unfold removeNode
  split
  · simp only [nodes_dropTargets, nodes_dropSources]
  · next ha =>
    have ha : a ∉ g.nodes := fun hmem => ha ((h.hasNode_iff a).2 hmem)
    exact (filter_ne_of_not_mem ha).symm

/-- The nodes that an edge leads from to `a`, after the edges from `a` are gone. -/
theorem incoming_dropSources_self :
    ((g.neighbors a).foldl (dropSource a) g).incoming a = (g.incoming a).filter (· ≠ a) := by
  rw [incoming_dropSources]
  split
  · rfl
  · next ha =>
    have ha : a ∉ g.incoming a := fun hmem => ha ((h.mem_incoming a a).1 hmem)
    exact (filter_ne_of_not_mem ha).symm

theorem weight?_removeNode :
    (g.removeNode a).weight? c d = if c = a ∨ d = a then none else g.weight? c d := by
  unfold removeNode
  split
  · show (((g.neighbors a).foldl (dropSource a) g).incoming a |>.foldl (dropTarget a) _).weight? c d = _
    rw [h.incoming_dropSources_self, weight?_dropTargets, weight?_dropSources]
    by_cases hedge : d ∈ g.neighbors c
    · have hc : c ∈ g.incoming d := (h.mem_incoming c d).2 hedge
      by_cases hca : c = a <;> by_cases hda : d = a <;> simp_all
    · rw [(h.weight?_eq_none c d).2 hedge]
      simp
  · next ha =>
    split
    · next hcd =>
      rw [h.weight?_eq_none]
      rcases hcd with rfl | rfl
      · exact (h.isolated ha d).1
      · exact (h.isolated ha c).2
    · rfl

theorem neighbors_removeNode :
    (g.removeNode a).neighbors c = if c = a then [] else (g.neighbors c).filter (· ≠ a) := by
  unfold removeNode
  split
  · have herase : ∀ g' : Digraph ν ω, (g'.targets.erase a).list c = if c = a then [] else g'.neighbors c :=
      fun _ => Table.list_erase ..
    refine (herase _).trans ?_
    split
    · rfl
    · next hca =>
      have htargets : ((g.neighbors a).foldl (dropSource a) g).neighbors c = g.neighbors c :=
        congrArg (Table.list · c) (targets_dropSources _)
      rw [h.incoming_dropSources_self, neighbors_dropTargets, htargets]
      split
      · rfl
      · next hc =>
        refine (filter_ne_of_not_mem fun hac => hc ?_).symm
        exact List.mem_filter.2 ⟨(h.mem_incoming c a).2 hac, decide_eq_true hca⟩
  · next ha =>
    split
    · next hc =>
      subst hc
      exact List.eq_nil_iff_forall_not_mem.2 fun x => (h.isolated ha x).1
    · exact (filter_ne_of_not_mem (h.isolated ha c).2).symm

theorem incoming_removeNode :
    (g.removeNode a).incoming c = if c = a then [] else (g.incoming c).filter (· ≠ a) := by
  unfold removeNode
  split
  · have herase : ∀ g' : Digraph ν ω, (g'.sources.erase a).list c = if c = a then [] else g'.incoming c :=
      fun _ => Table.list_erase ..
    refine (herase _).trans ?_
    split
    · rfl
    · next hca =>
      refine (congrArg (Table.list · c) (sources_dropTargets _)).trans ?_
      refine (incoming_dropSources (g.neighbors a) c).trans ?_
      split
      · rfl
      · next hc => exact (filter_ne_of_not_mem fun hac => hc ((h.mem_incoming a c).1 hac)).symm
  · next ha =>
    split
    · next hc =>
      subst hc
      exact List.eq_nil_iff_forall_not_mem.2 fun x hx => (h.isolated ha x).2 ((h.mem_incoming x c).1 hx)
    · exact (filter_ne_of_not_mem fun hac => (h.isolated ha c).1 ((h.mem_incoming a c).1 hac)).symm

theorem hasNode_removeNode : (g.removeNode a).hasNode c ↔ g.hasNode c ∧ c ≠ a := by
  unfold removeNode
  split
  · have herase : ∀ g' : Digraph ν ω, ((g'.targets.erase a).get? c).isSome ↔ g'.hasNode c ∧ c ≠ a := fun g' => by
      rw [Table.get?_erase]
      by_cases hc : c = a <;> simp [hasNode, hc]
    refine (herase _).trans (and_congr_left fun hca => ?_)
    have htargets : ((g.neighbors a).foldl (dropSource a) g).hasNode c = g.hasNode c :=
      congrArg (fun t => (Table.get? t c).isSome) (targets_dropSources _)
    rw [h.incoming_dropSources_self, hasNode_dropTargets, htargets]
    refine or_iff_left_of_imp fun hc => ?_
    exact (h.hasNode_iff c).2 (h.source_mem c a ((h.mem_incoming c a).1 (List.mem_filter.1 hc).1))
  · next ha =>
    refine ⟨fun hc => ⟨hc, ?_⟩, And.left⟩
    rintro rfl
    exact ha hc

end

theorem empty : (empty : Digraph ν ω).WellFormed where
  nodup := List.nodup_nil
  hasNode_iff _ := ⟨nofun, nofun⟩
  leads_iff_weight? _ _ := ⟨nofun, nofun⟩
  mem_incoming _ _ := ⟨nofun, nofun⟩
  neighbors_nodup _ := List.nodup_nil
  incoming_nodup _ := List.nodup_nil
  source_mem _ _ := nofun
  target_mem _ _ := nofun

theorem mem_addNode (h : g.WellFormed) : b ∈ (g.addNode a).nodes ↔ b ∈ g.nodes ∨ b = a := by
  rw [nodes_addNode]
  split
  · next ha => exact ⟨Or.inl, fun hb => hb.elim id fun hb => hb ▸ (h.hasNode_iff a).1 ha⟩
  · simp

theorem addNode (h : g.WellFormed) (a : ν) : (g.addNode a).WellFormed where
  nodup := by
    rw [nodes_addNode]
    split
    · exact h.nodup
    · next ha =>
      exact nodup_append_singleton h.nodup fun hmem => ha ((h.hasNode_iff a).2 hmem)
  hasNode_iff b := by rw [hasNode_addNode, h.mem_addNode, h.hasNode_iff]
  leads_iff_weight? b c := by rw [leads_addNode, weight?_addNode, h.leads_iff_weight?]
  mem_incoming b c := by rw [leads_addNode, incoming_addNode, h.mem_incoming]
  neighbors_nodup b := by rw [neighbors_addNode]; exact h.neighbors_nodup b
  incoming_nodup b := by rw [incoming_addNode]; exact h.incoming_nodup b
  source_mem b c hbc := h.mem_addNode.2 (.inl (h.source_mem b c ((leads_addNode a).1 hbc)))
  target_mem b c hbc := h.mem_addNode.2 (.inl (h.target_mem b c ((leads_addNode a).1 hbc)))

theorem leads_addEdge (h : g.WellFormed) (w : ω) (c d : ν) :
    (g.addEdge a b w).Leads c d ↔ g.Leads c d ∨ c = a ∧ d = b := by
  rw [Leads, neighbors_addEdge]
  split
  · next hc =>
    obtain ⟨rfl, -⟩ := hc
    simp [Leads]
  · next hc =>
    refine ⟨Or.inl, fun hcd => hcd.elim id ?_⟩
    rintro ⟨rfl, rfl⟩
    by_contra hnone
    exact hc ⟨rfl, (h.weight?_eq_none c d).2 hnone⟩

theorem addEdge (h : g.WellFormed) (a b : ν) (w : ω) : (g.addEdge a b w).WellFormed where
  nodup := by
    rw [nodes_addEdge]
    exact ((h.addNode a).addNode b).nodup
  hasNode_iff c := by
    rw [hasNode_addEdge, nodes_addEdge, (h.addNode a).mem_addNode, h.mem_addNode, h.hasNode_iff, or_assoc]
  leads_iff_weight? c d := by
    rw [h.leads_addEdge, weight?_addEdge, h.leads_iff_weight?]
    split
    · next hcd => exact iff_of_true (.inr hcd) rfl
    · next hcd => exact or_iff_left hcd
  mem_incoming c d := by
    rw [h.leads_addEdge, incoming_addEdge]
    split
    · next hd =>
      obtain ⟨rfl, -⟩ := hd
      rw [List.mem_append, h.mem_incoming, List.mem_singleton, and_iff_left rfl]
    · next hd =>
      rw [h.mem_incoming]
      refine (or_iff_left_of_imp ?_).symm
      rintro ⟨rfl, rfl⟩
      by_contra hnone
      exact hd ⟨rfl, (h.weight?_eq_none c d).2 hnone⟩
  neighbors_nodup c := by
    rw [neighbors_addEdge]
    split
    · next hc =>
      obtain ⟨rfl, hnone⟩ := hc
      exact nodup_append_singleton (h.neighbors_nodup c) ((h.weight?_eq_none c b).1 hnone)
    · exact h.neighbors_nodup c
  incoming_nodup c := by
    rw [incoming_addEdge]
    split
    · next hc =>
      obtain ⟨rfl, hnone⟩ := hc
      refine nodup_append_singleton (h.incoming_nodup c) fun hac => ?_
      exact (h.weight?_eq_none a c).1 hnone ((h.mem_incoming a c).1 hac)
    · exact h.incoming_nodup c
  source_mem c d hcd := by
    rw [nodes_addEdge, (h.addNode a).mem_addNode, h.mem_addNode]
    rcases (h.leads_addEdge w c d).1 hcd with hcd | ⟨rfl, -⟩
    · exact .inl (.inl (h.source_mem c d hcd))
    · exact .inl (.inr rfl)
  target_mem c d hcd := by
    rw [nodes_addEdge, (h.addNode a).mem_addNode, h.mem_addNode]
    rcases (h.leads_addEdge w c d).1 hcd with hcd | ⟨-, rfl⟩
    · exact .inl (.inl (h.target_mem c d hcd))
    · exact .inr rfl

theorem leads_removeNode (h : g.WellFormed) (c d : ν) :
    (g.removeNode a).Leads c d ↔ g.Leads c d ∧ c ≠ a ∧ d ≠ a := by
  rw [Leads, h.neighbors_removeNode]
  by_cases hc : c = a <;> simp [Leads, hc]

theorem removeNode (h : g.WellFormed) (a : ν) : (g.removeNode a).WellFormed where
  nodup := by
    rw [h.nodes_removeNode]
    exact h.nodup.filter _
  hasNode_iff c := by
    rw [h.hasNode_removeNode, h.nodes_removeNode, h.hasNode_iff, List.mem_filter, decide_eq_true_iff]
  leads_iff_weight? c d := by
    rw [h.leads_removeNode, h.weight?_removeNode, h.leads_iff_weight?]
    by_cases hc : c = a <;> by_cases hd : d = a <;> simp [hc, hd]
  mem_incoming c d := by
    rw [h.leads_removeNode, h.incoming_removeNode, ← h.mem_incoming]
    by_cases hd : d = a <;> simp [hd]
  neighbors_nodup c := by
    rw [h.neighbors_removeNode]
    split
    · exact List.nodup_nil
    · exact (h.neighbors_nodup c).filter _
  incoming_nodup c := by
    rw [h.incoming_removeNode]
    split
    · exact List.nodup_nil
    · exact (h.incoming_nodup c).filter _
  source_mem c d hcd := by
    obtain ⟨hcd, hca, -⟩ := (h.leads_removeNode c d).1 hcd
    rw [h.nodes_removeNode]
    exact List.mem_filter.2 ⟨h.source_mem c d hcd, decide_eq_true hca⟩
  target_mem c d hcd := by
    obtain ⟨hcd, -, hda⟩ := (h.leads_removeNode c d).1 hcd
    rw [h.nodes_removeNode]
    exact List.mem_filter.2 ⟨h.target_mem c d hcd, decide_eq_true hda⟩

end WellFormed

/-! ### Changes -/

/-- A change to a graph. -/
inductive Change (ν ω : Type)
  | addNode (a : ν)
  | addEdge (a b : ν) (weight : ω)
  | removeNode (a : ν)
deriving DecidableEq, Repr

def Change.apply (g : Digraph ν ω) : Change ν ω → Digraph ν ω
  | addNode a => g.addNode a
  | addEdge a b w => g.addEdge a b w
  | removeNode a => g.removeNode a

/-- The graph that is built from the empty one by changes. -/
def ofChanges (changes : List (Change ν ω)) : Digraph ν ω := changes.foldl Change.apply .empty

theorem WellFormed.apply (h : g.WellFormed) (c : Change ν ω) : (c.apply g).WellFormed := by
  cases c with
  | addNode a => exact h.addNode a
  | addEdge a b w => exact h.addEdge a b w
  | removeNode a => exact h.removeNode a

theorem wellFormed_ofChanges (changes : List (Change ν ω)) : (ofChanges changes).WellFormed := by
  suffices h : ∀ g : Digraph ν ω, g.WellFormed → (changes.foldl Change.apply g).WellFormed from
    h _ WellFormed.empty
  induction changes with
  | nil => exact fun _ hg => hg
  | cons c changes ih => exact fun g hg => ih _ (hg.apply c)

end Deadwood.Digraph
