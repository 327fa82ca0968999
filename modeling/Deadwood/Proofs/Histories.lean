import Deadwood.Proofs.Digraphs
import Mathlib.Data.List.Induction

/-!
# What is left of a history

A graph that is built by changes shows what of its history still counts.  Its nodes are those that were put in
and not taken out since, in the order in which they came to stay; an edge has the weight that it was given last,
if neither of its ends was taken out since.
-/

namespace Deadwood

/-! ### Since -/

section Since

variable {α : Type} {P Q : α → Prop} {l : List α} {x : α}

/-- A list has an element with `P`, and none with `Q` after it. -/
def Since (P Q : α → Prop) (l : List α) : Prop := ∃ pre x post, l = pre ++ x :: post ∧ P x ∧ ∀ y ∈ post, ¬ Q y

theorem not_since_nil : ¬ Since P Q [] := by
  rintro ⟨pre, x, post, h, -⟩
  simp at h

theorem since_concat : Since P Q (l ++ [x]) ↔ P x ∨ Since P Q l ∧ ¬ Q x := by
  constructor
  · rintro ⟨pre, y, post, h, hy, hpost⟩
    rcases List.eq_nil_or_concat post with rfl | ⟨post, z, rfl⟩
    · obtain ⟨-, hxy⟩ := List.append_inj' h rfl
      cases hxy
      exact .inl hy
    · rw [List.concat_eq_append, ← List.cons_append, ← List.append_assoc] at h
      obtain ⟨rfl, hxz⟩ := List.append_inj' h rfl
      cases hxz
      rw [List.concat_eq_append] at hpost
      exact .inr ⟨⟨pre, y, post, rfl, hy, fun z hz => hpost z (List.mem_append_left _ hz)⟩, hpost x (by simp)⟩
  · rintro (hx | ⟨⟨pre, y, post, rfl, hy, hpost⟩, hx⟩)
    · exact ⟨l, x, [], rfl, hx, nofun⟩
    · refine ⟨pre, y, post ++ [x], by simp, hy, fun z hz => ?_⟩
      rcases List.mem_append.1 hz with hz | hz
      · exact hpost z hz
      · cases List.mem_singleton.1 hz
        exact hx

end Since

namespace Digraph

variable {ν ω : Type} [DecidableEq ν] {a b : ν}

/-! ### Nodes -/

/-- What a change does to one node. -/
inductive Event (ν : Type)
  | insert (a : ν)
  | remove (a : ν)

/-- An edge brings in its beginning before its end. -/
def Change.events : Change ν ω → List (Event ν)
  | addNode a => [.insert a]
  | addEdge a b _ => [.insert a, .insert b]
  | removeNode a => [.remove a]

namespace Event

variable {es : List (Event ν)}

/-- A node that is in the list already keeps its place. -/
def apply (l : List ν) : Event ν → List ν
  | insert a => if a ∈ l then l else l ++ [a]
  | remove a => l.filter (· ≠ a)

/-- The node was put in, and not taken out since. -/
def Present (es : List (Event ν)) (a : ν) : Prop := Since (· = insert a) (· = remove a) es

/-- The node `a` was there when `b` came in, and both have stayed since. -/
def Earlier (es : List (Event ν)) (a b : ν) : Prop :=
  ∃ pre post, es = pre ++ insert b :: post ∧ Present pre a ∧ ¬ Present pre b ∧ remove a ∉ post ∧ remove b ∉ post

omit [DecidableEq ν] in
theorem Earlier.concat {e : Event ν} (h : Earlier es a b) (ha : e ≠ remove a) (hb : e ≠ remove b) :
    Earlier (es ++ [e]) a b := by
  obtain ⟨pre, post, rfl, hapre, hbpre, hapost, hbpost⟩ := h
  refine ⟨pre, post ++ [e], by simp, hapre, hbpre, ?_, ?_⟩
  · simpa [hapost] using ha.symm
  · simpa [hbpost] using hb.symm

theorem mem_foldl_apply : a ∈ es.foldl apply [] ↔ Present es a := by
  induction es using List.reverseRecOn with
  | nil => exact iff_of_false List.not_mem_nil not_since_nil
  | append_singleton es e ih =>
    rw [List.foldl_concat, Present, since_concat, ← Present, ← ih]
    cases e with
    | insert b =>
      have hne : insert b ≠ remove a := nofun
      rw [and_iff_left hne, insert.injEq, apply]
      split
      · next hb => exact ⟨Or.inr, fun h => h.elim (fun hba => hba ▸ hb) id⟩
      · rw [List.mem_append, List.mem_singleton, or_comm, eq_comm]
    | remove b =>
      have hne : remove b ≠ insert a := nofun
      rw [or_iff_right hne, remove.injEq, apply, List.mem_filter, decide_eq_true_iff, ne_comm]

theorem pairwise_foldl_apply : (es.foldl apply []).Pairwise (Earlier es) := by
  induction es using List.reverseRecOn with
  | nil => exact List.Pairwise.nil
  | append_singleton es e ih =>
    rw [List.foldl_concat]
    cases e with
    | insert c =>
      have hkept : (es.foldl apply []).Pairwise (Earlier (es ++ [insert c])) :=
        ih.imp fun h => h.concat nofun nofun
      rw [apply]
      split
      · exact hkept
      · next hc =>
        refine List.pairwise_append.2 ⟨hkept, List.pairwise_singleton _ _, fun x hx y hy => ?_⟩
        cases List.mem_singleton.1 hy
        exact ⟨es, [], rfl, mem_foldl_apply.1 hx, mt mem_foldl_apply.2 hc, List.not_mem_nil, List.not_mem_nil⟩
    | remove c =>
      refine (ih.filter _).imp_of_mem fun {x y} hx hy h => h.concat ?_ ?_
      · rintro ⟨⟩
        exact absurd rfl (of_decide_eq_true (List.mem_filter.1 hx).2)
      · rintro ⟨⟩
        exact absurd rfl (of_decide_eq_true (List.mem_filter.1 hy).2)

end Event

/-- The changes of a history as they concern the nodes. -/
def events (changes : List (Change ν ω)) : List (Event ν) := changes.flatMap Change.events

theorem ofChanges_concat (changes : List (Change ν ω)) (c : Change ν ω) :
    ofChanges (changes ++ [c]) = c.apply (ofChanges changes) := List.foldl_concat ..

theorem WellFormed.nodes_addNode_eq {g : Digraph ν ω} (h : g.WellFormed) :
    (g.addNode a).nodes = Event.apply g.nodes (.insert a) := by
  rw [nodes_addNode, Event.apply]
  simp only [h.hasNode_iff]

theorem WellFormed.nodes_apply {g : Digraph ν ω} (h : g.WellFormed) (c : Change ν ω) :
    (c.apply g).nodes = c.events.foldl Event.apply g.nodes := by
  cases c with
  | addNode a => exact h.nodes_addNode_eq
  | addEdge a b w =>
    show (g.addEdge a b w).nodes = Event.apply (Event.apply g.nodes (.insert a)) (.insert b)
    rw [nodes_addEdge, (h.addNode a).nodes_addNode_eq, h.nodes_addNode_eq]
  | removeNode a => exact h.nodes_removeNode

theorem nodes_ofChanges (changes : List (Change ν ω)) :
    (ofChanges changes).nodes = (events changes).foldl Event.apply [] := by
  induction changes using List.reverseRecOn with
  | nil => rfl
  | append_singleton changes c ih =>
    have hevents : events (changes ++ [c]) = events changes ++ c.events := by
      rw [events, List.flatMap_append, List.flatMap_singleton, events]
    rw [ofChanges_concat, (wellFormed_ofChanges changes).nodes_apply, ih, hevents, List.foldl_append]

/-! ### Weights -/

/-- The change settles what weight the edge from `a` to `b` has. -/
def Change.Settles (a b : ν) : Change ν ω → Prop
  | addNode _ => False
  | addEdge c d _ => c = a ∧ d = b
  | removeNode c => c = a ∨ c = b

theorem WellFormed.weight?_apply {g : Digraph ν ω} (h : g.WellFormed) (c : Change ν ω) (a b : ν) (w : ω) :
    (c.apply g).weight? a b = some w ↔ c = .addEdge a b w ∨ g.weight? a b = some w ∧ ¬ c.Settles a b := by
  cases c with
  | addNode c =>
    have hsame : ((Change.addNode c).apply g).weight? a b = g.weight? a b := weight?_addNode c
    simp [hsame, Change.Settles]
  | addEdge c d v =>
    have hnew : ((Change.addEdge c d v).apply g).weight? a b = if a = c ∧ b = d then some v else g.weight? a b :=
      weight?_addEdge v a b
    rw [hnew, Change.Settles, Change.addEdge.injEq]
    by_cases hends : a = c ∧ b = d
    · obtain ⟨rfl, rfl⟩ := hends
      simp
    · have hends' : ¬ (c = a ∧ d = b) := fun h' => hends ⟨h'.1.symm, h'.2.symm⟩
      rw [if_neg hends, and_iff_left hends', or_iff_right fun h' => hends' ⟨h'.1, h'.2.1⟩]
  | removeNode c =>
    have hgone : ((Change.removeNode c).apply g).weight? a b = if a = c ∨ b = c then none else g.weight? a b :=
      h.weight?_removeNode a b
    have hne : Change.removeNode c ≠ .addEdge a b w := by
      rintro ⟨⟩
    rw [hgone, Change.Settles, or_iff_right hne]
    simp only [eq_comm (a := c)]
    by_cases hends : a = c ∨ b = c <;> simp [hends]

theorem weight?_ofChanges (changes : List (Change ν ω)) (a b : ν) (w : ω) :
    (ofChanges changes).weight? a b = some w ↔ Since (· = .addEdge a b w) (Change.Settles a b) changes := by
  induction changes using List.reverseRecOn with
  | nil => exact iff_of_false nofun not_since_nil
  | append_singleton changes c ih =>
    rw [ofChanges_concat, (wellFormed_ofChanges changes).weight?_apply, since_concat, ih]

/-- The parts of a graph agree with one another and with its history, whatever that was.  The nodes are those that
were put in and not taken out since, each once and in the order in which they came to stay.  Both ends of an edge
and its weight tell of it, each of them once, and only of nodes of the graph.  The weight is the one that the edge
was given last, if none of its ends was taken out since. -/
theorem ofChanges_consistent (changes : List (Change ν ω)) :
    let g := ofChanges changes
    (g.nodes.Nodup ∧ (∀ a, a ∈ g.nodes ↔ Event.Present (events changes) a) ∧
        g.nodes.Pairwise (Event.Earlier (events changes))) ∧
      (∀ a b, (b ∈ g.neighbors a ↔ a ∈ g.incoming b) ∧ (b ∈ g.neighbors a ↔ (g.weight? a b).isSome)) ∧
      (∀ a, (g.neighbors a).Nodup ∧ (g.incoming a).Nodup ∧ g.neighbors a ⊆ g.nodes ∧ g.incoming a ⊆ g.nodes) ∧
      ∀ a b w, g.weight? a b = some w ↔ Since (· = .addEdge a b w) (Change.Settles a b) changes := by
  intro g
  have hg : g.WellFormed := wellFormed_ofChanges changes
  have hnodes : g.nodes = (events changes).foldl Event.apply [] := nodes_ofChanges changes
  refine ⟨⟨hg.nodup, fun a => ?_, ?_⟩, fun a b => ?_, fun a => ?_, weight?_ofChanges changes⟩
  · rw [hnodes]
    exact Event.mem_foldl_apply
  · rw [hnodes]
    exact Event.pairwise_foldl_apply
  · exact ⟨(hg.mem_incoming a b).symm, hg.leads_iff_weight? a b⟩
  · refine ⟨hg.neighbors_nodup a, hg.incoming_nodup a, fun b hb => hg.target_mem a b hb, fun b hb => ?_⟩
    exact hg.source_mem b a ((hg.mem_incoming b a).1 hb)

end Digraph

end Deadwood
