import Deadwood.Graph.Component
import Deadwood.Proofs.Digraphs
import Mathlib.Data.List.Basic

/-!
# The components that the search finds

The nodes that the search has come across fall into three kinds: those whose component is complete, those
that it is still busy with, and those on the stack that it has come back from.  `Sane` says what holds of
the three at every moment, and `Explored` what the search from one node adds.  From these it follows that
the components divide the nodes, that two nodes share a component exactly if there are paths both ways
between them, and that no edge leads from a component to a later one.
-/

namespace Deadwood.Digraph

variable {ν ω : Type} [DecidableEq ν] {g : Digraph ν ω} {s t u : Search ν} {a b x y : ν} {low : Nat}
  {busy : List ν}

namespace Search

/-! ### Numbers -/

/-- The search has come across `x`. -/
def Found (s : Search ν) (x : ν) : Prop := (s.index? x).isSome

instance (s : Search ν) (x : ν) : Decidable (s.Found x) := inferInstanceAs (Decidable (_ = true))

/-- The number of a node that the search has come across. -/
def number (s : Search ν) (x : ν) : Nat := (s.index? x).getD 0

theorem index?_eq_some_iff {n : Nat} : s.index? x = some n ↔ s.Found x ∧ s.number x = n := by
  unfold Found number
  cases s.index? x <;> simp

theorem index?_eq_none_iff : s.index? x = none ↔ ¬ s.Found x := by
  unfold Found
  cases s.index? x <;> simp

theorem ne_of_found (hx : s.Found x) (ha : ¬ s.Found a) : x ≠ a := fun h => ha (h ▸ hx)

theorem index?_discover : (s.discover a).index? x = if x = a then some s.index.length else s.index? x := by
  unfold index? discover
  by_cases h : x = a
  · subst h
    simp
  · rw [if_neg h, List.lookup_cons, beq_false_of_ne h]

theorem found_discover : (s.discover a).Found x ↔ x = a ∨ s.Found x := by
  unfold Found
  rw [index?_discover]
  by_cases h : x = a <;> simp [h]

theorem number_discover_self : (s.discover a).number a = s.index.length := by
  rw [number, index?_discover, if_pos rfl, Option.getD_some]

theorem number_discover (h : x ≠ a) : (s.discover a).number x = s.number x := by
  rw [number, index?_discover, if_neg h, number]

/-- The search has gone on from `s` to `t`: numbers are kept and new ones are larger. -/
structure Later (s t : Search ν) : Prop where
  length : s.index.length ≤ t.index.length
  found : ∀ {x}, s.Found x → t.Found x
  number : ∀ {x}, s.Found x → t.number x = s.number x
  fresh : ∀ {x}, t.Found x → ¬ s.Found x → s.index.length ≤ t.number x

namespace Later

theorem refl (s : Search ν) : s.Later s :=
  ⟨Nat.le_refl _, id, fun _ => rfl, fun h hn => absurd h hn⟩

theorem trans (h : s.Later t) (h' : t.Later u) : s.Later u where
  length := Nat.le_trans h.length h'.length
  found hx := h'.found (h.found hx)
  number hx := (h'.number (h.found hx)).trans (h.number hx)
  fresh {x} hx hn := by
    by_cases hxt : t.Found x
    · exact h'.number hxt ▸ h.fresh hxt hn
    · exact Nat.le_trans h.length (h'.fresh hx hxt)

theorem discover (h : ¬ s.Found a) : s.Later (s.discover a) where
  length := Nat.le_succ _
  found hx := found_discover.2 (.inr hx)
  number {x} hx := number_discover (ne_of_found hx h)
  fresh {x} hx hn := by
    rcases found_discover.1 hx with rfl | hx
    · exact Nat.le_of_eq number_discover_self.symm
    · exact absurd hx hn

theorem complete (s : Search ν) (a : ν) : s.Later (s.complete a) :=
  ⟨Nat.le_refl _, id, fun _ => rfl, fun h hn => absurd h hn⟩

end Later

end Search

open Search

/-! ### One step of the search -/

/-- Goes along one edge to `b`; `acc` holds the least number come across so far. -/
def follow (g : Digraph ν ω) (bound : Nat) (acc : Nat × Search ν) (b : ν) : Nat × Search ν :=
  match acc.2.index? b with
  | none => (min acc.1 (g.visit bound b acc.2).1, (g.visit bound b acc.2).2)
  | some n => (if acc.2.stack.contains b then min acc.1 n else acc.1, acc.2)

/-- Leaves a node after all of its edges. -/
def leave (a : ν) (number low : Nat) (s : Search ν) : Nat × Search ν :=
  (low, if low = number then s.complete a else s)

theorem visit_succ (g : Digraph ν ω) (bound : Nat) (a : ν) (s : Search ν) :
    g.visit (bound + 1) a s =
      leave a s.index.length ((g.neighbors a).foldl (g.follow bound) (s.index.length, s.discover a)).1
        ((g.neighbors a).foldl (g.follow bound) (s.index.length, s.discover a)).2 := rfl

/-- The components that are found by a search whose depth is bounded. -/
def componentsWithin (g : Digraph ν ω) (bound : Nat) : List (List ν) :=
  (g.nodes.foldl (fun s a => if (s.index? a).isSome then s else (g.visit bound a s).2) Search.empty).components

theorem components_eq (g : Digraph ν ω) : g.components = g.componentsWithin g.nodes.length := rfl

/-! ### The bound -/

/-- The number of nodes that the search has not come across. -/
def unfound (g : Digraph ν ω) (s : Search ν) : Nat := g.nodes.countP fun x => ¬ s.Found x

theorem unfound_anti (h : s.Later t) : g.unfound t ≤ g.unfound s :=
  List.countP_mono_left fun x _ hx => by
    simp only [decide_not, Bool.not_eq_true', decide_eq_false_iff_not] at hx ⊢
    exact fun hs => hx (h.found hs)

theorem unfound_discover (ha : a ∈ g.nodes) (hn : ¬ s.Found a) : g.unfound (s.discover a) < g.unfound s := by
  obtain ⟨l, r, hlr⟩ := List.append_of_mem ha
  have hmono (l : List ν) : (l.countP fun x => ¬ (s.discover a).Found x) ≤ l.countP fun x => ¬ s.Found x :=
    List.countP_mono_left fun x _ hx => by
      simp only [decide_not, Bool.not_eq_true', decide_eq_false_iff_not] at hx ⊢
      exact fun hs => hx (found_discover.2 (.inr hs))
  have hl := hmono l
  have hr := hmono r
  have hnew : (s.discover a).Found a := found_discover.2 (.inl rfl)
  simp only [unfound, hlr, List.countP_append, List.countP_cons, hnew, hn, not_true_eq_false, not_false_eq_true,
    decide_false, decide_true, if_true, Bool.false_eq_true, if_false]
  omega

theorem Search.Later.leave (n low : Nat) (s : Search ν) : s.Later (leave a n low s).2 := by
  unfold Digraph.leave
  dsimp only
  split
  · exact Later.complete s a
  · exact Later.refl s

/-- Going along edges leads on if searching from new nodes does. -/
theorem follow_later {bound : Nat} (h : ∀ {b : ν} {s : Search ν}, ¬ s.Found b → s.Later (g.visit bound b s).2)
    (acc : Nat × Search ν) (b : ν) : acc.2.Later (g.follow bound acc b).2 := by
  unfold follow
  split
  · next hb => exact h (index?_eq_none_iff.1 hb)
  · exact Later.refl _

theorem visit_later (bound : Nat) : ∀ {a : ν} {s : Search ν}, ¬ s.Found a → s.Later (g.visit bound a s).2 := by
  induction bound with
  | zero => exact fun _ => Later.refl _
  | succ bound ih =>
    intro a s ha
    have hfold (l : List ν) (acc : Nat × Search ν) : acc.2.Later (l.foldl (g.follow bound) acc).2 := by
      induction l generalizing acc with
      | nil => exact Later.refl _
      | cons b l ihl => exact (follow_later ih acc b).trans (ihl _)
    rw [visit_succ]
    exact ((Later.discover ha).trans (hfold (g.neighbors a) (s.index.length, s.discover a))).trans
      (Later.leave _ _ _)

/-- A bound that is not below the number of nodes left makes no difference. -/
theorem visit_bound (hg : g.WellFormed) (m : Nat) : ∀ {n : Nat} {a : ν} {s : Search ν}, a ∈ g.nodes → ¬ s.Found a →
    g.unfound s ≤ m → g.unfound s ≤ n → g.visit m a s = g.visit n a s := by
  induction m with
  | zero =>
    intro n a s ha hn hm
    have := unfound_discover ha hn
    omega
  | succ m ih =>
    intro n a s ha hn hm hle
    have hlt := unfound_discover ha hn
    cases n with
    | zero => omega
    | succ n =>
      have hfold (l : List ν) (hl : ∀ b ∈ l, b ∈ g.nodes) (acc : Nat × Search ν)
          (hacc : g.unfound acc.2 ≤ g.unfound (s.discover a)) :
          l.foldl (g.follow m) acc = l.foldl (g.follow n) acc := by
        induction l generalizing acc with
        | nil => rfl
        | cons b l ihl =>
          have hb : g.follow m acc b = g.follow n acc b := by
            unfold follow
            split
            · next hb =>
              rw [ih (hl b List.mem_cons_self) (index?_eq_none_iff.1 hb) (by omega) (by omega : _ ≤ n)]
            · rfl
          rw [List.foldl_cons, List.foldl_cons, hb]
          exact ihl (fun b hb => hl b (List.mem_cons_of_mem _ hb)) _
            (Nat.le_trans (unfound_anti (follow_later (visit_later n) acc b)) hacc)
      rw [visit_succ, visit_succ, hfold _ (fun b hb => hg.target_mem a b hb) _ (Nat.le_refl _)]

theorem componentsWithin_eq (hg : g.WellFormed) {bound : Nat} (h : g.nodes.length ≤ bound) :
    g.componentsWithin bound = g.components := by
  have hunfound (s : Search ν) : g.unfound s ≤ g.nodes.length := List.countP_le_length
  rw [components_eq, componentsWithin, componentsWithin]
  refine congrArg Search.components (List.foldl_ext _ _ _ fun s a ha => ?_)
  split
  · rfl
  · next hn => rw [visit_bound hg bound ha hn (Nat.le_trans (hunfound s) h) (hunfound s)]

/-! ### Invariants -/

/-- Every component is strongly connected, and edges lead from it only to itself and to those before it. -/
def Settled (g : Digraph ν ω) (comps : List (List ν)) : Prop :=
  ∀ pre c post, comps = pre ++ c :: post →
    c ≠ [] ∧ (∀ x ∈ c, ∀ y ∈ c, g.Reaches x y) ∧ ∀ x ∈ c, ∀ y, g.Leads x y → y ∈ c ∨ y ∈ pre.flatten

/-- What holds while the search is busy with some nodes. -/
structure Sane (g : Digraph ν ω) (busy : List ν) (s : Search ν) : Prop where
  lt : ∀ {x}, s.Found x → s.number x < s.index.length
  inj : ∀ {x y}, s.Found x → s.Found y → s.number x = s.number y → x = y
  mem : ∀ {x}, s.Found x → x ∈ g.nodes
  found_iff : ∀ {x}, s.Found x ↔ x ∈ s.stack ∨ x ∈ s.components.flatten
  nodup : (s.stack ++ s.components.flatten).Nodup
  settled : g.Settled s.components
  busy_mem : ∀ p ∈ busy, p ∈ s.stack
  /-- From the stack a path leads back to a busy node. -/
  back : ∀ x ∈ s.stack, ∃ p ∈ busy, g.Reaches x p ∧ s.number p ≤ s.number x
  /-- A busy node reaches what was put on the stack after it. -/
  forth : ∀ p ∈ busy, ∀ x ∈ s.stack, s.number p ≤ s.number x → g.Reaches p x
  /-- Nothing is left to find along the edges of a node that the search has come back from. -/
  left : ∀ x ∈ s.stack, x ∉ busy → ∀ y, g.Leads x y → s.Found y

/-- The search from `a` in the state `s` has led to the state `t`, and come across the number `low`. -/
structure Explored (g : Digraph ν ω) (busy : List ν) (s : Search ν) (a : ν) (low : Nat) (t : Search ν) : Prop where
  sane : g.Sane busy t
  later : s.Later t
  found : t.Found a
  stack : ∃ new, t.stack = new ++ s.stack ∧ ∀ x ∈ new, ¬ s.Found x
  reached : a ∉ t.stack ∧ low = s.index.length ∨ ∃ y ∈ s.stack, low = s.number y ∧ g.Reaches a y
  least : ∀ x ∈ t.stack, ¬ s.Found x → ∀ y ∈ s.stack, g.Leads x y → low ≤ s.number y

/-- The search has gone along edges from `a` to the nodes `ends`, and led from the state `s`, in which `a` was
new, to the state `t`. -/
structure Exploring (g : Digraph ν ω) (busy : List ν) (s : Search ν) (a : ν) (ends : List ν) (low : Nat)
    (t : Search ν) : Prop where
  sane : g.Sane (a :: busy) t
  later : (s.discover a).Later t
  stack : ∃ new, t.stack = new ++ a :: s.stack ∧ ∀ x ∈ new, ¬ (s.discover a).Found x
  reached : ∃ y ∈ a :: s.stack, low = t.number y ∧ g.Reaches a y
  least : ∀ x ∈ t.stack, ¬ (s.discover a).Found x → ∀ y ∈ a :: s.stack, g.Leads x y → low ≤ t.number y
  ends : ∀ b ∈ ends, t.Found b ∧ (b ∈ t.stack → low ≤ t.number b)

/-! ### Discovering a node -/

theorem Settled.nil : g.Settled [] := fun pre c post h => by simp at h

theorem Sane.empty : g.Sane [] Search.empty where
  lt := nofun
  inj := nofun
  mem := nofun
  found_iff := by simp [Found, index?, Search.empty]
  nodup := List.nodup_nil
  settled := .nil
  busy_mem := nofun
  back := nofun
  forth := nofun
  left := nofun

/-- The number of a node on the stack is smaller than that of a new one. -/
theorem Sane.number_lt_of_mem (h : g.Sane busy s) (hx : x ∈ s.stack) : s.number x < s.index.length :=
  h.lt (h.found_iff.2 (.inl hx))

theorem Sane.found_of_mem (h : g.Sane busy s) (hx : x ∈ s.stack) : s.Found x := h.found_iff.2 (.inl hx)

theorem Sane.ne_of_mem (h : g.Sane busy s) (ha : ¬ s.Found a) (hx : x ∈ s.stack) : x ≠ a :=
  ne_of_found (h.found_of_mem hx) ha

/-- A node to which the busy nodes lead is discovered. -/
theorem Sane.discover (h : g.Sane busy s) (hmem : a ∈ g.nodes) (ha : ¬ s.Found a) (hbusy : ∀ p ∈ busy, g.Reaches p a) :
    g.Sane (a :: busy) (s.discover a) where
  lt {x} hx := by
    rcases found_discover.1 hx with rfl | hx
    · exact Nat.lt_succ_of_le (Nat.le_of_eq number_discover_self)
    · rw [number_discover (ne_of_found hx ha)]
      exact Nat.lt_succ_of_lt (h.lt hx)
  inj {x y} hx hy hxy := by
    have hne {z : ν} (hz : s.Found z) : (s.discover a).number z ≠ (s.discover a).number a := by
      rw [number_discover (ne_of_found hz ha), number_discover_self]
      exact Nat.ne_of_lt (h.lt hz)
    rcases found_discover.1 hx with rfl | hx' <;> rcases found_discover.1 hy with rfl | hy'
    · rfl
    · exact absurd hxy.symm (hne hy')
    · exact absurd hxy (hne hx')
    · rw [number_discover (ne_of_found hx' ha), number_discover (ne_of_found hy' ha)] at hxy
      exact h.inj hx' hy' hxy
  mem {x} hx := by
    rcases found_discover.1 hx with rfl | hx
    · exact hmem
    · exact h.mem hx
  found_iff {x} := by
    rw [found_discover, h.found_iff, ← or_assoc, ← List.mem_cons]
    rfl
  nodup := List.nodup_cons.2 ⟨fun hmem => ha (h.found_iff.2 (List.mem_append.1 hmem)), h.nodup⟩
  settled := h.settled
  busy_mem p hp := by
    rcases List.mem_cons.1 hp with rfl | hp
    · exact List.mem_cons_self
    · exact List.mem_cons_of_mem _ (h.busy_mem p hp)
  back x hx := by
    rcases List.mem_cons.1 hx with rfl | hx
    · exact ⟨x, List.mem_cons_self, .refl x, Nat.le_refl _⟩
    · obtain ⟨p, hp, hxp, hle⟩ := h.back x hx
      refine ⟨p, List.mem_cons_of_mem _ hp, hxp, ?_⟩
      rwa [number_discover (h.ne_of_mem ha hx), number_discover (h.ne_of_mem ha (h.busy_mem p hp))]
  forth p hp x hx hle := by
    rcases List.mem_cons.1 hx with rfl | hx'
    · rcases List.mem_cons.1 hp with rfl | hp
      · exact .refl p
      · exact hbusy p hp
    · rw [number_discover (h.ne_of_mem ha hx')] at hle
      rcases List.mem_cons.1 hp with rfl | hp'
      · rw [number_discover_self] at hle
        exact absurd (h.number_lt_of_mem hx') (Nat.not_lt.2 hle)
      · rw [number_discover (h.ne_of_mem ha (h.busy_mem p hp'))] at hle
        exact h.forth p hp' x hx' hle
  left x hx hn y hxy := by
    obtain ⟨hxa, hx'⟩ := not_or.1 (List.mem_cons.not.1 hn)
    have hx := (List.mem_cons.1 hx).resolve_left hxa
    exact found_discover.2 (.inr (h.left x hx hx' y hxy))

theorem Sane.exploring (h : g.Sane busy s) (hmem : a ∈ g.nodes) (ha : ¬ s.Found a) (hbusy : ∀ p ∈ busy, g.Reaches p a) :
    g.Exploring busy s a [] s.index.length (s.discover a) where
  sane := h.discover hmem ha hbusy
  later := .refl _
  stack := ⟨[], rfl, nofun⟩
  reached := ⟨a, List.mem_cons_self, number_discover_self.symm, .refl a⟩
  least _ hx hn := absurd ((h.discover hmem ha hbusy).found_of_mem hx) hn
  ends := nofun

/-! ### Going along an edge -/

namespace Exploring

variable {ends : List ν}

/-- What was on the stack before is on it still, with the numbers it had. -/
theorem number_of_mem (h : g.Exploring busy s a ends low t) (hs : g.Sane busy s) (ha : ¬ s.Found a) (hx : x ∈ s.stack) :
    t.number x = s.number x := by
  rw [h.later.number (found_discover.2 (.inr (hs.found_of_mem hx))), number_discover (hs.ne_of_mem ha hx)]

theorem number_self (h : g.Exploring busy s a ends low t) : t.number a = s.index.length := by
  rw [h.later.number (found_discover.2 (.inl rfl)), number_discover_self]

theorem low_le_number (h : g.Exploring busy s a ends low t) (hs : g.Sane busy s) (ha : ¬ s.Found a) :
    low ≤ s.index.length := by
  obtain ⟨y, hy, rfl, -⟩ := h.reached
  rcases List.mem_cons.1 hy with rfl | hy
  · exact Nat.le_of_eq h.number_self
  · exact h.number_of_mem hs ha hy ▸ Nat.le_of_lt (hs.number_lt_of_mem hy)

/-- A node on the stack with a smaller number than `a` was on it before. -/
theorem mem_of_number_le (h : g.Exploring busy s a ends low t) (hx : x ∈ t.stack) (hlt : t.number x ≤ s.index.length) :
    x ∈ a :: s.stack := by
  obtain ⟨new, hstack, hnew⟩ := h.stack
  rcases List.mem_append.1 (hstack ▸ hx) with hx' | hx'
  · have := h.later.fresh (h.sane.found_of_mem hx) (hnew x hx')
    exact absurd hlt (Nat.not_le.2 this)
  · exact hx'

theorem mem_stack (h : g.Exploring busy s a ends low t) (hx : x ∈ a :: s.stack) : x ∈ t.stack := by
  obtain ⟨new, hstack, -⟩ := h.stack
  exact hstack ▸ List.mem_append_right _ hx

/-- The next edge leads to a node that is found already. -/
theorem found (h : g.Exploring busy s a ends low t) (hs : g.Sane busy s) (ha : ¬ s.Found a) (hab : g.Leads a b)
    (hb : t.Found b) :
    g.Exploring busy s a (b :: ends) (if t.stack.contains b then min low (t.number b) else low) t := by
  have hle : (if t.stack.contains b then min low (t.number b) else low) ≤ low := by
    split
    · exact Nat.min_le_left _ _
    · exact Nat.le_refl _
  refine ⟨h.sane, h.later, h.stack, ?_, fun x hx hn y hy hxy => Nat.le_trans hle (h.least x hx hn y hy hxy), ?_⟩
  · by_cases hlt : t.stack.contains b ∧ t.number b < low
    · obtain ⟨hmem, hlt⟩ := hlt
      refine ⟨b, h.mem_of_number_le (List.contains_iff_mem.1 hmem) ?_, ?_, hab.reaches⟩
      · exact Nat.le_of_lt (Nat.lt_of_lt_of_le hlt (h.low_le_number hs ha))
      · rw [if_pos hmem, Nat.min_eq_right (Nat.le_of_lt hlt)]
    · obtain ⟨y, hy, hlow, hay⟩ := h.reached
      refine ⟨y, hy, ?_, hay⟩
      split
      · next hmem =>
        have := Nat.not_lt.1 fun hlt' => hlt ⟨hmem, hlt'⟩
        rw [Nat.min_eq_left this, hlow]
      · exact hlow
  · intro c hc
    rcases List.mem_cons.1 hc with rfl | hc
    · refine ⟨hb, fun hmem => ?_⟩
      rw [if_pos (List.contains_iff_mem.2 hmem)]
      exact Nat.min_le_right _ _
    · exact ⟨(h.ends c hc).1, fun hmem => Nat.le_trans hle ((h.ends c hc).2 hmem)⟩

/-- The next edge leads to a new node, from which the search has gone on. -/
theorem explored {low' : Nat} (h : g.Exploring busy s a ends low t) (hs : g.Sane busy s) (ha : ¬ s.Found a)
    (hb : ¬ t.Found b) (hab : g.Leads a b) (h' : g.Explored (a :: busy) t b low' u) :
    g.Exploring busy s a (b :: ends) (min low low') u := by
  obtain ⟨new, hstack, hnew⟩ := h.stack
  obtain ⟨new', hstack', hnew'⟩ := h'.stack
  have hnumber : ∀ {x}, x ∈ t.stack → u.number x = t.number x := fun hx =>
    h'.later.number (h.sane.found_of_mem hx)
  have hfound {x : ν} (hx : (s.discover a).Found x) : t.Found x := h.later.found hx
  refine ⟨h'.sane, h.later.trans h'.later, ⟨new' ++ new, ?_, ?_⟩, ?_, ?_, ?_⟩
  · rw [hstack', hstack, List.append_assoc]
  · intro x hx
    rcases List.mem_append.1 hx with hx | hx
    · exact fun hf => hnew' x hx (hfound hf)
    · exact hnew x hx
  · by_cases hlt : low' < low
    · -- A smaller number than those come across so far is that of a node that was on the stack before.
      rw [Nat.min_eq_right (Nat.le_of_lt hlt)]
      have hlow := h.low_le_number hs ha
      rcases h'.reached with ⟨-, hlow'⟩ | ⟨y, hy, hlow', hby⟩
      · have := h.later.length
        have : (s.discover a).index.length = s.index.length + 1 := rfl
        omega
      · refine ⟨y, h.mem_of_number_le hy (by omega), ?_, hab.reaches.trans hby⟩
        rw [hlow', hnumber hy]
    · obtain ⟨y, hy, hlow, hay⟩ := h.reached
      refine ⟨y, hy, ?_, hay⟩
      rw [Nat.min_eq_left (Nat.not_lt.1 hlt), hlow, hnumber (h.mem_stack hy)]
  · intro x hx hn y hy hxy
    rw [hnumber (h.mem_stack hy)]
    by_cases hxt : t.Found x
    · have hx : x ∈ t.stack := by
        rcases List.mem_append.1 (hstack' ▸ hx) with hx | hx
        · exact absurd hxt (hnew' x hx)
        · exact hx
      exact Nat.le_trans (Nat.min_le_left _ _) (h.least x hx hn y hy hxy)
    · exact Nat.le_trans (Nat.min_le_right _ _) (h'.least x hx hxt y (h.mem_stack hy) hxy)
  · intro c hc
    rcases List.mem_cons.1 hc with rfl | hc
    · refine ⟨h'.found, fun hmem => ?_⟩
      -- A node that is new now has a larger number than `a`.
      have := h'.later.fresh h'.found hb
      have := h.later.length
      have : (s.discover a).index.length = s.index.length + 1 := rfl
      have := h.low_le_number hs ha
      omega
    · obtain ⟨hc, hle⟩ := h.ends c hc
      refine ⟨h'.later.found hc, fun hmem => ?_⟩
      have hct : c ∈ t.stack := by
        rcases List.mem_append.1 (hstack' ▸ hmem) with hx | hx
        · exact absurd hc (hnew' c hx)
        · exact hx
      rw [hnumber hct]
      exact Nat.le_trans (Nat.min_le_left _ _) (hle hct)

end Exploring

/-! ### Leaving a node -/

/-- The component of `a` is what was put on the stack since, and `a` itself. -/
theorem complete_eq {rest new : List ν} (hstack : t.stack = new ++ a :: rest) (hnew : a ∉ new) :
    t.complete a = { t with stack := rest, components := t.components ++ [new ++ [a]] } := by
  have hne : ∀ x ∈ new, decide (x ≠ a) = true := fun x hx => decide_eq_true fun hxa => hnew (hxa ▸ hx)
  have htake : t.stack.takeWhile (· ≠ a) = new := by
    rw [hstack, List.takeWhile_append_of_pos hne]
    simp
  have hdrop : t.stack.dropWhile (· ≠ a) = a :: rest := by
    rw [hstack, List.dropWhile_append_of_pos hne]
    simp
  unfold complete
  rw [htake, hdrop, List.tail_cons]

theorem Settled.append {comps : List (List ν)} {c : List ν} (h : g.Settled comps) (hc : c ≠ [])
    (hmutual : ∀ x ∈ c, ∀ y ∈ c, g.Reaches x y)
    (hclosed : ∀ x ∈ c, ∀ y, g.Leads x y → y ∈ c ∨ y ∈ comps.flatten) : g.Settled (comps ++ [c]) := by
  intro pre d post heq
  rcases List.eq_nil_or_concat post with rfl | ⟨post, e, rfl⟩
  · obtain ⟨rfl, hd⟩ := List.append_inj' heq rfl
    cases List.singleton_inj.1 hd
    exact ⟨hc, hmutual, hclosed⟩
  · rw [List.concat_eq_append, ← List.cons_append, ← List.append_assoc] at heq
    exact h pre d post (List.append_inj' heq rfl).1

namespace Exploring

section Leave

variable (hs : g.Sane busy s) (ha : ¬ s.Found a) (h : g.Exploring busy s a (g.neighbors a) low t)

include h

theorem mem_new (hx : x ∈ t.stack) (hn : x ∉ s.stack) : x = a ∨ ¬ (s.discover a).Found x := by
  obtain ⟨new, hstack, hnew⟩ := h.stack
  rcases List.mem_append.1 (hstack ▸ hx) with hx | hx
  · exact .inr (hnew x hx)
  · exact .inl ((List.mem_cons.1 hx).resolve_right hn)

/-- All edges from a node that is left lead to found nodes. -/
theorem left (hx : x ∈ t.stack) (hn : x ∉ busy) (hxy : g.Leads x y) : t.Found y := by
  by_cases hxa : x = a
  · exact (h.ends y (hxa ▸ hxy)).1
  · exact h.sane.left x hx (List.mem_cons.not.2 (not_or.2 ⟨hxa, hn⟩)) y hxy

theorem number_le (hx : x ∈ t.stack) (hn : x ∉ s.stack) : t.number a ≤ t.number x := by
  rcases h.mem_new hx hn with rfl | hnew
  · exact Nat.le_refl _
  · rw [h.number_self]
    exact Nat.le_of_succ_le (h.later.fresh (h.sane.found_of_mem hx) hnew)

include hs ha

/-- Back from a node that was on the stack before, a path leads to a node that was busy before. -/
theorem back (hx : x ∈ s.stack) : ∃ p ∈ busy, g.Reaches x p ∧ t.number p ≤ t.number x := by
  obtain ⟨p, hp, hxp, hle⟩ := h.sane.back x (h.mem_stack (List.mem_cons_of_mem _ hx))
  refine ⟨p, (List.mem_cons.1 hp).resolve_left fun hpa => ?_, hxp, hle⟩
  rw [hpa, h.number_self, h.number_of_mem hs ha hx] at hle
  exact absurd (hs.number_lt_of_mem hx) (Nat.not_lt.2 hle)

/-- An edge from what is new on the stack to what was on it before leads to no smaller number than the least. -/
theorem least_new (hx : x ∈ t.stack) (hn : x ∉ s.stack) (hy : y ∈ s.stack) (hxy : g.Leads x y) :
    low ≤ s.number y := by
  have hyt := h.mem_stack (List.mem_cons_of_mem _ hy)
  rw [← h.number_of_mem hs ha hy]
  rcases h.mem_new hx hn with rfl | hnew
  · exact (h.ends y hxy).2 hyt
  · exact h.least x hx hnew y (List.mem_cons_of_mem _ hy) hxy

/-- A node that comes across no smaller number than its own completes a component. -/
theorem explored_complete (hbusy : ∀ p ∈ busy, g.Reaches p a) (hlow : low = s.index.length) :
    g.Explored busy s a low (t.complete a) := by
  obtain ⟨new, hstack, hnew⟩ := h.stack
  have hstack' : t.stack = (new ++ [a]) ++ s.stack := hstack.trans (List.append_cons new a s.stack)
  have hnodup := h.sane.nodup
  have hperm : (t.stack ++ t.components.flatten).Perm (s.stack ++ (t.components ++ [new ++ [a]]).flatten) := by
    rw [hstack', List.flatten_append, List.flatten_singleton, ← List.append_assoc, List.append_assoc (new ++ [a])]
    exact List.perm_append_comm
  have hmem {x : ν} : x ∈ new ++ [a] ↔ x ∈ t.stack ∧ x ∉ s.stack := by
    have hdisjoint := (List.nodup_append.1 (hstack' ▸ (List.nodup_append.1 hnodup).1)).2.2
    rw [hstack', List.mem_append (t := s.stack)]
    exact ⟨fun hx => ⟨.inl hx, fun hxs => hdisjoint x hx x hxs rfl⟩, fun ⟨hx, hn⟩ => hx.resolve_right hn⟩
  have hanew : a ∉ new := fun hmem => hnew a hmem (found_discover.2 (.inl rfl))
  have hamem : a ∈ t.stack := h.mem_stack List.mem_cons_self
  -- Paths lead from `a` to every node of its component, and back.
  have hfrom : ∀ x ∈ new ++ [a], g.Reaches a x := fun x hx =>
    h.sane.forth a List.mem_cons_self x (hmem.1 hx).1 (h.number_le (hmem.1 hx).1 (hmem.1 hx).2)
  have hto : ∀ x ∈ new ++ [a], g.Reaches x a := fun x hx => by
    obtain ⟨p, hp, hxp, -⟩ := h.sane.back x (hmem.1 hx).1
    rcases List.mem_cons.1 hp with rfl | hp
    · exact hxp
    · exact hxp.trans (hbusy p hp)
  have hsettled : g.Settled (t.components ++ [new ++ [a]]) := by
    refine h.sane.settled.append (by simp) (fun x hx y hy => (hto x hx).trans (hfrom y hy)) fun x hx y hxy => ?_
    obtain ⟨hxt, hxs⟩ := hmem.1 hx
    have hy := h.left hxt (fun hxb => hxs (hs.busy_mem x hxb)) hxy
    rcases h.sane.found_iff.1 hy with hy | hy
    · refine .inl (hmem.2 ⟨hy, fun hys => ?_⟩)
      have := h.least_new hs ha hxt hxs hys hxy
      have := hs.number_lt_of_mem hys
      omega
    · exact .inr hy
  rw [complete_eq hstack hanew]
  refine ⟨⟨h.sane.lt, h.sane.inj, h.sane.mem, ?_, hperm.nodup_iff.1 hnodup, hsettled, hs.busy_mem, ?_, ?_, ?_⟩, ?_,
    h.sane.found_of_mem hamem, ⟨[], rfl, nofun⟩, .inl ⟨?_, hlow⟩, ?_⟩
  · intro x
    refine h.sane.found_iff.trans ?_
    rw [← List.mem_append, ← List.mem_append]
    exact hperm.mem_iff
  · exact fun x hx => (h.back hs ha hx : ∃ p ∈ busy, g.Reaches x p ∧ t.number p ≤ t.number x)
  · exact fun p hp x hx => h.sane.forth p (List.mem_cons_of_mem _ hp) x (h.mem_stack (List.mem_cons_of_mem _ hx))
  · exact fun x hx hn y hxy => (h.left (h.mem_stack (List.mem_cons_of_mem _ hx)) hn hxy : t.Found y)
  · have hlater := ((Later.discover ha).trans h.later).trans (Later.complete t a)
    rwa [complete_eq hstack hanew] at hlater
  · exact fun hmem => ha (hs.found_of_mem hmem)
  · exact fun x hx hn => absurd (hs.found_of_mem hx) hn

/-- A node that comes across a smaller number stays on the stack. -/
theorem explored_stays (hlow : low ≠ s.index.length) : g.Explored busy s a low t := by
  obtain ⟨new, hstack, hnew⟩ := h.stack
  obtain ⟨y, hy, hylow, hay⟩ := h.reached
  have hys : y ∈ s.stack := (List.mem_cons.1 hy).resolve_left fun hya =>
    hlow (by rw [hylow, hya, h.number_self])
  refine ⟨⟨h.sane.lt, h.sane.inj, h.sane.mem, h.sane.found_iff, h.sane.nodup, h.sane.settled, ?_, ?_, ?_, ?_⟩,
    (Later.discover ha).trans h.later, h.sane.found_of_mem (h.mem_stack List.mem_cons_self), ⟨new ++ [a], ?_, ?_⟩,
    .inr ⟨y, hys, hylow.trans (h.number_of_mem hs ha hys), hay⟩, ?_⟩
  · exact fun p hp => h.sane.busy_mem p (List.mem_cons_of_mem _ hp)
  · intro x hx
    obtain ⟨p, hp, hxp, hle⟩ := h.sane.back x hx
    rcases List.mem_cons.1 hp with rfl | hp
    · -- From `a` the path goes on to an older node, and from there to one that was busy before.
      obtain ⟨q, hq, hyq, hqy⟩ := h.back hs ha hys
      refine ⟨q, hq, (hxp.trans hay).trans hyq, ?_⟩
      have := hs.number_lt_of_mem hys
      have := h.number_of_mem hs ha hys
      have := h.number_self
      omega
    · exact ⟨p, hp, hxp, hle⟩
  · exact fun p hp => h.sane.forth p (List.mem_cons_of_mem _ hp)
  · exact fun x hx hn z hxz => h.left hx hn hxz
  · rw [hstack, List.append_cons]
  · intro x hx hf
    rcases List.mem_append.1 hx with hx | hx
    · exact hnew x hx (found_discover.2 (.inr hf))
    · exact ha (List.mem_singleton.1 hx ▸ hf)
  · exact fun x hx hn z hz hxz => h.least_new hs ha hx (fun hxs => hn (hs.found_of_mem hxs)) hz hxz

end Leave

theorem leave (h : g.Exploring busy s a (g.neighbors a) low t) (hs : g.Sane busy s) (ha : ¬ s.Found a)
    (hbusy : ∀ p ∈ busy, g.Reaches p a) :
    g.Explored busy s a (leave a s.index.length low t).1 (leave a s.index.length low t).2 := by
  unfold Digraph.leave
  dsimp only
  split
  · next hlow => exact h.explored_complete hs ha hbusy hlow
  · next hlow => exact h.explored_stays hs ha hlow

end Exploring

/-! ### The whole search -/

/-- By induction on the depth of the search, and for every node along its edges. -/
theorem visit_explored (hg : g.WellFormed) (bound : Nat) : ∀ {busy : List ν} {a : ν} {s : Search ν},
    g.Sane busy s → a ∈ g.nodes → ¬ s.Found a → (∀ p ∈ busy, g.Reaches p a) → g.unfound s ≤ bound →
    g.Explored busy s a (g.visit bound a s).1 (g.visit bound a s).2 := by
  induction bound with
  | zero =>
    intro busy a s _ hmem ha _ hbound
    have := unfound_discover hmem ha
    omega
  | succ bound ih =>
    intro busy a s hs hmem ha hbusy hbound
    have hlt := unfound_discover hmem ha
    have hfold (l : List ν) (hl : ∀ b ∈ l, g.Leads a b) (ends : List ν) (acc : Nat × Search ν)
        (h : g.Exploring busy s a ends acc.1 acc.2) :
        g.Exploring busy s a (l.reverse ++ ends) (l.foldl (g.follow bound) acc).1
          (l.foldl (g.follow bound) acc).2 := by
      induction l generalizing ends acc with
      | nil => exact h
      | cons b l ihl =>
        have hab := hl b List.mem_cons_self
        rw [List.reverse_cons, List.append_assoc, List.foldl_cons]
        refine ihl (fun b hb => hl b (List.mem_cons_of_mem _ hb)) (b :: ends) _ ?_
        unfold follow
        split
        · next hb =>
          have hb := index?_eq_none_iff.1 hb
          have hleft := unfound_anti (g := g) h.later
          refine h.explored hs ha hb hab (ih h.sane (hg.target_mem a _ hab) hb ?_ (by omega))
          intro p hp
          rcases List.mem_cons.1 hp with rfl | hp
          · exact hab.reaches
          · exact (hbusy p hp).trans hab.reaches
        · next n hb =>
          obtain ⟨hfound, rfl⟩ := index?_eq_some_iff.1 hb
          exact h.found hs ha hab hfound
    have h := hfold (g.neighbors a) (fun _ => id) [] (s.index.length, s.discover a) (hs.exploring hmem ha hbusy)
    rw [visit_succ]
    refine Exploring.leave ⟨h.sane, h.later, h.stack, h.reached, h.least, fun b hb => ?_⟩ hs ha hbusy
    exact h.ends b (by simpa using hb)

/-- Once no node is busy, every node found is in a component. -/
theorem components_sane (hg : g.WellFormed) :
    ∃ t : Search ν, g.components = t.components ∧ g.Sane [] t ∧ ∀ a ∈ g.nodes, t.Found a := by
  have hfold (l : List ν) (hl : ∀ a ∈ l, a ∈ g.nodes) (s : Search ν) (hs : g.Sane [] s) :
      ∃ t, l.foldl (fun s a => if (s.index? a).isSome then s else (g.visit g.nodes.length a s).2) s = t ∧
        g.Sane [] t ∧ s.Later t ∧ ∀ a ∈ l, t.Found a := by
    induction l generalizing s with
    | nil => exact ⟨s, rfl, hs, .refl s, nofun⟩
    | cons a l ih =>
      have hl' : ∀ b ∈ l, b ∈ g.nodes := fun b hb => hl b (List.mem_cons_of_mem _ hb)
      rw [List.foldl_cons]
      by_cases ha : s.Found a
      · obtain ⟨t, ht, hsane, hlater, hfound⟩ := ih hl' s hs
        refine ⟨t, by rw [if_pos (show (s.index? a).isSome = true from ha), ht], hsane, hlater, fun b hb => ?_⟩
        rcases List.mem_cons.1 hb with rfl | hb
        · exact hlater.found ha
        · exact hfound b hb
      · have h := visit_explored hg g.nodes.length hs (hl a List.mem_cons_self) ha nofun List.countP_le_length
        obtain ⟨t, ht, hsane, hlater, hfound⟩ := ih hl' _ h.sane
        refine ⟨t, by rw [if_neg (show ¬ (s.index? a).isSome = true from ha), ht], hsane, h.later.trans hlater, fun b hb => ?_⟩
        rcases List.mem_cons.1 hb with rfl | hb
        · exact hlater.found h.found
        · exact hfound b hb
  obtain ⟨t, ht, hsane, -, hfound⟩ := hfold g.nodes (fun _ => id) Search.empty .empty
  exact ⟨t, congrArg Search.components ht, hsane, hfound⟩

/-! ### Components -/

namespace Settled

variable {comps pre post : List (List ν)} {c d : List ν}

/-- Paths lead from a component only to itself and to those before it. -/
theorem reaches (h : g.Settled comps) (heq : comps = pre ++ c :: post) (hx : x ∈ c) (hxy : g.Reaches x y) :
    y ∈ (pre ++ [c]).flatten := by
  have hclosed : ∀ z w, z ∈ (pre ++ [c]).flatten → g.Leads z w → w ∈ (pre ++ [c]).flatten := by
    intro z w hz hzw
    obtain ⟨d, hd, hzd⟩ := List.mem_flatten.1 hz
    obtain ⟨l, r, hlr⟩ := List.append_of_mem hd
    have hprefix : comps = l ++ d :: (r ++ post) := by
      rw [heq, List.append_cons, hlr, List.append_assoc, List.cons_append]
    rw [hlr, List.append_cons, List.flatten_append, List.mem_append, List.flatten_append, List.mem_append]
    rcases (h _ _ _ hprefix).2.2 z hzd w hzw with hw | hw
    · exact .inl (.inr (List.mem_flatten.2 ⟨d, List.mem_singleton.2 rfl, hw⟩))
    · exact .inl (.inl hw)
  exact hxy.induct (List.mem_flatten.2 ⟨c, by simp, hx⟩) hclosed

omit [DecidableEq ν] in
/-- No node is in two components. -/
theorem not_mem_before (hnodup : comps.flatten.Nodup) (heq : comps = pre ++ c :: post) (hx : x ∈ c) :
    x ∉ pre.flatten := by
  rw [heq, List.flatten_append, List.flatten_cons] at hnodup
  exact fun hmem => (List.nodup_append.1 hnodup).2.2 x hmem x (List.mem_append_left _ hx) rfl

/-- Two nodes share a component exactly if there are paths both ways between them. -/
theorem mem_iff (h : g.Settled comps) (hnodup : comps.flatten.Nodup) (hc : c ∈ comps) (ha : a ∈ c) :
    b ∈ c ↔ g.Reaches a b ∧ g.Reaches b a := by
  obtain ⟨pre, post, heq⟩ := List.append_of_mem hc
  constructor
  · exact fun hb => ⟨(h pre c post heq).2.1 a ha b hb, (h pre c post heq).2.1 b hb a ha⟩
  · rintro ⟨hab, hba⟩
    have hb := h.reaches heq ha hab
    rw [List.flatten_append, List.flatten_singleton, List.mem_append] at hb
    refine hb.resolve_left fun hb => ?_
    -- From an earlier component no path leads back to this one.
    obtain ⟨d, hd, hbd⟩ := List.mem_flatten.1 hb
    obtain ⟨l, r, rfl⟩ := List.append_of_mem hd
    have ha' := h.reaches (heq.trans (by rw [List.append_assoc, List.cons_append])) hbd hba
    refine not_mem_before hnodup heq ha ?_
    rw [List.append_cons, List.flatten_append]
    exact List.mem_append_left _ ha'

/-- No edge leads from a component to a later one. -/
theorem pairwise (h : g.Settled comps) (hnodup : comps.flatten.Nodup) :
    comps.Pairwise fun c d => ∀ a ∈ c, ∀ b ∈ d, ¬ g.Leads a b := by
  refine List.pairwise_iff_getElem.2 fun i j hi hj hij a ha b hb hab => ?_
  have heq : comps = comps.take i ++ comps[i] :: comps.drop (i + 1) := by
    rw [← List.drop_eq_getElem_cons, List.take_append_drop]
  have heq' : comps = comps.take j ++ comps[j] :: comps.drop (j + 1) := by
    rw [← List.drop_eq_getElem_cons, List.take_append_drop]
  refine not_mem_before hnodup heq' hb ?_
  obtain ⟨d, hd, hbd⟩ := List.mem_flatten.1 (h.reaches heq ha hab.reaches)
  refine List.mem_flatten.2 ⟨d, ?_, hbd⟩
  have htake : comps.take i ++ [comps[i]] = comps.take (i + 1) := by simp
  exact (List.take_prefix_take_left (by omega)).subset (htake ▸ hd)

end Settled

namespace WellFormed

variable (hg : g.WellFormed)

include hg

theorem components_settled : g.Settled g.components := by
  obtain ⟨t, ht, hsane, -⟩ := components_sane hg
  exact ht ▸ hsane.settled

theorem components_nodup : g.components.flatten.Nodup := by
  obtain ⟨t, ht, hsane, -⟩ := components_sane hg
  exact ht ▸ (List.nodup_append.1 hsane.nodup).2.1

theorem mem_components : a ∈ g.components.flatten ↔ a ∈ g.nodes := by
  obtain ⟨t, ht, hsane, hfound⟩ := components_sane hg
  have hstack : a ∉ t.stack := fun ha => by
    obtain ⟨p, hp, -⟩ := hsane.back a ha
    cases hp
  rw [ht]
  exact ⟨fun ha => hsane.mem (hsane.found_iff.2 (.inr ha)),
    fun ha => (hsane.found_iff.1 (hfound a ha)).resolve_left hstack⟩

theorem nil_not_mem_components : [] ∉ g.components := fun hnil => by
  obtain ⟨pre, post, heq⟩ := List.append_of_mem hnil
  exact (hg.components_settled pre [] post heq).1 rfl

theorem mem_component_iff {c : List ν} (hc : c ∈ g.components) (ha : a ∈ c) :
    b ∈ c ↔ g.Reaches a b ∧ g.Reaches b a :=
  hg.components_settled.mem_iff hg.components_nodup hc ha

end WellFormed

/-- The components of a graph, however it was built.  The search ends before any bound on its depth that is not
below the number of nodes; every node is in exactly one component, and no component is empty; two nodes share a
component exactly if there are paths both ways between them; and no edge leads from a component to a later
one. -/
theorem components_ofChanges (changes : List (Change ν ω)) :
    let g := ofChanges changes
    (∀ bound, g.nodes.length ≤ bound → g.componentsWithin bound = g.components) ∧
      (g.components.flatten.Nodup ∧ (∀ a, a ∈ g.components.flatten ↔ a ∈ g.nodes) ∧ [] ∉ g.components) ∧
      (∀ c ∈ g.components, ∀ a ∈ c, ∀ b, b ∈ c ↔ g.Reaches a b ∧ g.Reaches b a) ∧
      g.components.Pairwise fun c d => ∀ a ∈ c, ∀ b ∈ d, ¬ g.Leads a b := by
  intro g
  have hg : g.WellFormed := wellFormed_ofChanges changes
  exact ⟨fun bound => componentsWithin_eq hg,
    ⟨hg.components_nodup, fun a => hg.mem_components, hg.nil_not_mem_components⟩,
    fun c hc a ha b => hg.mem_component_iff hc ha, hg.components_settled.pairwise hg.components_nodup⟩

/-- Two nodes on a cycle, one with an edge to itself that they lead to, and one that was removed. -/
theorem components_ofChanges_sample :
    let g : Digraph Nat Nat := ofChanges
      [.addEdge 0 1 1, .addEdge 1 0 1, .addEdge 1 2 1, .addEdge 2 2 1, .addEdge 3 0 1, .removeNode 3]
    g.components = [[2], [1, 0]] ∧ g.componentsWithin 7 = g.components ∧ (g.Reaches 0 1 ∧ g.Reaches 1 0) ∧
      ¬ g.Leads 2 1 := by
  intro g
  have hc : g.components = [[2], [1, 0]] := by decide
  obtain ⟨hbound, -, hmem, hpairwise⟩ := components_ofChanges
    ([.addEdge 0 1 1, .addEdge 1 0 1, .addEdge 1 2 1, .addEdge 2 2 1, .addEdge 3 0 1, .removeNode 3] :
      List (Change Nat Nat))
  refine ⟨hc, hbound 7 (by decide), (hmem [1, 0] (by rw [hc]; decide) 0 (by decide) 1).1 (by decide), ?_⟩
  rw [hc] at hpairwise
  exact (List.pairwise_cons.1 hpairwise).1 [1, 0] (by decide) 2 (by decide) 1 (by decide)

end Deadwood.Digraph
