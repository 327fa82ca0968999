import Deadwood.Graph.Basic

/-!
# Tables

What is put under a key is found there, and nothing is found where it was taken away; other keys are left alone.
-/

namespace Deadwood

/-- Leaving out the entries of a key takes away what is under it and nothing else. -/
theorem lookup_filter_ne {κ α : Type} [BEq κ] [LawfulBEq κ] [DecidableEq κ] (l : List (κ × α)) (k j : κ) :
    (l.filter (·.1 ≠ k)).lookup j = if j = k then none else l.lookup j := by
  induction l with
  | nil => simp
  | cons e l ih =>
    obtain ⟨i, v⟩ := e
    by_cases hi : i = k
    · rw [List.filter_cons_of_neg (by simp [hi]), ih, List.lookup_cons]
      subst hi
      split
      · rfl
      · next hj => rw [beq_eq_false_iff_ne.2 hj]
    · rw [List.filter_cons_of_pos (by simp [hi]), List.lookup_cons, List.lookup_cons, ih]
      by_cases hj : j = i
      · subst hj
        simp [hi]
      · rw [beq_eq_false_iff_ne.2 hj]

namespace Table

variable {κ α : Type} [DecidableEq κ] (t : Table κ α) (k j : κ)

@[simp] theorem get?_empty : (empty : Table κ α).get? k = none := rfl

@[simp] theorem get?_erase : (t.erase k).get? j = if j = k then none else t.get? j :=
  lookup_filter_ne t.entries k j

@[simp] theorem get?_set (v : α) : (t.set k v).get? j = if j = k then some v else t.get? j := by
  show List.lookup j ((k, v) :: (t.erase k).entries) = _
  by_cases h : j = k
  · simp [h]
  · rw [List.lookup_cons, beq_eq_false_iff_ne.2 h, if_neg h]
    exact (get?_erase t k j).trans (if_neg h)

variable (u : Table κ (List α))

@[simp] theorem list_empty : (empty : Table κ (List α)).list k = [] := rfl

@[simp] theorem list_erase : (u.erase k).list j = if j = k then [] else u.list j := by
  unfold list
  rw [get?_erase]
  split <;> rfl

@[simp] theorem list_set (l : List α) : (u.set k l).list j = if j = k then l else u.list j := by
  unfold list
  rw [get?_set]
  split <;> rfl

end Table

end Deadwood
