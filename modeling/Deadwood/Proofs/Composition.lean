import Deadwood.Proofs.Idempotence
import Mathlib.Algebra.BigOperators.Group.List.Basic

/-!
# Runs one after the other

Passes depend on nothing but the program, so a run that its limit has stopped can be taken up again: it goes
on as if there had been no stop.  A run is described by the changes of its passes, `Passes n p css stopped q`, and
what a run reports is read off that description.
-/

namespace Deadwood

namespace Elimination

/-! ### Statistics -/

attribute [ext] Stats

namespace Stats

instance : Zero Stats := ⟨{}⟩

instance : AddCommMonoid Stats where
  add_assoc _ _ _ := by ext <;> exact Nat.add_assoc _ _ _
  zero_add _ := by ext <;> exact Nat.zero_add _
  add_zero _ := by ext <;> exact Nat.add_zero _
  add_comm _ _ := by ext <;> exact Nat.add_comm _ _
  nsmul := nsmulRec

/-- The changes by their rules, without the number of passes. -/
def rewrites (s : Stats) : Stats := { s with iterations := 0 }

theorem rewrites_add (s t : Stats) : (s + t).rewrites = s.rewrites + t.rewrites := rfl

@[simp] theorem rewrites_ofChanges_nil : (ofChanges []).rewrites = 0 := rfl

/-- Every change is counted once. -/
theorem changes_ofChanges (rs : List Change) : (ofChanges rs).changes = rs.length := by
  induction rs with
  | nil => rfl
  | cons r rs ih =>
    simp only [changes, ofChanges, List.countP_cons, List.length_cons, decide_eq_true_eq] at ih ⊢
    cases r.rule <;> simp <;> omega

/-- The statistics of passes that follow each other. -/
def ofPasses (css : List (List Change)) : Stats := (css.map ofChanges).sum

@[simp] theorem ofPasses_nil : ofPasses [] = 0 := rfl

@[simp] theorem ofPasses_cons (rs : List Change) (css : List (List Change)) :
    ofPasses (rs :: css) = ofChanges rs + ofPasses css := by
  rw [ofPasses, List.map_cons, List.sum_cons, ofPasses]

theorem ofPasses_append (css css' : List (List Change)) :
    ofPasses (css ++ css') = ofPasses css + ofPasses css' := by
  rw [ofPasses, List.map_append, List.sum_append, ofPasses, ofPasses]

end Stats

/-! ### Runs as a relation -/

/-- `Passes n p css stopped q` is a run of at most `n` passes from `p` to `q` with the changes `css`, one list for
each pass.  It has been stopped unless its last pass changes nothing. -/
inductive Passes : Nat → Program → List (List Change) → Bool → Program → Prop
  | stop (p : Program) : Passes 0 p [] true p
  | settle {n : Nat} {p q : Program} (h : p.eliminateOnce = some (q, [])) : Passes (n + 1) p [[]] false q
  | step {n : Nat} {p q r : Program} {rs : List Change} {css : List (List Change)} {stopped : Bool}
      (h : p.eliminateOnce = some (q, rs)) (hrs : rs ≠ []) (hrun : Passes n q css stopped r) :
      Passes (n + 1) p (rs :: css) stopped r

namespace Passes

variable {n m : Nat} {p q r : Program} {css css' : List (List Change)} {stopped : Bool}

/-- The last pass of a run that has come to an end. -/
theorem last (h : Passes n p css false q) : ∃ p' : Program, p'.eliminateOnce = some (q, []) := by
  generalize hs : false = stopped at h
  induction h with
  | stop => cases hs
  | settle h => exact ⟨_, h⟩
  | step _ _ _ ih => exact ih hs

/-- A run that is stopped changes the program in every pass. -/
theorem bulk_le (h : Passes n p css true q) : q.bulk + n ≤ p.bulk := by
  generalize hs : true = stopped at h
  induction h with
  | stop => exact Nat.le_refl _
  | settle => cases hs
  | step h hrs _ ih =>
    have hle := Program.eliminateOnce_bulk h
    have hpos := List.length_pos_of_ne_nil hrs
    have hrest := ih hs
    omega

/-- There is no stop where there are more passes than the program has bulk. -/
theorem settled (h : Passes n p css stopped q) (hn : p.bulk < n) : stopped = false := by
  cases stopped with
  | false => rfl
  | true =>
    have hle := h.bulk_le
    omega

/-- A run that has been stopped goes on. -/
theorem append (h : Passes n p css true q) (h' : Passes m q css' stopped r) :
    Passes (n + m) p (css ++ css') stopped r := by
  generalize hs : true = halted at h
  induction h with
  | stop => exact (Nat.zero_add m).symm ▸ h'
  | settle => cases hs
  | step h hrs _ ih =>
    rw [Nat.succ_add]
    exact .step h hrs (ih h' hs)

/-- A run that has come to an end has nothing to do with its limit. -/
theorem extend (h : Passes n p css false q) (hm : n ≤ m) : Passes m p css false q := by
  generalize hs : false = stopped at h
  induction h generalizing m with
  | stop => cases hs
  | settle h =>
    obtain ⟨m, rfl⟩ : ∃ k, m = k + 1 := Nat.exists_eq_add_one.2 (by omega)
    exact .settle h
  | step h hrs _ ih =>
    obtain ⟨m, rfl⟩ : ∃ k, m = k + 1 := Nat.exists_eq_add_one.2 (by omega)
    exact .step h hrs (ih (Nat.le_of_succ_le_succ hm) hs)

/-- A run has ended within its first passes, or it has a stop after them. -/
theorem split (h : Passes (n + m) p css stopped r) :
    Passes n p css false r ∨
      ∃ q css₁ css₂, Passes n p css₁ true q ∧ Passes m q css₂ stopped r ∧ css = css₁ ++ css₂ := by
  induction n generalizing p css with
  | zero => exact .inr ⟨p, [], css, .stop p, Nat.zero_add m ▸ h, rfl⟩
  | succ n ih =>
    rw [Nat.succ_add] at h
    cases h with
    | settle h => exact .inl (.settle h)
    | step h hrs hrun =>
      obtain hend | ⟨q, css₁, css₂, h₁, h₂, rfl⟩ := ih hrun
      · exact .inl (.step h hrs hend)
      · exact .inr ⟨q, _, css₂, .step h hrs h₁, h₂, rfl⟩

/-- Runs from one program are the same. -/
theorem unique {stopped' : Bool} {q' : Program} (h : Passes n p css stopped q) (h' : Passes n p css' stopped' q') :
    css = css' ∧ stopped = stopped' ∧ q = q' := by
  induction h generalizing css' with
  | stop => cases h'; exact ⟨rfl, rfl, rfl⟩
  | settle h =>
    cases h' with
    | settle h' => rw [h] at h'; cases h'; exact ⟨rfl, rfl, rfl⟩
    | step h' hrs => rw [h] at h'; cases h'; exact absurd rfl hrs
  | step h hrs _ ih =>
    cases h' with
    | settle h' => rw [h] at h'; cases h'; exact absurd rfl hrs
    | step h' _ hrun =>
      rw [h] at h'
      cases h'
      obtain ⟨rfl, rfl, rfl⟩ := ih hrun
      exact ⟨rfl, rfl, rfl⟩

/-- After a run that has come to an end, another one makes one pass that changes no more than stamps. -/
theorem again (h : Passes n p css false q) (m : Nat) : Passes (m + 1) q [[]] false q.resolve.1 := by
  obtain ⟨_, hlast⟩ := h.last
  obtain ⟨-, -, hagain, -⟩ := Program.eliminateOnce_again hlast
  exact .settle hagain

end Passes

/-! ### Runs as they are computed -/

/-- What is written down about a run of the given passes that has been through `i` before. -/
def entries : Nat → List (List Change) → List Entry
  | _, [] => []
  | i, rs :: css => rs.map (.change (i + 1)) ++ entries (i + 1) css

theorem limitReached_not_mem_entries (limit i : Nat) (css : List (List Change)) :
    .limitReached limit ∉ entries i css := by
  induction css generalizing i with
  | nil => exact List.not_mem_nil
  | cons rs css ih =>
    rw [entries, List.mem_append, List.mem_map]
    rintro (⟨_, _, h⟩ | h)
    · cases h
    · exact ih _ h

/-- A run with the given passes adds this to an outcome. -/
def Outcome.after (o : Outcome) (css : List (List Change)) (q : Program) (last : List Entry) : Outcome where
  program := q
  stats := o.stats + .ofPasses css
  log := o.log ++ (entries o.stats.iterations css ++ last)

theorem Outcome.after_nil (o : Outcome) (last : List Entry) :
    o.after [] o.program last = { o with log := o.log ++ last } := rfl

theorem Outcome.after_cons (o : Outcome) (p q : Program) (rs : List Change) (css : List (List Change))
    (last : List Entry) : o.after (rs :: css) q last = (o.advance p rs).after css q last := by
  simp only [Outcome.after, Outcome.advance, Stats.ofPasses_cons, entries, add_assoc, List.append_assoc]
  rfl

theorem Outcome.after_settled (o : Outcome) (p : Program) : o.after [[]] p [] = o.advance p [] := by
  rw [Outcome.after_cons o p]
  exact Outcome.after_nil _ _ |>.trans (by rw [List.append_nil])

/-- What a run writes when its limit stops it. -/
def stopEntry (limit : Nat) (stopped : Bool) : List Entry := if stopped then [.limitReached limit] else []

section
variable {limit bound n : Nat} {o o' : Outcome} {last : Bool → List Entry}

/-- The outcome of a run of at most `n` passes that goes on from another one. -/
def Outcome.Continues (o : Outcome) (n : Nat) (last : Bool → List Entry) (o' : Outcome) : Prop :=
  ∃ css stopped q, Passes n o.program css stopped q ∧ o' = o.after css q (last stopped)

theorem Outcome.continues_zero : o.Continues 0 last o' ↔ { o with log := o.log ++ last true } = o' := by
  constructor
  · rintro ⟨css, stopped, q, hrun, rfl⟩
    cases hrun
    rfl
  · rintro rfl
    exact ⟨[], true, _, .stop _, rfl⟩

/-- A run that is not stopped makes a pass and goes on unless that changes nothing. -/
theorem Outcome.continues_succ (hlast : last false = []) : o.Continues (n + 1) last o' ↔
    ∃ q rs, o.program.eliminateOnce = some (q, rs) ∧
      if rs.isEmpty then o.advance q rs = o' else (o.advance q rs).Continues n last o' := by
  constructor
  · rintro ⟨css, stopped, r, hrun, rfl⟩
    cases hrun with
    | settle h => exact ⟨_, _, h, by rw [hlast, Outcome.after_settled]; rfl⟩
    | step h hrs hrun =>
      refine ⟨_, _, h, ?_⟩
      rw [if_neg (by simpa using hrs)]
      exact ⟨_, _, _, hrun, Outcome.after_cons ..⟩
  · rintro ⟨q, rs, h, hrest⟩
    split at hrest
    case isTrue hrs =>
      obtain rfl := List.isEmpty_iff.1 hrs
      exact ⟨_, _, _, .settle h, by rw [hlast, Outcome.after_settled, hrest]⟩
    case isFalse hrs =>
      obtain ⟨css, stopped, r, hrun, rfl⟩ := hrest
      exact ⟨_, _, _, .step h (by simpa using hrs) hrun, (Outcome.after_cons ..).symm⟩

/-- A pass that is made starts a run of the relation if what follows does. -/
theorem runFrom_succ_iff (hlast : last false = []) (hgo : ¬(0 < limit ∧ limit ≤ o.stats.iterations))
    (hrest : ∀ q rs, o.program.eliminateOnce = some (q, rs) → rs ≠ [] →
      (runFrom limit bound (o.advance q rs) = some o' ↔ (o.advance q rs).Continues n last o')) :
    runFrom limit (bound + 1) o = some o' ↔ o.Continues (n + 1) last o' := by
  have hgo : ¬(0 < limit && limit ≤ o.stats.iterations) = true := by simpa using hgo
  rw [runFrom, if_neg hgo, Outcome.continues_succ hlast]
  refine Option.bind_eq_some_iff.trans ⟨?_, ?_⟩
  · rintro ⟨⟨q, rs⟩, h, hend⟩
    refine ⟨q, rs, h, ?_⟩
    cases rs with
    | nil => exact Option.some.inj hend
    | cons r rs => exact (hrest q _ h (List.cons_ne_nil r rs)).1 hend
  · rintro ⟨q, rs, h, hend⟩
    refine ⟨(q, rs), h, ?_⟩
    cases rs with
    | nil => exact congrArg some hend
    | cons r rs => exact (hrest q _ h (List.cons_ne_nil r rs)).2 hend

/-- A run without a limit makes as many passes as its bound allows. -/
theorem runFrom_zero_iff : runFrom 0 bound o = some o' ↔ o.Continues bound (fun _ => []) o' := by
  induction bound generalizing o with
  | zero =>
    rw [Outcome.continues_zero, runFrom, List.append_nil]
    exact ⟨Option.some.inj, congrArg some⟩
  | succ bound ih => exact runFrom_succ_iff rfl (fun h => Nat.lt_irrefl 0 h.1) fun _ _ _ _ => ih

/-- A run with a limit makes as many passes as are left, whatever its bound. -/
theorem runFrom_iff (hl : o.stats.iterations + n = limit) (hpos : 0 < limit) (hb : o.program.bulk < bound) :
    runFrom limit bound o = some o' ↔ o.Continues n (stopEntry limit) o' := by
  induction bound generalizing n o with
  | zero => cases hb
  | succ bound ih =>
    cases n with
    | zero =>
      have hstop : (0 < limit && limit ≤ o.stats.iterations) = true := by
        simp only [Bool.and_eq_true, decide_eq_true_eq]
        omega
      rw [Outcome.continues_zero, runFrom, if_pos hstop]
      exact ⟨Option.some.inj, congrArg some⟩
    | succ n =>
      refine runFrom_succ_iff rfl (by omega) fun q rs h hrs => ih ?_ ?_
      · show o.stats.iterations + 1 + n = limit
        omega
      · have hle := Program.eliminateOnce_bulk h
        have hpos := List.length_pos_of_ne_nil hrs
        show q.bulk < bound
        omega

end

end Elimination

open Elimination

/-! ### Runs from the start -/

namespace Program

variable {p q : Program} {o : Outcome} {n m : Nat}

/-- What a run with the given passes leaves. -/
def outcome (q : Program) (css : List (List Change)) (last : List Entry) : Outcome :=
  (({ program := q : Outcome }).after css q last).finish

theorem bulk_lt_bound (p : Program) : p.bulk < 5 * (p.weight + 1) := by
  have hw := p.bulk_le_weight
  omega

/-- A run with a limit is stopped after so many passes if it does not end before. -/
theorem eliminate_iff (hn : 0 < n) : p.eliminate n = some o ↔
    ∃ css stopped q, Passes n p css stopped q ∧ outcome q css (stopEntry n stopped) = o := by
  rw [Program.eliminate, Option.map_eq_some_iff]
  constructor
  · rintro ⟨o', h, rfl⟩
    obtain ⟨css, stopped, q, hrun, rfl⟩ := (runFrom_iff (Nat.zero_add n) hn p.bulk_lt_bound).1 h
    exact ⟨css, stopped, q, hrun, rfl⟩
  · rintro ⟨css, stopped, q, hrun, rfl⟩
    exact ⟨_, (runFrom_iff (Nat.zero_add n) hn p.bulk_lt_bound).2 ⟨css, stopped, q, hrun, rfl⟩, rfl⟩

/-- A run without a limit is one that ends within any number of passes above the bulk of the program. -/
theorem eliminate_zero_iff (hn : p.bulk < n) : p.eliminate 0 = some o ↔
    ∃ css q, Passes n p css false q ∧ outcome q css [] = o := by
  rw [Program.eliminate, runFrom_congr (o := { program := p }) p.bulk_lt_bound hn, Option.map_eq_some_iff]
  constructor
  · rintro ⟨o', h, rfl⟩
    obtain ⟨css, stopped, q, hrun, rfl⟩ := runFrom_zero_iff.1 h
    obtain rfl := hrun.settled hn
    exact ⟨css, q, hrun, rfl⟩
  · rintro ⟨css, q, hrun, rfl⟩
    exact ⟨_, runFrom_zero_iff.2 ⟨css, false, q, hrun, rfl⟩, rfl⟩

theorem outcome_stats (q : Program) (css : List (List Change)) (last : List Entry) :
    (outcome q css last).stats = .ofPasses css := zero_add (Stats.ofPasses css)

/-- A run says that its limit was reached exactly if it was stopped. -/
theorem limitReached_mem_outcome (q : Program) (css : List (List Change)) (n : Nat) (stopped : Bool) :
    .limitReached n ∈ (outcome q css (stopEntry n stopped)).log ↔ stopped = true := by
  have hnot := limitReached_not_mem_entries n 0 css
  cases stopped with
  | false =>
    simp [outcome, Outcome.finish, Outcome.after, stopEntry, hnot]
  | true => simp [outcome, Outcome.finish, Outcome.after, stopEntry]

/-- Two runs, of which the second takes up what the first leaves, and one run with both limits together. -/
theorem Passes.compose {css₁ css₂ : List (List Change)} {stopped₁ stopped₂ : Bool} {r : Program} (hm : 0 < m)
    (h₁ : Passes n p css₁ stopped₁ q) (h₂ : Passes m q css₂ stopped₂ r) :
    ∃ css stopped r', Passes (n + m) p css stopped r' ∧ r'.unstamped = r.unstamped ∧
      (Stats.ofPasses css).rewrites = (Stats.ofPasses css₁ + Stats.ofPasses css₂).rewrites ∧
      (stopped₁ = true → css = css₁ ++ css₂) := by
  cases stopped₁ with
  | true =>
    refine ⟨_, _, r, h₁.append h₂, rfl, ?_, fun _ => rfl⟩
    rw [Stats.ofPasses_append]
  | false =>
    obtain ⟨m, rfl⟩ : ∃ k, m = k + 1 := Nat.exists_eq_add_one.2 hm
    obtain ⟨rfl, -, rfl⟩ := h₂.unique (h₁.again m)
    refine ⟨css₁, _, q, h₁.extend (Nat.le_add_right n _), q.resolve_unstamped.symm, ?_, fun h => (Bool.false_ne_true h).elim⟩
    rw [Stats.ofPasses_cons, Stats.rewrites_add, Stats.rewrites_add, Stats.rewrites_ofChanges_nil, zero_add,
      Stats.ofPasses_nil]
    exact (add_zero _).symm

/-- A run with a limit that is a sum has a run with either part of it. -/
theorem Passes.decompose {css : List (List Change)} {stopped : Bool} {r : Program} (hm : 0 < m)
    (h : Passes (n + m) p css stopped r) :
    ∃ css₁ stopped₁ q css₂ stopped₂ r', Passes n p css₁ stopped₁ q ∧ Passes m q css₂ stopped₂ r' := by
  obtain hend | ⟨q, css₁, css₂, h₁, h₂, -⟩ := h.split
  · obtain ⟨m, rfl⟩ : ∃ k, m = k + 1 := Nat.exists_eq_add_one.2 hm
    exact ⟨css, false, r, _, _, _, hend, hend.again m⟩
  · exact ⟨css₁, true, q, css₂, stopped, r, h₁, h₂⟩

/-! ### One pass at a time -/

/-- A run of a single pass. -/
theorem eliminate_one_iff : p.eliminate 1 = some o ↔
    ∃ q rs, p.eliminateOnce = some (q, rs) ∧ outcome q [rs] (stopEntry 1 !rs.isEmpty) = o := by
  rw [eliminate_iff Nat.one_pos]
  constructor
  · rintro ⟨css, stopped, r, hrun, rfl⟩
    cases hrun with
    | settle h => exact ⟨_, _, h, rfl⟩
    | step h hrs hrun =>
      cases hrun
      refine ⟨_, _, h, ?_⟩
      rw [List.isEmpty_eq_false_iff.2 hrs]
      rfl
  · rintro ⟨q, rs, h, rfl⟩
    cases rs with
    | nil => exact ⟨_, _, _, .settle h, rfl⟩
    | cons r rs => exact ⟨_, _, _, .step h (List.cons_ne_nil r rs) (.stop q), rfl⟩

theorem outcome_single_stats (q : Program) (rs : List Change) (last : List Entry) :
    (outcome q [rs] last).stats = .ofChanges rs := by
  rw [outcome_stats, Stats.ofPasses_cons, Stats.ofPasses_nil, add_zero]

theorem singleSteps_succ {rs : List Change} (h : p.eliminateOnce = some (q, rs)) :
    singleSteps (n + 1) p = outcome q [rs] (stopEntry 1 !rs.isEmpty) ::
      if rs = [] then [] else singleSteps n q := by
  have hstep := eliminate_one_iff.2 ⟨q, rs, h, rfl⟩
  have hnil : (outcome q [rs] (stopEntry 1 !rs.isEmpty)).stats.changes = 0 ↔ rs = [] := by
    rw [outcome_single_stats, Stats.changes_ofChanges, List.length_eq_zero_iff]
  rw [singleSteps, hstep]
  by_cases hrs : rs = []
  · exact congrArg _ ((if_pos (hnil.2 hrs)).trans (if_pos hrs).symm)
  · exact congrArg _ ((if_neg (mt hnil.1 hrs)).trans (if_neg hrs).symm)

/-- A run is made of single passes, of which the last one changes nothing. -/
theorem singleSteps_of_run {css : List (List Change)} (h : Passes n p css false q) :
    (singleSteps n p).map Outcome.stats = css.map Stats.ofChanges ∧
      ∃ last, (singleSteps n p).getLast? = some last ∧ last.stats.changes = 0 := by
  generalize hs : false = stopped at h
  induction h with
  | stop => cases hs
  | settle h =>
    rw [singleSteps_succ h]
    exact ⟨congrArg (· :: []) (outcome_single_stats _ _ _), _, rfl, rfl⟩
  | step h hrs _ ih =>
    obtain ⟨hstats, last, hlast, hnone⟩ := ih hs
    rw [singleSteps_succ h, if_neg hrs]
    refine ⟨congrArg₂ List.cons (outcome_single_stats _ _ _) hstats, last, ?_, hnone⟩
    rw [List.getLast?_cons, hlast]
    rfl

/-- Single passes up to one that changes nothing make a run. -/
theorem run_of_singleSteps {last : Outcome} (h : (singleSteps n p).getLast? = some last)
    (hnone : last.stats.changes = 0) : ∃ css, Passes n p css false last.program := by
  induction n generalizing p with
  | zero => cases h
  | succ n ih =>
    cases hp : p.eliminateOnce with
    | none =>
      have hstep : p.eliminate 1 = none := by
        refine Option.eq_none_iff_forall_ne_some.2 fun o ho => ?_
        obtain ⟨q, rs, h, -⟩ := eliminate_one_iff.1 ho
        rw [hp] at h
        cases h
      rw [singleSteps, hstep] at h
      cases h
    | some r =>
      obtain ⟨q, rs⟩ := r
      rw [singleSteps_succ hp] at h
      by_cases hrs : rs = []
      · subst hrs
        cases h
        exact ⟨_, .settle hp⟩
      · rw [if_neg hrs, List.getLast?_cons] at h
        cases hl : (singleSteps n q).getLast? with
        | none =>
          -- The pass has changed something, so it is not the last one.
          rw [hl] at h
          cases h
          have hrs' : (outcome q [rs] (stopEntry 1 !rs.isEmpty)).stats.changes ≠ 0 := by
            rw [outcome_single_stats, Stats.changes_ofChanges]
            exact mt List.length_eq_zero_iff.1 hrs
          exact absurd hnone hrs'
        | some last' =>
          rw [hl] at h
          cases h
          obtain ⟨css, hrun⟩ := ih hl
          exact ⟨_, .step hp hrs hrun⟩

/-- Repeated runs of a single pass, up to one that changes nothing, are the run without a limit. -/
theorem eliminate_of_singleSteps {last : Outcome} (h : (singleSteps n p).getLast? = some last)
    (hnone : last.stats.changes = 0) :
    ∃ o, p.eliminate 0 = some o ∧ o.program = last.program ∧
      o.stats = ((singleSteps n p).map Outcome.stats).sum := by
  obtain ⟨css, hrun⟩ := run_of_singleSteps h hnone
  have hend := hrun.extend (Nat.le_max_left n (p.bulk + 1))
  refine ⟨_, (eliminate_zero_iff (Nat.le_max_right n (p.bulk + 1))).2 ⟨css, _, hend, rfl⟩, rfl, ?_⟩
  rw [outcome_stats, (singleSteps_of_run hrun).1]
  rfl

/-- Runs with limits compose: what a run leaves, another one takes up, and both make what one run with the sum
of their limits makes.  Their changes add up, and so do their passes if the first run was stopped by its limit.
So single passes, repeated until there is nothing left to change, come to the end of the run without a limit. -/
theorem eliminate_composes (p : Program) (n m : Nat) (hn : 0 < n) (hm : 0 < m) :
    (∀ o₁ o₂, p.eliminate n = some o₁ → o₁.program.eliminate m = some o₂ →
      ∃ o, p.eliminate (n + m) = some o ∧ o.program.print = o₂.program.print ∧
        o.stats.rewrites = (o₁.stats + o₂.stats).rewrites ∧
        (.limitReached n ∈ o₁.log → o.stats.iterations = o₁.stats.iterations + o₂.stats.iterations)) ∧
    (∀ o, p.eliminate (n + m) = some o →
      ∃ o₁ o₂, p.eliminate n = some o₁ ∧ o₁.program.eliminate m = some o₂) ∧
    (∀ o bound, p.eliminate 0 = some o → p.bulk < bound →
      ∃ last, (singleSteps bound p).getLast? = some last ∧ last.stats.changes = 0) ∧
    ∀ bound last, (singleSteps bound p).getLast? = some last → last.stats.changes = 0 →
      ∃ o, p.eliminate 0 = some o ∧ o.program.print = last.program.print ∧
        o.stats.rewrites = ((singleSteps bound p).map Outcome.stats).sum.rewrites := by
  refine ⟨fun o₁ o₂ h₁ h₂ => ?_, fun o h => ?_, fun o bound h hb => ?_, fun bound last h hnone => ?_⟩
  · obtain ⟨css₁, stopped₁, q, hrun₁, rfl⟩ := (eliminate_iff hn).1 h₁
    obtain ⟨css₂, stopped₂, r, hrun₂, rfl⟩ := (eliminate_iff hm).1 h₂
    obtain ⟨css, stopped, r', hrun, hr, hrw, happ⟩ := Passes.compose hm hrun₁ hrun₂
    refine ⟨_, (eliminate_iff (Nat.add_pos_left hn m)).2 ⟨css, stopped, r', hrun, rfl⟩, ?_, ?_, fun hlog => ?_⟩
    · calc r'.print = r'.unstamped.print := (unstamped_print _).symm
        _ = r.unstamped.print := by rw [hr]
        _ = r.print := unstamped_print _
    · rw [outcome_stats, outcome_stats, outcome_stats, hrw]
    · have hcss := happ ((limitReached_mem_outcome ..).1 hlog)
      rw [outcome_stats, outcome_stats, outcome_stats, hcss, Stats.ofPasses_append]
      rfl
  · obtain ⟨css, stopped, r, hrun, rfl⟩ := (eliminate_iff (Nat.add_pos_left hn m)).1 h
    obtain ⟨css₁, stopped₁, q, css₂, stopped₂, r', h₁, h₂⟩ := Passes.decompose hm hrun
    exact ⟨_, _, (eliminate_iff hn).2 ⟨css₁, stopped₁, q, h₁, rfl⟩, (eliminate_iff hm).2 ⟨css₂, stopped₂, r', h₂, rfl⟩⟩
  · obtain ⟨css, q, hrun, rfl⟩ := (eliminate_zero_iff hb).1 h
    exact (singleSteps_of_run hrun).2
  · obtain ⟨o, ho, hprog, hstats⟩ := eliminate_of_singleSteps h hnone
    exact ⟨o, ho, by rw [hprog], by rw [hstats]⟩

/-- `function a() {} function b() { a; }` -/
def sampleChain : Program where
  body := [.func (.mk (some { name := "a" }) [] none [] false false),
    .func (.mk (some { name := "b" }) [] none [.expr (.ident { name := "a" })] false false)]

/-- The first pass takes out one function and the second one the other. -/
theorem eliminate_composes_sample : ∃ o₁ o₂ o, sampleChain.eliminate 1 = some o₁ ∧ .limitReached 1 ∈ o₁.log ∧
    o₁.program.eliminate 1 = some o₂ ∧ o₂.stats.changes = 1 ∧ sampleChain.eliminate 2 = some o ∧
    o.program.print = o₂.program.print ∧ o.stats.rewrites = (o₁.stats + o₂.stats).rewrites ∧
    o.stats.iterations = o₁.stats.iterations + o₂.stats.iterations := by
  have hrun : (sampleChain.eliminate 1).bind (fun o₁ => (o₁.program.eliminate 1).map fun o₂ =>
      (decide (.limitReached 1 ∈ o₁.log), o₂.stats.changes)) = some (true, 1) := by decide +kernel
  obtain ⟨o₁, h₁, hrun⟩ := Option.bind_eq_some_iff.1 hrun
  obtain ⟨o₂, h₂, he⟩ := Option.map_eq_some_iff.1 hrun
  obtain ⟨hlog, hc⟩ := Prod.mk.inj he
  have hlog := of_decide_eq_true hlog
  obtain ⟨o, ho, hprint, hrewrites, hit⟩ :=
    (eliminate_composes sampleChain 1 1 Nat.one_pos Nat.one_pos).1 o₁ o₂ h₁ h₂
  exact ⟨o₁, o₂, o, h₁, hlog, h₂, hc, ho, hprint, hrewrites, hit hlog⟩

end Program

end Deadwood
