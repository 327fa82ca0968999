import Deadwood.Proofs.Plain

/-!
# Control flow

Statements without declarations have a simple meaning: a run executes some of their expressions, takes some
of their tests, and ends in one way or another.  A pass leaves a list of such statements with the meaning
it had, whatever the tests turn out to be.
-/

namespace Deadwood

open Elimination

/-! ### Runs -/

/-- How a run ends. -/
inductive Completion
  | normal
  | ret (arg : Option Expr)
  | throw (arg : Expr)
  | brk (label : Option Ident)
  | cont (label : Option Ident)

/-- The expression under the negations of a test. -/
def Expr.unnegated : Expr → Expr
  | .unary .not e => e.unnegated
  | e => e

/-- What can be seen of a run.  Whether a test was negated cannot. -/
inductive Event
  | executed (e : Expr)
  | tested (e : Expr)

structure Run where
  events : List Event := []
  completion : Completion := .normal

namespace Run

/-- A run and, if it ends normally, another one after it. -/
def andThen (r r' : Run) : Run :=
  match r.completion with
  | .normal => ⟨r.events ++ r'.events, r'.completion⟩
  | _ => r

/-- A run that has taken a test.  Nothing is seen of a test whose outcome is known. -/
def afterTest (test : Expr) (r : Run) : Run :=
  if test.truthy?.isSome then r else { r with events := .tested test.unnegated :: r.events }

end Run

/-- The outcomes of tests.  What is known of a test holds, and a negation turns its outcome around. -/
structure Verdict where
  holds : Expr → Bool
  known : ∀ {test b}, test.truthy? = some b → holds test = b
  negate : ∀ test, holds test.negate = !holds test

mutual

/-- The run of a statement.  Statements other than those that are plain do nothing. -/
def Stmt.run (v : Verdict) : Stmt → Run
  | .expr e => { events := [.executed e] }
  | .block ts => Stmt.runList v ts
  | .cond test yes no => .afterTest test (if v.holds test then yes.run v else Stmt.runOpt v no)
  | .ret arg => { completion := .ret arg }
  | .throw arg => { completion := .throw arg }
  | .brk label => { completion := .brk label }
  | .cont label => { completion := .cont label }
  | _ => {}

def Stmt.runOpt (v : Verdict) : Option Stmt → Run
  | none => {}
  | some t => t.run v

def Stmt.runList (v : Verdict) : List Stmt → Run
  | [] => {}
  | t :: ts => (t.run v).andThen (Stmt.runList v ts)

end

/-! ### Tests and their negations -/

theorem Expr.truthy?_not (e : Expr) : (Expr.unary .not e).truthy? = e.truthy?.map (!·) := by
  have hv : (Expr.unary .not e).value? = e.value?.map fun v => .bool (!v.toBool) := by
    simp only [Expr.value?, reduceCtorEq, if_false]
    cases e.value? <;> rfl
  have ht : (Expr.unary .not e).truth? = e.truth?.map (!·) := by
    simp only [Expr.truth?, Expr.castToBool, Cast.pure?]
    by_cases h : e.castToBool.isPure = true <;> simp [h]
  unfold Expr.truthy?
  rw [hv, ht]
  cases e.value? <;> rfl

theorem Expr.truthy?_negate (e : Expr) : e.negate.truthy? = e.truthy?.map (!·) := by
  unfold Expr.negate
  split
  next e =>
    rw [Expr.truthy?_not, Option.map_map]
    cases e.truthy? <;> simp
  · exact Expr.truthy?_not e

theorem Expr.unnegated_negate (e : Expr) : e.negate.unnegated = e.unnegated := by
  unfold Expr.negate
  split <;> rfl

theorem Expr.negate_isPlain {e : Expr} (he : e.isPlain = true) : e.negate.isPlain = true := by
  unfold Expr.negate
  split <;> exact he

/-- Whether a test has an odd number of negations in front. -/
def Expr.isNegated : Expr → Bool
  | .unary .not e => !e.isNegated
  | _ => false

theorem Expr.isNegated_negate (e : Expr) : e.negate.isNegated = !e.isNegated := by
  unfold Expr.negate
  split
  next e =>
    rw [Expr.isNegated, Bool.not_not]
  · rfl

/-- What is not known to hold, its negations apart, does not. -/
def Verdict.pessimist : Verdict where
  holds test := test.truthy?.getD test.isNegated
  known h := by rw [h]; rfl
  negate test := by
    rw [Expr.truthy?_negate, Expr.isNegated_negate]
    cases test.truthy? <;> rfl

/-- Nothing is seen of a negation. -/
theorem Run.afterTest_negate (e : Expr) (r : Run) : Run.afterTest e.negate r = Run.afterTest e r := by
  unfold Run.afterTest
  rw [Expr.truthy?_negate, Expr.unnegated_negate, Option.isSome_map]

theorem Run.afterTest_known {e : Expr} {b : Bool} (h : e.truthy? = some b) (r : Run) :
    Run.afterTest e r = r := by
  unfold Run.afterTest
  rw [h]
  rfl

/-! ### Runs of lists -/

namespace Run

theorem andThen_nil (r : Run) : r.andThen {} = r := by
  cases r with
  | mk events completion => cases completion <;> simp [andThen]

theorem andThen_assoc (a b c : Run) : (a.andThen b).andThen c = a.andThen (b.andThen c) := by
  cases a with
  | mk events completion =>
    cases completion with
    | normal =>
      cases b with
      | mk events' completion => cases completion <;> simp [andThen]
    | _ => rfl

/-- A run that does not end normally. -/
def IsAbrupt (r : Run) : Prop := ∀ r', r.andThen r' = r

theorem IsAbrupt.andThen_left {r : Run} (h : r.IsAbrupt) (r' : Run) : (r.andThen r').IsAbrupt :=
  fun r'' => by rw [h r', h r'']

theorem IsAbrupt.andThen_right {r' : Run} (h : r'.IsAbrupt) (r : Run) : (r.andThen r').IsAbrupt :=
  fun r'' => by rw [andThen_assoc, h r'']

end Run

namespace Stmt

variable {v : Verdict}

theorem runList_single (t : Stmt) : runList v [t] = t.run v := Run.andThen_nil _

theorem runList_append (ts us : List Stmt) :
    runList v (ts ++ us) = (runList v ts).andThen (runList v us) := by
  induction ts with
  | nil => rfl
  | cons t ts ih => rw [List.cons_append, runList, ih, runList, Run.andThen_assoc]

theorem allPlain_append (ts us : List Stmt) :
    allPlain (ts ++ us) = (allPlain ts && allPlain us) := by
  induction ts with
  | nil => rfl
  | cons t ts ih => rw [List.cons_append, allPlain, allPlain, ih, Bool.and_assoc]

theorem run_isEmpty {t : Stmt} (h : t.isEmpty = true) : t.run v = {} := by
  cases t with
  | empty => rfl
  | block ts =>
    cases ts with
    | nil => rfl
    | cons => cases h
  | _ => cases h

/-- Statements that do nothing can go. -/
theorem runList_filter (ts : List Stmt) : runList v (ts.filter fun t => !t.isEmpty) = runList v ts := by
  induction ts with
  | nil => rfl
  | cons t ts ih =>
    rw [List.filter_cons]
    cases h : t.isEmpty with
    | true =>
      rw [if_neg (by simp), ih, runList, run_isEmpty h]
      rfl
    | false =>
      rw [if_pos (by simp), runList, runList, ih]

theorem allPlain_filter {ts : List Stmt} (p : Stmt → Bool) (h : allPlain ts = true) :
    allPlain (ts.filter p) = true := by
  induction ts with
  | nil => rfl
  | cons t ts ih =>
    rw [allPlain, Bool.and_eq_true] at h
    rw [List.filter_cons]
    split
    · rw [allPlain, h.1, ih h.2]
      rfl
    · exact ih h.2

theorem run_isCompletion {t : Stmt} (h : t.isCompletion = true) : (t.run v).IsAbrupt := by
  cases t with
  | ret | throw | brk | cont => exact fun _ => rfl
  | _ => cases h

/-- Nothing runs past a statement that ends the list. -/
theorem runList_isAbrupt {ts : List Stmt} (h : ts.any isCompletion = true) :
    (runList v ts).IsAbrupt := by
  induction ts with
  | nil => cases h
  | cons t ts ih =>
    rw [List.any_cons, Bool.or_eq_true] at h
    rcases h with h | h
    · exact (run_isCompletion h).andThen_left _
    · exact (ih h).andThen_right _

theorem run_asOne (ts : List Stmt) : (asOne ts).run v = runList v ts := by
  match ts with
  | [] => rfl
  | [t] => exact (runList_single t).symm
  | _ :: _ :: _ => rfl

theorem asOne_isPlain {ts : List Stmt} (h : allPlain ts = true) : (asOne ts).isPlain = true := by
  match ts with
  | [] => rfl
  | [t] =>
    rw [allPlain, Bool.and_eq_true] at h
    exact h.1
  | _ :: _ :: _ => exact h

theorem isPlain_isBlockScoped {t : Stmt} (h : t.isPlain = true) : t.isBlockScoped = false := by
  cases t <;> first | rfl | cases h

theorem allPlain_isBlockScoped {ts : List Stmt} (h : allPlain ts = true) :
    ts.any isBlockScoped = false := by
  induction ts with
  | nil => rfl
  | cons t ts ih =>
    rw [allPlain, Bool.and_eq_true] at h
    rw [List.any_cons, isPlain_isBlockScoped h.1, ih h.2]
    rfl

/-- The statements of a plain branch need no block. -/
theorem branchStmts_plain {t : Stmt} (h : t.isPlain = true) :
    runList v (branchStmts t) = t.run v ∧ allPlain (branchStmts t) = true := by
  have hone (t : Stmt) (h : t.isPlain = true) : runList v [t] = t.run v ∧ allPlain [t] = true :=
    ⟨runList_single t, by rw [allPlain, h]; rfl⟩
  cases t with
  | block ts =>
    have hb : branchStmts (.block ts) = ts := if_neg (by rw [allPlain_isBlockScoped h]; simp)
    rw [hb]
    exact ⟨rfl, h⟩
  | empty | expr | cond | ret | throw | brk | cont => exact hone _ h
  | _ => cases h

mutual

theorem varNames_plain (t : Stmt) (h : t.isPlain = true) : t.fold varFold = [] := by
  match t with
  | .empty | .brk none | .brk (some _) | .cont none | .cont (some _) | .ret none => rfl
  | .expr e | .throw e | .ret (some e) => exact varFold_expr e
  | .block ts => exact varNames_plainList ts h
  | .cond test yes no =>
    rw [isPlain, Bool.and_eq_true, Bool.and_eq_true] at h
    exact congrArg₂ (· ++ ·) (varFold_expr test)
      (congrArg₂ (· ++ ·) (varNames_plain yes h.1.2) (varNames_plainOpt no h.2))

theorem varNames_plainOpt (t : Option Stmt) (h : optPlain t = true) : foldOpt varFold t = [] := by
  match t with
  | none => rfl
  | some t => exact varNames_plain t h

theorem varNames_plainList (ts : List Stmt) (h : allPlain ts = true) : foldList varFold ts = [] := by
  match ts with
  | [] => rfl
  | t :: ts =>
    rw [allPlain, Bool.and_eq_true] at h
    exact congrArg₂ (· ++ ·) (varNames_plain t h.1) (varNames_plainList ts h.2)

end

/-- No variable outlives a plain statement. -/
theorem survivingVars_plain (s : State) {t : Stmt} (h : t.isPlain = true) : s.survivingVars t = [] := by
  have hn : t.varNames = [] := varNames_plain t h
  rw [State.survivingVars, hn]
  rfl

end Stmt

/-! ### Rules -/

/-- Plain statements with the run `r` are left by steps that only settle the state. -/
structure Leaves (v : Verdict) (r : Run) (s : State) (out : List Stmt × State) : Prop where
  plain : Stmt.allPlain out.1 = true
  run : Stmt.runList v out.1 = r
  settles : s.Settles out.2

namespace Leaves

variable {v : Verdict} {r : Run} {s : State} {t : Stmt} {out : List Stmt × State}

theorem one {u : State} (ht : t.isPlain = true) (hs : s.Settles u) : Leaves v (t.run v) s ([t], u) :=
  ⟨by rw [Stmt.allPlain, ht]; rfl, Stmt.runList_single t, hs⟩

theorem none {u : State} (hs : s.Settles u) : Leaves v {} s ([], u) := ⟨rfl, rfl, hs⟩

theorem filter (h : Leaves v r s out) : Leaves v r s (out.1.filter fun t => !t.isEmpty, out.2) :=
  ⟨Stmt.allPlain_filter _ h.plain, (Stmt.runList_filter _).trans h.run, h.settles⟩

/-- A test that is not known loses an empty branch. -/
theorem normalize {test : Expr} {yes : Stmt} {no : Option Stmt} (ht : test.isPlain = true)
    (hy : yes.isPlain = true) (hn : Stmt.optPlain no = true) :
    Leaves v ((Stmt.cond test yes no).run v) s
      ([(normalize test yes no s).1], (normalize test yes no s).2) := by
  have hrec : s.Settles (record .normalize .none s).2 := record_settles s (by decide) .none
  cases no with
  | none => exact one (by rw [Stmt.isPlain, ht, hy]; rfl) (.refl s)
  | some other =>
    cases ho : other.isEmpty with
    | true =>
      have he : (Stmt.cond test yes (some other)).run v = (Stmt.cond test yes .none).run v := by
        simp only [Stmt.run, Stmt.runOpt, Stmt.run_isEmpty ho]
      simp only [Elimination.normalize, ho, if_true, run_bind, run_pure, he]
      exact one (by rw [Stmt.isPlain, ht, hy]; rfl) hrec
    | false =>
      cases hye : yes.isEmpty with
      | true =>
        have he : (Stmt.cond test yes (some other)).run v = (Stmt.cond test.negate other .none).run v := by
          simp only [Stmt.run, Stmt.runOpt, Stmt.run_isEmpty hye, Run.afterTest_negate, v.negate]
          cases v.holds test <;> rfl
        simp only [Elimination.normalize, ho, hye, if_true, if_false, Bool.false_eq_true, run_bind,
          run_pure, he]
        exact one (by rw [Stmt.isPlain, Expr.negate_isPlain ht, show other.isPlain = true from hn]; rfl) hrec
      | false =>
        simp only [Elimination.normalize, ho, hye, if_false, Bool.false_eq_true, run_pure]
        exact one (by rw [Stmt.isPlain, ht, hy, hn]; rfl) (.refl s)

theorem branch {t? : Option Stmt} (hp : Stmt.optPlain t? = true) {u : State} (hs : s.Settles u) :
    Leaves v (Stmt.runOpt v t?) s ((t?.map branchStmts).getD [], u) := by
  cases t? with
  | none => exact none hs
  | some t =>
    obtain ⟨hrun, hplain⟩ := Stmt.branchStmts_plain (v := v) hp
    exact ⟨hplain, hrun, hs⟩

/-- Of a dropped branch that is plain nothing is left. -/
theorem dropBranch {t? : Option Stmt} (hp : Stmt.optPlain t? = true) :
    (dropBranch t? s).1 = [] ∧ s.Settles (dropBranch t? s).2 := by
  obtain ⟨u, hu, hs, -⟩ := dropBranch_spec t? s
  rw [hu]
  refine ⟨?_, hs⟩
  cases t? with
  | none => rfl
  | some t => exact Stmt.survivingVars_plain u hp

/-- A test that is known gives way to the branch it selects. -/
theorem foldIf {test : Expr} {yes : Stmt} {no : Option Stmt} (ht : test.isPlain = true)
    (hy : yes.isPlain = true) (hn : Stmt.optPlain no = true) :
    Leaves v ((Stmt.cond test yes no).run v) s (foldIf test yes no s) := by
  cases hk : test.truthy? with
  | none =>
    simp only [Elimination.foldIf, hk, run_bind, run_pure]
    exact normalize ht hy hn
  | some b =>
    have hrun : (Stmt.cond test yes no).run v = Stmt.runOpt v (if b then some yes else no) := by
      rw [Stmt.run, Run.afterTest_known hk, v.known hk]
      cases b <;> rfl
    have hkeep : Stmt.optPlain (if b then some yes else no) = true := by cases b <;> assumption
    have hdrop : Stmt.optPlain (if b then no else some yes) = true := by cases b <;> assumption
    obtain ⟨hd, hs⟩ := dropBranch (s := (releaseExpr test s).2) hdrop
    simp only [Elimination.foldIf, hk, run_bind, run_pure, hd, List.nil_append]
    rw [hrun]
    exact branch hkeep (((releaseExpr_settles s test).trans hs).trans (record_settles _ (by decide) _))

theorem removeDeclaration (ht : t.isPlain = true) : removeDeclaration t s = (false, s) := by
  cases t <;> first | rfl | cases ht

theorem finish (ht : t.isPlain = true) : Leaves v (t.run v) s (finish t s) := by
  simp only [Elimination.finish, run_bind, run_get, Stmt.renew_plain s ht, removeDeclaration ht,
    Bool.false_eq_true, if_false]
  cases t with
  | cond test yes no =>
    rw [Stmt.isPlain, Bool.and_eq_true, Bool.and_eq_true] at ht
    exact foldIf ht.1.1 ht.1.2 ht.2
  | empty => exact none (.refl s)
  | block | expr | ret | throw | brk | cont => exact one ht (.refl s)
  | _ => cases ht

/-- A plain statement is reduced, if the walk through its parts keeps its run. -/
theorem reduce {walk : Pass Stmt} (ht : t.isPlain = true)
    (hw : Leaves v (t.run v) s ([(walk s).1], (walk s).2)) :
    Leaves v (t.run v) s (reduce t walk s) := by
  have hp : (walk s).1.isPlain = true := (Bool.and_eq_true _ _ ▸ hw.plain).1
  have hr : (walk s).1.run v = t.run v := (Stmt.runList_single _).symm.trans hw.run
  have hf := finish (v := v) (s := (walk s).2) hp
  have hd : (Elimination.removeDeclaration t s).1 = false := congrArg Prod.fst (removeDeclaration ht)
  rw [reduce_kept hd, removeDeclaration ht]
  exact ⟨hf.plain, hf.run.trans hr, hw.settles.trans hf.settles⟩

theorem slot {walk : Pass Stmt} (ht : t.isPlain = true)
    (hw : Leaves v (t.run v) s ([(walk s).1], (walk s).2)) :
    (reduceSlot t walk s).1.isPlain = true ∧ (reduceSlot t walk s).1.run v = t.run v ∧
      s.Settles (reduceSlot t walk s).2 := by
  have h := reduce ht hw
  exact ⟨Stmt.asOne_isPlain h.plain, (Stmt.run_asOne _).trans h.run, h.settles⟩

theorem listed {walk : Pass Stmt} (ht : t.isPlain = true)
    (hw : Leaves v (t.run v) s ([(walk s).1], (walk s).2)) :
    Leaves v (t.run v) s (reduceListed false t walk s) := by
  have he : reduceListed false t walk s = Elimination.reduce t walk s := by
    cases t <;> first | rfl | cases ht
  rw [he]
  exact reduce ht hw

/-- Nothing is left of a plain statement that is never reached. -/
theorem unreached (walk : Pass Stmt) (ht : t.isPlain = true) :
    (reduceListed true t walk s).1 = [] ∧ s.Settles (reduceListed true t walk s).2 := by
  have hprune : (prune t s).1 = [] ∧ s.Settles (prune t s).2 := by
    obtain ⟨hp, hr, -⟩ := prune_spec t s
    exact ⟨hp.trans (Stmt.survivingVars_plain _ ht), hr.toSettles⟩
  cases t with
  | empty => exact ⟨rfl, .refl s⟩
  | block | expr | cond | ret | throw | brk | cont => exact hprune
  | _ => cases ht

end Leaves

/-! ### Passes -/

theorem Stmt.eliminateList_unreached (ts : List Stmt) {s : State} (hts : Stmt.allPlain ts = true) :
    (Stmt.eliminateList true ts s).1 = [] ∧ s.Settles (Stmt.eliminateList true ts s).2 := by
  induction ts generalizing s with
  | nil => exact ⟨rfl, .refl s⟩
  | cons t ts ih =>
    rw [Stmt.allPlain, Bool.and_eq_true] at hts
    obtain ⟨ht, hs⟩ := Leaves.unreached (s := s) t.eliminate hts.1
    obtain ⟨hts, hs'⟩ := ih (s := (reduceListed true t t.eliminate s).2) hts.2
    simp only [Stmt.eliminateList, run_bind, run_pure, ht, List.filter_nil, List.any_nil, Bool.or_false,
      hts, List.append_nil]
    exact ⟨trivial, hs.trans hs'⟩

mutual

theorem Stmt.eliminate_leaves (v : Verdict) (t : Stmt) {s : State} (ht : t.isPlain = true)
    (hs : s.KeepsAll (t.fold .references)) :
    Leaves v (t.run v) s ([(t.eliminate s).1], (t.eliminate s).2) := by
  match t with
  | .empty | .brk _ | .cont _ => exact .one ht (.refl s)
  | .expr e | .throw e =>
    simp only [Stmt.eliminate, run_bind, Expr.eliminate_plain .value e ht hs, run_pure]
    exact .one ht (.refl s)
  | .ret arg =>
    simp only [Stmt.eliminate, run_bind, Expr.eliminateOpt_plain .value arg ht hs, run_pure]
    exact .one ht (.refl s)
  | .block ts =>
    have hts := Stmt.eliminateList_leaves v ts ht hs
    have hrun : (Stmt.block (Stmt.eliminateList false ts s).1).run v = (Stmt.block ts).run v := hts.run
    rw [← hrun]
    exact .one hts.plain hts.settles
  | .cond test yes no =>
    rw [Stmt.isPlain, Bool.and_eq_true, Bool.and_eq_true] at ht
    have hy := Leaves.slot ht.1.2 (Stmt.eliminate_leaves v yes ht.1.2 hs.right.left)
    have hn := Stmt.eliminateOpt_leaves v no ht.2 (hs.right.right.settles hy.2.2)
    simp only [Stmt.eliminate, run_bind, Expr.eliminate_plain .value test ht.1.1 hs.left, run_pure]
    have hrun : (Stmt.cond test (reduceSlot yes yes.eliminate s).1
        (Stmt.eliminateOpt no (reduceSlot yes yes.eliminate s).2).1).run v =
        (Stmt.cond test yes no).run v := by
      simp only [Stmt.run, hy.2.1, hn.2.1]
    rw [← hrun]
    exact .one (by rw [Stmt.isPlain, ht.1.1, hy.1, hn.1]; rfl) (hy.2.2.trans hn.2.2)

theorem Stmt.eliminateOpt_leaves (v : Verdict) (t : Option Stmt) {s : State}
    (ht : Stmt.optPlain t = true) (hs : s.KeepsAll (Stmt.foldOpt .references t)) :
    Stmt.optPlain (Stmt.eliminateOpt t s).1 = true ∧
      Stmt.runOpt v (Stmt.eliminateOpt t s).1 = Stmt.runOpt v t ∧ s.Settles (Stmt.eliminateOpt t s).2 := by
  match t with
  | none => exact ⟨rfl, rfl, .refl s⟩
  | some t => exact Leaves.slot ht (Stmt.eliminate_leaves v t ht hs)

/-- A list is left with the run it had.  What comes past the end of a run never counts. -/
theorem Stmt.eliminateList_leaves (v : Verdict) (ts : List Stmt) {s : State}
    (hts : Stmt.allPlain ts = true) (hs : s.KeepsAll (Stmt.foldList .references ts)) :
    Leaves v (Stmt.runList v ts) s (Stmt.eliminateList false ts s) := by
  match ts with
  | [] => exact .none (.refl s)
  | t :: ts =>
    rw [Stmt.allPlain, Bool.and_eq_true] at hts
    have ht := (Leaves.listed hts.1 (Stmt.eliminate_leaves v t hts.1 hs.left)).filter
    have hrest := Stmt.eliminateList_leaves v ts hts.2 (hs.right.settles ht.settles)
    simp only [Stmt.eliminateList, run_bind, run_pure, Bool.false_or]
    cases hc : ((reduceListed false t t.eliminate s).1.filter fun t => !t.isEmpty).any Stmt.isCompletion with
    | false =>
      refine ⟨?_, ?_, ht.settles.trans hrest.settles⟩
      · rw [Stmt.allPlain_append, ht.plain, hrest.plain]
        rfl
      · rw [Stmt.runList_append, ht.run, hrest.run, Stmt.runList]
    | true =>
      obtain ⟨hnil, hset⟩ := Stmt.eliminateList_unreached ts (s := (reduceListed false t t.eliminate s).2) hts.2
      have habrupt := Stmt.runList_isAbrupt (v := v) hc
      rw [ht.run] at habrupt
      rw [hnil, List.append_nil]
      refine ⟨ht.plain, ?_, ht.settles.trans hset⟩
      rw [ht.run, Stmt.runList, habrupt]

end

/-- A pass keeps the run of every list of plain statements whose names stay, and in a program of plain
statements all names do. -/
theorem Stmt.runList_eliminateList (v : Verdict) (ts : List Stmt) (hts : Stmt.allPlain ts = true) :
    (∀ s : State, s.KeepsAll (Stmt.foldList .references ts) →
      Stmt.runList v (Stmt.eliminateList false ts s).1 = Stmt.runList v ts) ∧
    ∀ usage, Stmt.runList v (Stmt.eliminateList false (Program.resolve ⟨ts⟩).1.body
      (State.start (Program.resolve ⟨ts⟩).1 (Program.resolve ⟨ts⟩).2 usage)).1 =
        Stmt.runList v (Program.resolve ⟨ts⟩).1.body := by
  refine ⟨fun s hs => (Stmt.eliminateList_leaves v ts hts hs).run, fun usage => ?_⟩
  have hp := (Program.resolve_plain (p := ⟨ts⟩) hts).1
  exact (Stmt.eliminateList_leaves v _ hp (State.start_keepsAll hts usage _)).run

/-- `if (!x) {} else { x; return; }  if (false) x;  {}  throw x;  x;` -/
def sampleList : List Stmt :=
  let x : Expr := .ident { name := "x" }
  [.cond (.unary .not x) (.block []) (some (.block [.expr x, .ret none])), .cond (.bool false) (.expr x) none,
    .block [], .throw x, .expr x]

/-- Of five statements a test without its negation and a jump are left. -/
theorem Stmt.runList_eliminateList_sample : Stmt.allPlain sampleList = true ∧
    (Stmt.eliminateList false sampleList default).1 =
      [.cond (.ident { name := "x" }) (.block [.expr (.ident { name := "x" }), .ret none]) none,
        .throw (.ident { name := "x" })] ∧
    Stmt.runList .pessimist (Stmt.eliminateList false sampleList default).1 =
      Stmt.runList .pessimist sampleList :=
  ⟨rfl, rfl, (Stmt.runList_eliminateList .pessimist sampleList rfl).1 default
    fun _ _ _ _ _ hb => nomatch hb⟩

end Deadwood
