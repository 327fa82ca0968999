import Deadwood.Proofs.Closing
import Deadwood.Proofs.Stampless

/-!
# Every run ends

A pass never makes a program bulkier, and every change it makes takes away some of the bulk.  So there are
no more passes that change something than the program has bulk, and a run without a limit ends at a
program that a pass leaves without a change.
-/

namespace Deadwood

open Elimination

/-! ### Resolution keeps the cost -/

/-- The charges do not depend on the numbers and marks of identifiers. -/
structure Tariff.Stampless (T : Tariff) : Prop where
  ident : ∀ role id id', T.ident role id = T.ident role id'
  expr : ∀ {e e'}, e.form = e'.form → T.expr e = T.expr e'

theorem Tariff.stmtCost_of_form (T : Tariff) {t t' : Stmt} (h : t.form = t'.form) :
    T.stmtCost t = T.stmtCost t' := by
  have hh (t : Stmt) : t.form.bulk = t.bulk := by cases t <;> rfl
  rw [stmtCost, stmtCost, ← hh t, h, hh]

theorem Pattern.isName_of_form {p p' : Pattern} (h : p.form = p'.form) : p.isName = p'.isName := by
  have hh (p : Pattern) : p.form.isName = p.isName := by cases p <;> rfl
  rw [← hh p, h, hh]

theorem Tariff.declaratorCost_of_form (T : Tariff) {target target' : Pattern} {init init' : Option Expr}
    (site site' : Site) (ht : target.form = target'.form) (hi : init.isSome = init'.isSome) :
    T.declaratorCost (.mk site target init) = T.declaratorCost (.mk site' target' init') := by
  rw [declaratorCost, declaratorCost, Declarator.bulk, Declarator.bulk, Pattern.isName_of_form ht, hi]

theorem Tariff.Stampless.fold {T : Tariff} (hT : T.Stampless) : T.fold.Stampless where
  lawful := ⟨Nat.add_assoc, Nat.zero_add, Nat.add_zero⟩
  ident id id' _ := congrArg (T.unit + ·) (hT.ident _ id id')
  expr {e e'} h := by
    have hh (e : Expr) : e.form.bulk = e.bulk := by cases e <;> rfl
    have hcost : T.exprCost e = T.exprCost e' := by
      rw [Tariff.exprCost, Tariff.exprCost, ← hh e, h, hh, hT.expr h]
    exact congrArg (fun c n => n + c) hcost
  stmt h _ := congrArg (fun c n => n + c) (T.stmtCost_of_form h)
  property _ := rfl
  declarator ht hi := congrArg (fun c n => n + c) (T.declaratorCost_of_form _ _ ht hi)
  element ht hi := congrArg (fun c n => n + c) (T.declaratorCost_of_form _ _ ht hi)
  funcDecl f f' := by
    have hf : T.expr (.func f) = T.expr (.func f') := hT.expr rfl
    exact congrArg (fun c n => n + c) hf
  clsDecl {c c'} h := by
    have hc : T.expr (.cls c) = T.expr (.cls c') := hT.expr (congrArg Expr.cls h)
    exact congrArg (fun c n => n + c) hc

/-! ### Passes -/

/-- A pass does not add to the cost of the resolved program, and pays for its changes. -/
theorem Program.eliminateOnce_resolved_cost (T : Tariff) {p q : Program} {rs : List Change}
    (h : p.eliminateOnce = some (q, rs)) : q.fold T.fold + rs.length * T.unit ≤ p.resolve.1.fold T.fold := by
  obtain ⟨usage, -, h⟩ := Option.bind_eq_some_iff.1 h
  have hb := Program.pass_cost T p.resolve.1 usage p.resolve_numbered
  cases h
  rw [List.length_reverse]
  exact hb

theorem Program.eliminateOnce_cost {T : Tariff} (hT : T.Stampless) {p q : Program} {rs : List Change}
    (h : p.eliminateOnce = some (q, rs)) : q.fold T.fold + rs.length * T.unit ≤ p.fold T.fold :=
  hT.fold.resolve p ▸ Program.eliminateOnce_resolved_cost T h

/-- The tariff that charges for nothing. -/
def Tariff.free : Tariff where
  unit := 0
  ident _ _ := 0
  expr _ := 0
  binding _ _ _ := rfl
  unsited _ _ := Nat.le_refl 0
  expr_of_head _ := rfl
  number _ _ := rfl
  unary _ _ := rfl
  seq _ := rfl

/-- The tariff of the bulk. -/
def Tariff.bulk : Tariff := { Tariff.free with unit := 1 }

theorem Tariff.bulk_stampless : Tariff.bulk.Stampless := ⟨fun _ _ _ => rfl, fun _ => rfl⟩

theorem Program.fold_bulk (p : Program) : p.fold Tariff.bulk.fold = p.bulk := by
  have hone (n : Nat) : n * Tariff.bulk.unit = n := Nat.mul_one n
  have hfold : Tariff.bulk.fold = Fold.bulk := by
    simp only [Tariff.fold, Tariff.exprCost, Tariff.stmtCost, Tariff.declaratorCost, hone]
    rfl
  rw [hfold, Program.bulk]

/-- Every change of a pass takes away some of the bulk. -/
theorem Program.eliminateOnce_bulk {p q : Program} {rs : List Change} (h : p.eliminateOnce = some (q, rs)) :
    q.bulk + rs.length ≤ p.bulk := by
  have hb := Program.eliminateOnce_cost Tariff.bulk_stampless h
  rw [q.fold_bulk, p.fold_bulk] at hb
  exact Nat.mul_one rs.length ▸ hb

/-- The bulk of a program is bounded by the number of its parts. -/
theorem Program.bulk_le_weight (p : Program) : p.bulk ≤ 5 * p.weight := by
  refine Program.fold_related (R := fun m n => m ≤ 5 * n) ?_ p
  have hd (d : Declarator) {m n : Nat} (h : m ≤ 5 * n) : m + d.bulk ≤ 5 * (n + 1) := by
    have hd : d.bulk ≤ 2 := by
      cases d with
      | mk site target init => cases hn : target.isName <;> cases init <;> simp [Declarator.bulk, hn]
    omega
  constructor
  case empty => exact Nat.le_refl 0
  case hole => exact Nat.le_refl 0
  case append =>
    intro m n m' n' h h'
    show m + m' ≤ 5 * (n + n')
    omega
  case ident => exact fun _ _ => Nat.succ_le_succ (Nat.zero_le 4)
  case expr =>
    intro e m n _ h
    show m + e.bulk ≤ 5 * (n + 1)
    have he : e.bulk ≤ 1 := by cases e <;> simp [Expr.bulk]
    omega
  case stmt =>
    intro t m n _ h
    show m + t.bulk ≤ 5 * (n + 1)
    have ht : t.bulk ≤ 5 := by cases t <;> simp [Stmt.bulk]
    omega
  case declarator => exact fun _ site target init h => hd (.mk site target init) h
  case element => exact fun _ site target init h => hd (.mk site target init) h
  case funcDecl => exact fun _ h => h
  case clsDecl => exact fun _ h => h
  case property => exact fun _ _ _ h => h

/-! ### Runs -/

namespace Elimination

variable {o o' : Outcome} {m n bound : Nat}

theorem runFrom_succ (bound : Nat) (o : Outcome) :
    runFrom 0 (bound + 1) o = o.program.eliminateOnce.bind fun r =>
      if r.2.isEmpty then some (o.advance r.1 r.2) else runFrom 0 bound (o.advance r.1 r.2) := rfl

/-- The bound does not matter once there are more passes than the program has bulk. -/
theorem runFrom_congr (hm : o.program.bulk < m) (hn : o.program.bulk < n) :
    runFrom 0 m o = runFrom 0 n o := by
  induction m generalizing n o with
  | zero => cases hm
  | succ m ih =>
    obtain ⟨n, rfl⟩ : ∃ k, n = k + 1 := Nat.exists_eq_add_one.2 (Nat.zero_lt_of_lt hn)
    rw [runFrom_succ, runFrom_succ]
    cases hp : o.program.eliminateOnce with
    | none => rfl
    | some r =>
      obtain ⟨p, rs⟩ := r
      have hle := Program.eliminateOnce_bulk hp
      cases rs with
      | nil => rfl
      | cons c rs =>
        rw [List.length_cons] at hle
        have hprog : (o.advance p (c :: rs)).program = p := rfl
        have hlt : p.bulk < o.program.bulk := by omega
        exact ih (o := o.advance p (c :: rs)) (by rw [hprog]; omega) (by rw [hprog]; omega)

/-- A run that is given enough passes ends with one that changes nothing. -/
theorem runFrom_spec (hb : o.program.bulk < bound) (h : runFrom 0 bound o = some o') :
    (∃ q : Program, q.eliminateOnce = some (o'.program, [])) ∧
      o'.stats.iterations ≤ o.stats.iterations + o.program.bulk + 1 := by
  induction bound generalizing o with
  | zero => cases hb
  | succ bound ih =>
    rw [runFrom_succ] at h
    obtain ⟨⟨p, rs⟩, hp, h⟩ := Option.bind_eq_some_iff.1 h
    have hle := Program.eliminateOnce_bulk hp
    have hit : (o.advance p rs).stats.iterations = o.stats.iterations + 1 := rfl
    cases rs with
    | nil =>
      cases h
      refine ⟨⟨_, hp⟩, ?_⟩
      rw [hit]
      omega
    | cons c rs =>
      rw [List.length_cons] at hle
      have hprog : (o.advance p (c :: rs)).program = p := rfl
      obtain ⟨hq, hi⟩ := ih (o := o.advance p (c :: rs)) (by rw [hprog]; omega) h
      rw [hprog] at hi
      exact ⟨hq, by omega⟩

end Elimination

/-- Every change of a pass takes away some of the bulk of the program.  So a run without a limit comes to
an end, whatever bound on the number of passes above the bulk it is given: it makes no more than one pass
beyond the bulk of the program, and the last one changes nothing. -/
theorem Program.eliminate_terminates (p : Program) :
    (∀ (q r : Program) (rs : List Change), q.eliminateOnce = some (r, rs) → r.bulk + rs.length ≤ q.bulk) ∧
    (∀ bound, p.bulk < bound → (runFrom 0 bound { program := p }).map Outcome.finish = p.eliminate 0) ∧
    ∀ o, p.eliminate 0 = some o →
      o.stats.iterations ≤ p.bulk + 1 ∧ ∃ q : Program, q.eliminateOnce = some (o.program, []) := by
  have hw := p.bulk_le_weight
  refine ⟨fun _ _ _ h => eliminateOnce_bulk h, fun bound hb => ?_, fun o ho => ?_⟩
  · exact congrArg (Option.map Outcome.finish) (runFrom_congr hb (by show p.bulk < _; omega))
  · obtain ⟨o', ho', rfl⟩ := Option.map_eq_some_iff.1 ho
    obtain ⟨hq, hi⟩ := runFrom_spec (by show p.bulk < _; omega) ho'
    refine ⟨?_, hq⟩
    show o'.stats.iterations ≤ _
    simpa using hi

/-- `if (true) f(); else g();` -/
def sampleBranch : Program where
  body := [.cond (.bool true) (.expr (.ident { name := "f" })) (some (.expr (.ident { name := "g" })))]

/-- The run takes two passes, of which the second changes nothing. -/
theorem Program.eliminate_terminates_sample : ∃ o, sampleBranch.eliminate 0 = some o ∧
    o.stats.changes = 1 ∧ o.stats.iterations = 2 ∧ o.stats.iterations ≤ sampleBranch.bulk + 1 := by
  refine ⟨_, rfl, ?_, ?_, ((Program.eliminate_terminates sampleBranch).2.2 _ rfl).1⟩
  · decide
  · decide

end Deadwood
