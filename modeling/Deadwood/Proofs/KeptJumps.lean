import Deadwood.Proofs.ParsedJumps
import Deadwood.Proofs.Portable
import Deadwood.Proofs.Stampless

/-!
# Jumps keep their targets

A pass moves statements only within the loops, labels and functions around them, and what it moves elsewhere
are expressions, which no jump leaves.  So the jumps that have their targets before a pass have them after it.
-/

namespace Deadwood

open Elimination

/-! ### Heads and forms -/

theorem Stmt.hits_head {c : Targets} (t : Stmt) : t.head.Hits c ↔ t.Hits c := by
  cases t <;> exact Iff.rfl

theorem Stmt.targets_head {c : Targets} (t : Stmt) : t.head.targets c = t.targets c := by
  cases t <;> rfl

theorem Fold.aimed_stmt_of_head {t t' : Stmt} (h : t.head = t'.head) : Fold.aimed.stmt t = Fold.aimed.stmt t' := by
  funext P c
  show (t.Hits c ∧ P (t.targets c)) = (t'.Hits c ∧ P (t'.targets c))
  rw [← t.hits_head, ← t.targets_head, h, t'.hits_head, t'.targets_head]

theorem Fold.aimed_hereditary : Fold.aimed.Hereditary id where
  empty _ := trivial
  append := Iff.rfl
  nothing _ := ⟨trivial, trivial⟩
  wrapped h := ⟨trivial, h⟩
  unwrapped h _ := h.2
  cond {_ _ _ _} := (iff_of_eq (true_and _)).trans
    (and_congr_left' (Expr.aimed_iff.trans Expr.aimed_iff.symm))
  branched h := h
  bare ids c := by
    refine ⟨trivial, Declarator.foldList_aimed (fun d hd => ?_) _ _⟩
    obtain ⟨id, -, rfl⟩ := List.mem_map.1 hd
    exact fun _ _ => ⟨trivial, trivial⟩
  choice := by
    intro test yes no c
    show test.Aimed ∧ yes.Aimed ∧ no.Aimed ↔ _
    rw [Expr.aimed_iff, Expr.aimed_iff, Expr.aimed_iff]
  seq he := ⟨trivial, Expr.aimed_iff.2 (Expr.aimed_iff.1 he), trivial⟩
  not {e c} := by
    show e.Aimed ↔ _
    exact Expr.aimed_iff.symm
  short := iff_of_true ⟨trivial, trivial⟩ trivial
  keyed he := ⟨trivial, he⟩

theorem Fold.aimed_stampless : Fold.aimed.Stampless where
  lawful := Fold.aimed_hereditary.lawful
  ident _ _ _ := rfl
  expr _ := rfl
  stmt {t t'} h _ := by
    have hform (t : Stmt) : Fold.aimed.stmt t.form = Fold.aimed.stmt t := by cases t <;> rfl
    rw [← hform t, h, hform]
  property _ := rfl
  declarator _ _ := rfl
  element _ _ := rfl
  funcDecl _ _ := rfl
  clsDecl _ := rfl

theorem Program.resolve_aimed {p : Program} (h : p.Aimed) : p.resolve.1.Aimed := by
  have hr := congrFun (Fold.aimed_stampless.resolve p) {}
  exact hr.mpr h

/-- A jump has its target inside of the body it stands in, wherever that goes. -/
theorem Fold.aimed_portable : Fold.aimed.Portable id .body where
  toHereditary := Fold.aimed_hereditary
  binding _ _ _ := rfl
  expr := Iff.rfl
  stmt {t t'} ht c := by
    refine ⟨t.Hits c, t.targets c, fun P => ⟨Iff.rfl, ?_⟩⟩
    rw [← Fold.aimed_stmt_of_head ht]
    exact Iff.rfl
  property _ := .refl
  declarator _ := .refl
  element _ := .refl
  funcDecl _ _ _ := ⟨True, fun _ => ⟨(and_iff_right trivial).symm, (and_iff_right trivial).symm⟩⟩
  clsDecl _ _ _ := ⟨True, fun _ => ⟨(and_iff_right trivial).symm, (and_iff_right trivial).symm⟩⟩

theorem Program.eliminate_aimed {limit : Nat} {p : Program} {o : Outcome} (h : p.eliminate limit = some o)
    (hp : p.Aimed) : o.program.Aimed := by
  obtain ⟨o', hrun, rfl⟩ := Option.map_eq_some_iff.1 h
  have hkeeps := runFrom_keeps (P := Program.Aimed)
    (fun hq hp => Fold.aimed_portable.eliminateOnce (Program.resolve_aimed hp) hq) hrun
  exact hkeeps hp

/-- Every jump of a parsed program has its target, and still has it after elimination in any number of
passes. -/
theorem Program.parse_eliminate_aimed {text : String} {p : Program} (h : Program.parse text = .ok p) :
    p.Aimed ∧ ∀ limit o, p.eliminate limit = some o → o.program.Aimed :=
  have hp := Program.aimed_of_parse h
  ⟨hp, fun _ _ ho => Program.eliminate_aimed ho hp⟩

theorem Program.parse_eliminate_aimed_sample :
    ∃ p, Program.parse "a: while (f()) \x7b for (;;) \x7b if (g) continue a; break \x7d h(() => \x7b return 1 \x7d) \x7d" = .ok p ∧
      p.Aimed ∧ ∀ limit o, p.eliminate limit = some o → o.program.Aimed := by
  generalize hr : Program.parse _ = r
  have hok : r.isOk = true := by
    subst hr
    decide +kernel
  cases r with
  | error faults => cases hok
  | ok p => exact ⟨p, rfl, Program.parse_eliminate_aimed hr⟩

end Deadwood
