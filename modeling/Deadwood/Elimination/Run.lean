import Deadwood.Elimination.Traversal
import Deadwood.Removal
import Deadwood.Scope.Resolve
import Deadwood.Scope.Usage

/-!
# Runs

A run resolves the program, goes through it once, takes out what is dead, and starts over until a pass
makes no change.
-/

namespace Deadwood

namespace Elimination

/-- The number of changes of a run by their rules, and the number of its passes. -/
structure Stats where
  inlined : Nat := 0
  removed : Nat := 0
  folded : Nat := 0
  pruned : Nat := 0
  normalized : Nat := 0
  iterations : Nat := 0
deriving DecidableEq, Repr, Inhabited

namespace Stats

/-- The number of all changes. -/
def changes (s : Stats) : Nat := s.inlined + s.removed + s.folded + s.pruned + s.normalized

def add (s t : Stats) : Stats where
  inlined := s.inlined + t.inlined
  removed := s.removed + t.removed
  folded := s.folded + t.folded
  pruned := s.pruned + t.pruned
  normalized := s.normalized + t.normalized
  iterations := s.iterations + t.iterations

instance : Add Stats := ⟨add⟩

/-- The statistics of one pass. -/
def ofChanges (rs : List Change) : Stats where
  inlined := rs.countP (·.rule = .inline)
  removed := rs.countP (·.rule = .remove)
  folded := rs.countP (·.rule = .fold)
  pruned := rs.countP (·.rule = .prune)
  normalized := rs.countP (·.rule = .normalize)
  iterations := 1

end Stats

/-- What a run reports as it goes. -/
inductive Entry
  | change (iteration : Nat) (r : Change)
  | limitReached (limit : Nat)
  | finished (stats : Stats)
deriving DecidableEq, Repr, Inhabited

/-- The declarations of a program by their sites. -/
def declarations : Fold (List (Site × Definition)) where
  empty := []
  append := (· ++ ·)
  ident _ _ := []
  declarator := fun d ds =>
    match d with
    | .mk site (.ident _) init => (site, .variable init) :: ds
    | _ => ds
  funcDecl := fun f ds => (f.name.toList.map fun id => (id.site, .func f)) ++ ds
  clsDecl := fun c ds => (c.name.toList.map fun id => (id.site, .cls c)) ++ ds

/-- What is known of a resolved program at the start of a pass. -/
def State.start (p : Program) (info : Info) (usage : Usage) : State where
  info := info
  cyclic := usage.deadCycles info
  definitions := (p.fold declarations).foldl (fun ds d => ds.setIfInBounds d.1 (some d.2))
    (Array.replicate info.decls.size none)

/-- What is dead, where functions and classes are known by the sites of their names. -/
def State.buried (s : State) : Dead where
  isEmpty := s.dead.isEmpty
  declarator := s.isDead
  func := fun f => f.name.any fun id => s.isDead id.site
  cls := fun c => c.name.any fun id => s.isDead id.site
  alive := by
    intro h
    simp [State.isDead, List.isEmpty_iff.1 h]

/-- Takes dead declarations out of a program. -/
def State.sweep (s : State) (p : Program) : Program :=
  if s.dead.isEmpty then p else (p.remove s.renewal).sweep s.buried

/-- Something is dead where a program is swept. -/
theorem State.sweep_eq (s : State) (p : Program) :
    s.sweep p = if s.dead.isEmpty then p else (p.remove s.renewal).remove s.buried.removal := by
  unfold State.sweep
  split
  · rfl
  · next h => exact if_neg h

end Elimination

open Elimination

/-- One pass over a program, with its changes in order.  There is no answer for a program whose usage is
not known. -/
def Program.eliminateOnce (p : Program) : Option (Program × List Change) := do
  let (p, info) := p.resolve
  let usage ← p.usage? info
  let (body, s) := (Stmt.eliminateList false p.body).run (State.start p info usage)
  return (s.sweep { body }, s.changes.reverse)

/-- The number of parts of a program. -/
def Program.weight (p : Program) : Nat :=
  p.fold
    { empty := 0, append := (· + ·), ident := fun _ _ => 1
      expr := fun _ n => n + 1, stmt := fun _ n => n + 1, declarator := fun _ n => n + 1 }

namespace Elimination

/-- What a run leaves. -/
structure Outcome where
  program : Program
  stats : Stats := {}
  log : List Entry := []
deriving Inhabited

/-- The outcome after one more pass. -/
def Outcome.advance (o : Outcome) (p : Program) (rs : List Change) : Outcome :=
  let stats := o.stats + .ofChanges rs
  { program := p, stats, log := o.log ++ rs.map (.change stats.iterations) }

/-- Runs passes until one makes no change or the limit is reached; zero is no limit.  The bound is on the
number of passes. -/
def runFrom (limit : Nat) : Nat → Outcome → Option Outcome
  | 0, o => some o
  | bound + 1, o =>
    if 0 < limit && limit ≤ o.stats.iterations then
      some { o with log := o.log ++ [.limitReached limit] }
    else do
      let (p, rs) ← o.program.eliminateOnce
      let o := o.advance p rs
      if rs.isEmpty then return o else runFrom limit bound o

/-- The end of a run. -/
def Outcome.finish (o : Outcome) : Outcome := { o with log := o.log ++ [.finished o.stats] }

end Elimination

/-- Removes dead code from a program in at most `limit` passes, or as many as it takes if that is zero.
There is no answer if a pass has none. -/
def Program.eliminate (limit : Nat) (p : Program) : Option Outcome :=
  (runFrom limit (5 * (p.weight + 1)) { program := p }).map Outcome.finish

namespace Elimination

/-- How a host that runs many passes knows this one. -/
structure PassInfo where
  name : String
  group : String
  isExperimental : Bool
deriving DecidableEq, Repr, Inhabited

def passInfo : PassInfo where
  name := "dead-code-elimination"
  group := "builtin-pre"
  isExperimental := true

/-- Runs of one pass each, with their outcomes, until one makes no change. -/
def singleSteps : Nat → Program → List Outcome
  | 0, _ => []
  | bound + 1, p =>
    match p.eliminate 1 with
    | none => []
    | some o => o :: if o.stats.changes = 0 then [] else singleSteps bound o.program

end Elimination

end Deadwood
