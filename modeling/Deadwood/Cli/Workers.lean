import Deadwood.Cli.Run

/-!
# Workers

Files are processed by workers that run at the same time, one for every file.  A worker reads its file,
removes the dead code of the text, logs what was done, and leaves the result in the slots of its file.  Its
steps and those of the others may come in any order.  Once waiting for the workers has given no error, the
slots are read in the order of the files.  A worker that crashes ends the whole process, at once or after some
more steps of the others.
-/

namespace Deadwood.Cli

open Elimination

/-- How far a worker has come. -/
inductive Worker
  | waiting
  | loaded (text : String)
  /-- The result is there, and a part of its log is still to be written. -/
  | logging (r : Result) (rest : String)
  /-- The worker has returned an error, or crashed. -/
  | failed (f : Failure)
  | succeeded
deriving Inhabited

namespace Worker

/-- A worker that has read its file. -/
def ofRead : Except FileError String → Worker
  | .error e => .failed (.error e.message)
  | .ok text => .loaded text

/-- A worker that has removed the dead code of its text. -/
def ofElimination : Except Failure Result → Worker
  | .error f => .failed f
  | .ok r => .logging r r.log

/-- A worker that has returned. -/
def IsOver (w : Worker) : Prop := w = .succeeded ∨ ∃ message, w = .failed (.error message)

end Worker

/-- The workers for some files, and what they share. -/
structure Pool where
  workers : List Worker
  /-- The slots for the texts of the results. -/
  outputs : List String
  /-- The slots for the statistics. -/
  stats : List Stats
  output : Output
  tree : FileTree

/-- The workers before their first steps. -/
def Pool.start (paths : List String) (o : Output) (t : FileTree) : Pool where
  workers := paths.map fun _ => .waiting
  outputs := paths.map fun _ => ""
  stats := paths.map fun _ => {}
  output := o
  tree := t

/-- A step of the worker for the `i`th file.  A log may be written piece by piece, with those of other workers
between the pieces. -/
inductive Job.Step (job : Job) (dir : String) (paths : List String) : Pool → Pool → Prop
  | read {p : Pool} {i : Nat} {path : String} (hpath : paths[i]? = some path)
      (hw : p.workers[i]? = some .waiting) :
      Step job dir paths p { p with workers := p.workers.set i (.ofRead (p.tree.read dir path)) }
  | eliminate {p : Pool} {i : Nat} {path text : String} (hpath : paths[i]? = some path)
      (hw : p.workers[i]? = some (.loaded text)) :
      Step job dir paths p { p with workers := p.workers.set i (.ofElimination (job.eliminate path text)) }
  | log {p : Pool} {i : Nat} {r : Result} {piece rest : String} (hpiece : piece ≠ "")
      (hw : p.workers[i]? = some (.logging r (piece ++ rest))) :
      Step job dir paths p { p with
        workers := p.workers.set i (.logging r rest)
        output := { p.output with stderr := p.output.stderr ++ piece } }
  | finish {p : Pool} {i : Nat} {r : Result} (hw : p.workers[i]? = some (.logging r "")) :
      Step job dir paths p { p with
        workers := p.workers.set i .succeeded
        outputs := p.outputs.set i r.output
        stats := p.stats.set i r.stats }

/-- Any number of steps. -/
inductive Job.Steps (job : Job) (dir : String) (paths : List String) : Pool → Pool → Prop
  | refl (p : Pool) : Steps job dir paths p p
  | tail {p q r : Pool} (h : Steps job dir paths p q) (hstep : job.Step dir paths q r) : Steps job dir paths p r

/-- A group that workers belong to.  Waiting for it gives no error only if every worker has succeeded, and an
error only if a worker has failed with it.  It does not go on once all of them have returned. -/
structure Group where
  /-- What waiting may give while the workers have come so far. -/
  returns : List Worker → Option String → Prop
  succeeded : ∀ {ws}, returns ws none → ∀ w ∈ ws, w = .succeeded
  failed : ∀ {ws message}, returns ws (some message) → .failed (.error message) ∈ ws
  ends : ∀ {ws}, (∀ w ∈ ws, w.IsOver) → ∃ e, returns ws e

/-- A group that waits for all of its workers and gives the error of one that has failed. -/
def Group.all : Group where
  returns ws e :=
    (∀ w ∈ ws, w.IsOver) ∧ (e = none → ∀ w ∈ ws, w = .succeeded) ∧
      ∀ message ∈ e, .failed (.error message) ∈ ws
  succeeded h := h.2.1 rfl
  failed h := h.2.2 _ rfl
  ends {ws} hover := by
    by_cases h : ∃ message, .failed (.error message) ∈ ws
    · obtain ⟨message, hmessage⟩ := h
      exact ⟨some message, hover, nofun, fun _ h => Option.mem_some.1 h ▸ hmessage⟩
    · refine ⟨none, hover, fun _ w hw => ?_, nofun⟩
      obtain hw' | ⟨message, rfl⟩ := hover w hw
      · exact hw'
      · exact absurd ⟨message, hw⟩ h

/-- Runs a session on a tree of files, after some output. -/
def Session.runOn {α : Type} (x : Session (StateM FileTree) α) (o : Output) (t : FileTree) :
    (Except Failure α × Output) × FileTree :=
  (x.run.run o).run t

/-- A run over files with workers, from some output and tree of files to others. -/
inductive Job.Runs (job : Job) (g : Group) (dir input : String) (paths : List String) (o : Output) (t : FileTree) :
    Except Failure Unit → Output → FileTree → Prop
  | refuse {p : Pool} {message : String} (hp : job.Steps dir paths (.start paths o t) p)
      (hg : g.returns p.workers (some message)) :
      Runs job g dir input paths o t (.error (.error message)) p.output p.tree
  | crash {p : Pool} (hp : job.Steps dir paths (.start paths o t) p) (hw : .failed .crash ∈ p.workers) :
      Runs job g dir input paths o t (.error .crash) p.output p.tree
  | conclude {p : Pool} {result : Except Failure Unit} {o' : Output} {t' : FileTree}
      (hp : job.Steps dir paths (.start paths o t) p) (hg : g.returns p.workers none)
      (hrun : Session.runOn (job.conclude (FileTree.host dir input) paths p.outputs p.stats) p.output p.tree =
        ((result, o'), t')) : Runs job g dir input paths o t result o' t'

end Deadwood.Cli
