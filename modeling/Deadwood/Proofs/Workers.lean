import Deadwood.Cli.Workers
import Deadwood.Proofs.Writing
import Mathlib.Algebra.GroupWithZero.Nat

/-!
# What workers do

The workers for some files write nothing but their logs, and the slots that they fill depend on the files
alone.  So whatever the order of their steps, either a file that cannot be processed makes the whole run
fail before anything is written, or what is written is what processing the files one by one writes.
-/

namespace Deadwood.Cli

open Elimination

variable {α β : Type} {job : Job} {g : Group} {dir input : String} {paths : List String} {o o' : Output}
  {t t' : FileTree} {p q r : Pool}

/-! ### Sessions -/

namespace Session

variable {x : Session (StateM FileTree) α} {f : α → Session (StateM FileTree) β}

theorem runOn_bind {a : α} (h : runOn x o t = ((.ok a, o'), t')) : runOn (x >>= f) o t = runOn (f a) o' t' := by
  show (fun r => StateT.run (StateT.run (ExceptT.bindCont f r.1.1) r.1.2) r.2) (runOn x o t) = _
  rw [h]
  rfl

theorem runOn_bind_error {e : Failure} (h : runOn x o t = ((.error e, o'), t')) :
    runOn (x >>= f) o t = ((.error e, o'), t') := by
  show (fun r => StateT.run (StateT.run (ExceptT.bindCont f r.1.1) r.1.2) r.2) (runOn x o t) = _
  rw [h]
  rfl

theorem runOn_note (s : String) : runOn (note s) o t = ((.ok (), { o with stderr := o.stderr ++ s }), t) := rfl

theorem runOn_print (s : String) : runOn (print s) o t = ((.ok (), { o with stdout := o.stdout ++ s }), t) := rfl

/-- Writes a text for each of a list. -/
theorem runOn_forM_note {γ : Type} {f : γ → Session (StateM FileTree) Unit} {s : γ → String}
    (h : ∀ c o, runOn (f c) o t = ((.ok (), { o with stderr := o.stderr ++ s c }), t)) (l : List γ) :
    runOn (l.forM f) o t = ((.ok (), { o with stderr := o.stderr ++ String.join (l.map s) }), t) := by
  induction l generalizing o with
  | nil =>
    simp only [List.map_nil, String.join_nil, String.append_empty]
    rfl
  | cons c l ih =>
    show runOn (f c >>= fun _ => l.forM f) o t = _
    rw [runOn_bind (h c o), ih, List.map_cons, String.join_cons, String.append_assoc]

/-- Lifts what a host does. -/
theorem runOn_lift {x : StateM FileTree α} {a : α} (h : x.run t = (a, t')) :
    runOn (liftM x : Session (StateM FileTree) α) o t = ((.ok a, o), t') := by
  show (fun r => ((Except.ok r.1, o), r.2)) (x.run t) = _
  rw [h]

theorem run_read (path : String) : ((FileTree.host dir input).read path).run t = (t.read dir path, t) := rfl

theorem run_write {path content : String} (h : t.write dir path content = .ok t') :
    ((FileTree.host dir input).write path content).run t = (.ok (), t') := by
  simp only [FileTree.host, StateT.run_bind, StateT.run_get, pure_bind, h]
  rfl

theorem run_write_error {path content : String} {e : FileError} (h : t.write dir path content = .error e) :
    ((FileTree.host dir input).write path content).run t = (.error e, t) := by
  simp only [FileTree.host, StateT.run_bind, StateT.run_get, pure_bind, h]
  rfl

theorem runOn_writeFile {path content : String} (h : t.write dir path content = .ok t') :
    runOn (writeFile (FileTree.host dir input) path content) o t = ((.ok (), o), t') :=
  runOn_bind (runOn_lift (run_write h))

theorem runOn_writeFile_error {path content : String} {e : FileError} (h : t.write dir path content = .error e) :
    runOn (writeFile (FileTree.host dir input) path content) o t =
      ((.error (.error ("write " ++ path ++ ": " ++ e.message)), o), t) :=
  runOn_bind (runOn_lift (run_write_error h))

theorem runOn_writeFile_eq (path content : String) :
    runOn (writeFile (FileTree.host dir input) path content) o t =
      (((t.writeAll dir [(path, content)]).1, o), (t.writeAll dir [(path, content)]).2) := by
  unfold FileTree.writeAll
  cases hwrite : t.write dir path content with
  | error e => exact runOn_writeFile_error hwrite
  | ok t₁ => exact runOn_writeFile hwrite

theorem runOn_writeFiles (files : List (String × String)) :
    runOn (files.forM fun file => writeFile (FileTree.host dir input) file.1 file.2) o t =
      (((t.writeAll dir files).1, o), (t.writeAll dir files).2) := by
  induction files generalizing t with
  | nil => rfl
  | cons file files ih =>
    show runOn (writeFile (FileTree.host dir input) file.1 file.2 >>= fun _ => files.forM _) o t = _
    unfold FileTree.writeAll
    cases hwrite : t.write dir file.1 file.2 with
    | error e => exact runOn_bind_error (runOn_writeFile_error hwrite)
    | ok t₁ => exact (runOn_bind (runOn_writeFile hwrite)).trans ih

end Session

open Session

/-! ### What is written once the results are there -/

/-- The line that sums up a file, if it is asked for. -/
def Job.summaryOf (job : Job) (name : String) (s : Stats) : String :=
  if job.flags.stats then summaryLine name s else ""

/-- The lines that sum up a run over files; the last one has the total. -/
def Job.summary (job : Job) (paths : List String) (stats : List Stats) (total : Stats) : String :=
  String.join ((paths.zip stats).map fun file => job.summaryOf file.1 file.2) ++
    if 1 < paths.length then job.summaryOf "total" total else ""

/-- The counters of the statistics. -/
def counters : List (Stats → Nat) :=
  [Stats.inlined, Stats.removed, Stats.folded, Stats.pruned, Stats.normalized, Stats.iterations]

theorem counter_add {counter : Stats → Nat} (h : counter ∈ counters) (a b : Stats) :
    counter (a + b) = counter a + counter b := by
  simp only [counters, List.mem_cons, List.not_mem_nil, or_false] at h
  obtain rfl | rfl | rfl | rfl | rfl | rfl := h <;> rfl

/-- Every counter of a total is the sum of that counter. -/
theorem counter_foldl {counter : Stats → Nat} (h : counter ∈ counters) (stats : List Stats) (s : Stats) :
    counter (stats.foldl (· + ·) s) = counter s + (stats.map counter).sum := by
  induction stats generalizing s with
  | nil => rfl
  | cons a stats ih =>
    rw [List.foldl_cons, ih, counter_add h, List.map_cons, List.sum_cons, Nat.add_assoc]

/-- Writes the results to where the flags say.  Returns the error, the standard output, and the files. -/
def Job.deliver (job : Job) (dir : String) (paths outputs : List String) (stdout : String) (t : FileTree) :
    Except Failure Unit × String × FileTree :=
  if job.flags.write then
    ((t.writeAll dir (paths.zip outputs)).1, stdout, (t.writeAll dir (paths.zip outputs)).2)
  else if job.flags.output ≠ "" then
    ((t.writeAll dir [(job.flags.output, outputs.headD "")]).1, stdout,
      (t.writeAll dir [(job.flags.output, outputs.headD "")]).2)
  else (.ok (), stdout ++ String.join outputs, t)

theorem runOn_summarize (name : String) (s : Stats) : runOn (job.summarize name s) o t =
    ((.ok (), { o with stderr := o.stderr ++ job.summaryOf name s }), t) := by
  unfold Job.summarize Job.summaryOf
  split
  · exact runOn_note _
  · rw [String.append_empty]
    rfl

theorem runOn_deliver (outputs : List String) :
    runOn (if job.flags.write then
        (paths.zip outputs).forM fun file => writeFile (FileTree.host dir input) file.1 file.2
      else if job.flags.output ≠ "" then
        writeFile (FileTree.host dir input) job.flags.output (outputs.headD "")
      else print (String.join outputs)) o t =
      (((job.deliver dir paths outputs o.stdout t).1, { o with
        stdout := (job.deliver dir paths outputs o.stdout t).2.1 }),
        (job.deliver dir paths outputs o.stdout t).2.2) := by
  unfold Job.deliver
  split
  · exact runOn_writeFiles _
  · split
    · exact runOn_writeFile_eq _ _
    · exact runOn_print _

theorem runOn_conclude (outputs : List String) (stats : List Stats) :
    runOn (job.conclude (FileTree.host dir input) paths outputs stats) o t =
      (((job.deliver dir paths outputs o.stdout t).1, {
        stdout := (job.deliver dir paths outputs o.stdout t).2.1
        stderr := o.stderr ++ job.summary paths stats (stats.foldl (· + ·) {}) }),
        (job.deliver dir paths outputs o.stdout t).2.2) := by
  unfold Job.conclude Job.summary
  refine (runOn_bind (runOn_forM_note (fun file o => runOn_summarize file.1 file.2) _)).trans ?_
  by_cases hlength : 1 < paths.length
  · rw [if_pos hlength, if_pos hlength, ← String.append_assoc]
    exact (runOn_bind (runOn_summarize "total" _)).trans (runOn_deliver outputs)
  · rw [if_neg hlength, if_neg hlength, String.append_empty]
    exact runOn_deliver outputs

theorem Job.deliver_ne_crash (job : Job) (dir : String) (paths outputs : List String) (stdout : String)
    (t : FileTree) : (job.deliver dir paths outputs stdout t).1 ≠ .error .crash := by
  unfold deliver
  split
  · exact FileTree.writeAll_ne_crash
  · split
    · exact FileTree.writeAll_ne_crash
    · nofun

/-! ### Results -/

/-- What becomes of a file. -/
def Job.outcome (job : Job) (dir : String) (t : FileTree) (path : String) : Except Failure Result :=
  match t.read dir path with
  | .error e => .error (.error e.message)
  | .ok text => job.eliminate path text

theorem Job.outcome_of_read {path text : String} (h : t.read dir path = .ok text) :
    job.outcome dir t path = job.eliminate path text := by
  unfold outcome
  rw [h]

theorem Job.outcome_of_read_error {path : String} {e : FileError} (h : t.read dir path = .error e) :
    job.outcome dir t path = .error (.error e.message) := by
  unfold outcome
  rw [h]

/-- A file that becomes a result can be read. -/
theorem Job.read_of_outcome {path : String} {r : Result} (h : job.outcome dir t path = .ok r) :
    ∃ text, t.read dir path = .ok text ∧ job.eliminate path text = .ok r := by
  cases hread : t.read dir path with
  | error e =>
    rw [outcome_of_read_error hread] at h
    cases h
  | ok text =>
    rw [outcome_of_read hread] at h
    exact ⟨text, rfl, h⟩

/-- A result is made of what the elimination leaves of the program. -/
theorem Job.eliminate_eq_ok {name text : String} {r : Result} (h : job.eliminate name text = .ok r) :
    ∃ program outcome, Program.parse text = .ok program ∧ program.eliminate job.limit = some outcome ∧
      r = { output := outcome.program.print, stats := outcome.stats,
            log := if job.flags.verbose then String.join (outcome.log.map (entryLine name)) else "" } := by
  unfold eliminate at h
  cases hparse : Program.parse text with
  | error faults =>
    rw [hparse] at h
    cases h
  | ok program =>
    simp only [hparse] at h
    cases heliminate : program.eliminate job.limit with
    | none =>
      rw [heliminate] at h
      cases h
    | some outcome =>
      simp only [heliminate] at h
      cases h
      exact ⟨program, outcome, rfl, heliminate, rfl⟩

/-- The output does not depend on the name of the file. -/
theorem Job.output_eq {name name' text : String} {r r' : Result} (h : job.eliminate name text = .ok r)
    (h' : job.eliminate name' text = .ok r') : r.output = r'.output := by
  obtain ⟨program, outcome, hparse, heliminate, rfl⟩ := eliminate_eq_ok h
  obtain ⟨program', outcome', hparse', heliminate', rfl⟩ := eliminate_eq_ok h'
  rw [hparse] at hparse'
  cases hparse'
  rw [heliminate] at heliminate'
  cases heliminate'
  rfl

theorem Job.exists_result {name text output : String}
    (h : (job.eliminate name text).toOption.map Result.output = some output) :
    ∃ r, job.eliminate name text = .ok r ∧ r.output = output := by
  obtain ⟨r, hr, houtput⟩ := Option.map_eq_some_iff.1 h
  cases heliminate : job.eliminate name text with
  | error f =>
    rw [heliminate] at hr
    cases hr
  | ok r' =>
    rw [heliminate] at hr
    cases hr
    exact ⟨r, rfl, houtput⟩

/-- Nothing is logged unless it is asked for. -/
theorem Job.log_eq {name text : String} {r : Result} (h : job.eliminate name text = .ok r)
    (hverbose : job.flags.verbose = false) : r.log = "" := by
  obtain ⟨program, outcome, -, -, rfl⟩ := eliminate_eq_ok h
  rw [hverbose]
  rfl

/-! ### Processing the files one by one -/

theorem runOn_processFile {path : String} {r : Result} (h : job.outcome dir t path = .ok r) :
    runOn (job.processFile (FileTree.host dir input) path) o t =
      ((.ok (.ok r), { o with stderr := o.stderr ++ r.log }), t) := by
  obtain ⟨text, hread, heliminate⟩ := Job.read_of_outcome h
  unfold Job.processFile
  refine (runOn_bind (runOn_lift (run_read path))).trans ?_
  simp only [hread, heliminate]
  exact runOn_bind (runOn_note r.log)

/-- Files that all have a result are processed one after the other. -/
theorem runOn_processFiles {rs : List Result} (h : paths.map (job.outcome dir t) = rs.map .ok) :
    runOn (paths.mapM (job.processFile (FileTree.host dir input))) o t =
      ((.ok (rs.map .ok), { o with stderr := o.stderr ++ String.join (rs.map Result.log) }), t) := by
  induction paths generalizing rs o with
  | nil =>
    cases rs with
    | nil =>
      rw [List.mapM_nil, List.map_nil, List.map_nil, String.join_nil, String.append_empty]
      rfl
    | cons r rs => cases h
  | cons path paths ih =>
    cases rs with
    | nil => cases h
    | cons r rs =>
      rw [List.map_cons, List.map_cons, List.cons.injEq] at h
      rw [List.mapM_cons, runOn_bind (runOn_processFile h.1), runOn_bind (ih h.2), List.map_cons, List.map_cons,
        String.join_cons, String.append_assoc]
      rfl

/-- Processing files that all have a result goes on to conclude. -/
theorem runOn_processAll {rs : List Result} (h : paths.map (job.outcome dir t) = rs.map .ok) :
    runOn (job.processAll (FileTree.host dir input) paths) o t =
      runOn (job.conclude (FileTree.host dir input) paths (rs.map Result.output) (rs.map Result.stats))
        { o with stderr := o.stderr ++ String.join (rs.map Result.log) } t := by
  unfold Job.processAll
  rw [runOn_bind (runOn_processFiles h), List.mapM_map]
  have hresults : rs.mapM (fun r => (pure r : Session (StateM FileTree) Result)) = pure rs := by
    rw [List.mapM_pure, List.map_id']
  exact runOn_bind (congrArg (runOn · _ t) hresults)

/-! ### Pools -/

/-- What a worker that has come so far says of its file, with the slots of the file. -/
def Worker.Fits (job : Job) (dir : String) (t : FileTree) (path : String) (output : Option String)
    (stats : Option Stats) : Worker → Prop
  | waiting => True
  | loaded text => t.read dir path = .ok text
  | logging r rest => job.outcome dir t path = .ok r ∧ (job.flags.verbose = false → rest = "")
  | failed f => job.outcome dir t path = .error f
  | succeeded => ∃ r, job.outcome dir t path = .ok r ∧ output = some r.output ∧ stats = some r.stats

/-- What holds of workers that have come some way: there is one with slots for each file, each says the truth
of its file, and nothing but logs has been written. -/
structure Pool.Fits (job : Job) (dir : String) (paths : List String) (o : Output) (t : FileTree) (p : Pool) :
    Prop where
  workers_length : p.workers.length = paths.length
  outputs_length : p.outputs.length = paths.length
  stats_length : p.stats.length = paths.length
  tree : p.tree = t
  stdout : p.output.stdout = o.stdout
  stderr : ∃ log, (job.flags.verbose = false → log = "") ∧ p.output.stderr = o.stderr ++ log
  worker : ∀ {i : Nat} {path : String} {w : Worker}, paths[i]? = some path → p.workers[i]? = some w →
    w.Fits job dir t path p.outputs[i]? p.stats[i]?

theorem Worker.fits_ofRead {path : String} {output : Option String} {stats : Option Stats} :
    (ofRead (t.read dir path)).Fits job dir t path output stats := by
  cases hread : t.read dir path with
  | error e => exact Job.outcome_of_read_error hread
  | ok text => exact hread

theorem Worker.fits_ofElimination {path text : String} {output : Option String} {stats : Option Stats}
    (hread : t.read dir path = .ok text) :
    (ofElimination (job.eliminate path text)).Fits job dir t path output stats := by
  have houtcome : job.outcome dir t path = job.eliminate path text := Job.outcome_of_read hread
  cases heliminate : job.eliminate path text with
  | error f => exact houtcome.trans heliminate
  | ok r => exact ⟨houtcome.trans heliminate, Job.log_eq heliminate⟩

namespace Pool.Fits

theorem start : (Pool.start paths o t).Fits job dir paths o t where
  workers_length := List.length_map ..
  outputs_length := List.length_map ..
  stats_length := List.length_map ..
  tree := rfl
  stdout := rfl
  stderr := ⟨"", fun _ => rfl, (String.append_empty ..).symm⟩
  worker {i path w} _ hw := by
    unfold Pool.start at hw
    rw [List.getElem?_map] at hw
    obtain ⟨-, -, rfl⟩ := Option.map_eq_some_iff.1 hw
    trivial

variable (h : p.Fits job dir paths o t)

include h

theorem exists_path {i : Nat} {w : Worker} (hw : p.workers[i]? = some w) : ∃ path, paths[i]? = some path := by
  obtain ⟨hi, -⟩ := List.getElem?_eq_some_iff.1 hw
  rw [h.workers_length] at hi
  exact ⟨paths[i], List.getElem?_eq_getElem hi⟩

/-- The other workers are not concerned by what one does. -/
theorem worker_set {i : Nat} {path : String} {w : Worker} {outputs : List String} {stats : List Stats}
    (hpath : paths[i]? = some path) (hw : w.Fits job dir t path outputs[i]? stats[i]?)
    (houtputs : ∀ j, j ≠ i → outputs[j]? = p.outputs[j]?) (hstats : ∀ j, j ≠ i → stats[j]? = p.stats[j]?)
    {j : Nat} {path' : String} {w' : Worker} (hpath' : paths[j]? = some path')
    (hw' : (p.workers.set i w)[j]? = some w') : w'.Fits job dir t path' outputs[j]? stats[j]? := by
  by_cases hij : i = j
  · subst hij
    rw [hpath] at hpath'
    cases hpath'
    obtain ⟨hi, -⟩ := List.getElem?_eq_some_iff.1 hw'
    rw [List.length_set] at hi
    rw [List.getElem?_set_self hi] at hw'
    cases hw'
    exact hw
  · rw [List.getElem?_set_ne hij] at hw'
    rw [houtputs j (Ne.symm hij), hstats j (Ne.symm hij)]
    exact h.worker hpath' hw'

/-- A step keeps it. -/
theorem step (hstep : job.Step dir paths p q) : q.Fits job dir paths o t := by
  cases hstep with
  | read hpath hw =>
    refine { h with workers_length := ?_, worker := fun hpath' hw' => ?_ }
    · rw [List.length_set, h.workers_length]
    · refine h.worker_set hpath ?_ (fun _ _ => rfl) (fun _ _ => rfl) hpath' hw'
      rw [h.tree]
      exact Worker.fits_ofRead
  | eliminate hpath hw =>
    refine { h with workers_length := ?_, worker := fun hpath' hw' => ?_ }
    · rw [List.length_set, h.workers_length]
    · have hread := h.worker hpath hw
      exact h.worker_set hpath (Worker.fits_ofElimination hread) (fun _ _ => rfl) (fun _ _ => rfl) hpath' hw'
  | @log i r piece rest hpiece hw =>
    obtain ⟨path, hpath⟩ := h.exists_path hw
    obtain ⟨houtcome, hverbose⟩ := h.worker hpath hw
    obtain ⟨log, hlog, hstderr⟩ := h.stderr
    refine { h with
      workers_length := ?_
      stderr := ⟨log ++ piece, fun hquiet => ?_, ?_⟩
      worker := fun hpath' hw' => ?_ }
    · rw [List.length_set, h.workers_length]
    · rw [hlog hquiet, (String.append_eq_empty_iff.1 (hverbose hquiet)).1, String.append_empty]
    · rw [hstderr, String.append_assoc]
    · have hfits : (Worker.logging r rest).Fits job dir t path p.outputs[i]? p.stats[i]? :=
        ⟨houtcome, fun hquiet => (String.append_eq_empty_iff.1 (hverbose hquiet)).2⟩
      exact h.worker_set hpath hfits (fun _ _ => rfl) (fun _ _ => rfl) hpath' hw'
  | @finish i r hw =>
    obtain ⟨path, hpath⟩ := h.exists_path hw
    obtain ⟨houtcome, -⟩ := h.worker hpath hw
    have hi : i < paths.length := (List.getElem?_eq_some_iff.1 hpath).1
    refine { h with workers_length := ?_, outputs_length := ?_, stats_length := ?_, worker := fun hpath' hw' => ?_ }
    · rw [List.length_set, h.workers_length]
    · rw [List.length_set, h.outputs_length]
    · rw [List.length_set, h.stats_length]
    · have houtputs : (p.outputs.set i r.output)[i]? = some r.output := List.getElem?_set_self (h.outputs_length ▸ hi)
      have hstats : (p.stats.set i r.stats)[i]? = some r.stats := List.getElem?_set_self (h.stats_length ▸ hi)
      have hfits : Worker.succeeded.Fits job dir t path (p.outputs.set i r.output)[i]? (p.stats.set i r.stats)[i]? :=
        ⟨r, houtcome, houtputs, hstats⟩
      exact h.worker_set hpath hfits (fun j hj => List.getElem?_set_ne hj.symm)
        (fun j hj => List.getElem?_set_ne hj.symm) hpath' hw'

/-- Any number of steps keeps it. -/
theorem steps (hsteps : job.Steps dir paths p q) : q.Fits job dir paths o t := by
  induction hsteps with
  | refl => exact h
  | tail _ hstep ih => exact ih.step hstep

/-- A worker that has failed has failed like a file. -/
theorem exists_failed {f : Failure} (hw : .failed f ∈ p.workers) :
    ∃ path ∈ paths, job.outcome dir t path = .error f := by
  obtain ⟨i, hi⟩ := List.getElem?_of_mem hw
  obtain ⟨path, hpath⟩ := h.exists_path hi
  exact ⟨path, List.mem_of_getElem? hpath, h.worker hpath hi⟩

/-- Once all the workers have succeeded, the slots hold the results of the files. -/
theorem succeeded (hall : ∀ w ∈ p.workers, w = .succeeded) {i : Nat} {path : String} (hpath : paths[i]? = some path) :
    ∃ r, job.outcome dir t path = .ok r ∧ p.outputs[i]? = some r.output ∧ p.stats[i]? = some r.stats := by
  have hi : i < p.workers.length := by
    rw [h.workers_length]
    exact (List.getElem?_eq_some_iff.1 hpath).1
  have hw : p.workers[i]? = some .succeeded := by
    rw [List.getElem?_eq_getElem hi, hall _ (List.getElem_mem hi)]
  exact h.worker hpath hw

theorem slots (hall : ∀ w ∈ p.workers, w = .succeeded) {rs : List Result}
    (hrs : paths.map (job.outcome dir t) = rs.map .ok) :
    p.outputs = rs.map Result.output ∧ p.stats = rs.map Result.stats := by
  have hslot : ∀ i : Nat, p.outputs[i]? = (rs.map Result.output)[i]? ∧ p.stats[i]? = (rs.map Result.stats)[i]? := by
    intro i
    have hi : paths[i]?.map (job.outcome dir t) = rs[i]?.map .ok := by
      rw [← List.getElem?_map, hrs, List.getElem?_map]
    rw [List.getElem?_map, List.getElem?_map]
    cases hpath : paths[i]? with
    | none =>
      rw [hpath] at hi
      have hlength := List.getElem?_eq_none_iff.1 hpath
      rw [Option.map_eq_none_iff.1 hi.symm]
      exact ⟨List.getElem?_eq_none (h.outputs_length ▸ hlength), List.getElem?_eq_none (h.stats_length ▸ hlength)⟩
    | some path =>
      obtain ⟨r, houtcome, houtput, hstats⟩ := h.succeeded hall hpath
      rw [hpath, Option.map_some, houtcome] at hi
      obtain ⟨r', hr', heq⟩ := Option.map_eq_some_iff.1 hi.symm
      cases heq
      rw [houtput, hstats, hr']
      exact ⟨rfl, rfl⟩
  exact ⟨List.ext_getElem? fun i => (hslot i).1, List.ext_getElem? fun i => (hslot i).2⟩

end Pool.Fits

/-! ### Ends -/

namespace Job.Steps

theorem trans (h : job.Steps dir paths p q) (h' : job.Steps dir paths q r) : job.Steps dir paths p r := by
  induction h' with
  | refl => exact h
  | tail _ hstep ih => exact ih.tail hstep

theorem head (hstep : job.Step dir paths p q) (h : job.Steps dir paths q r) : job.Steps dir paths p r :=
  ((refl p).tail hstep).trans h

end Job.Steps

/-- How much of a log there is. -/
def logLength : Except Failure Result → Nat
  | .error _ => 0
  | .ok r => r.log.length

/-- A bound on the steps that a worker still makes. -/
def Worker.toDo (job : Job) (dir : String) (t : FileTree) (path : String) : Worker → Nat
  | waiting => logLength (job.outcome dir t path) + 3
  | loaded text => logLength (job.eliminate path text) + 2
  | logging _ rest => rest.length + 1
  | failed _ | succeeded => 0

/-- A bound on the steps that the workers still make. -/
def Pool.toDo (job : Job) (dir : String) (paths : List String) (p : Pool) : Nat :=
  ((paths.zip p.workers).map fun worker => worker.2.toDo job dir p.tree worker.1).sum

theorem Worker.toDo_ofRead (path : String) :
    (ofRead (t.read dir path)).toDo job dir t path < waiting.toDo job dir t path := by
  show _ < logLength (job.outcome dir t path) + 3
  cases hread : t.read dir path with
  | error e => exact Nat.succ_pos _
  | ok text =>
    rw [Job.outcome_of_read hread]
    exact Nat.lt_succ_self _

theorem Worker.toDo_ofElimination (path text : String) :
    (ofElimination (job.eliminate path text)).toDo job dir t path < (loaded text).toDo job dir t path := by
  show _ < logLength (job.eliminate path text) + 2
  cases job.eliminate path text with
  | error f => exact Nat.succ_pos _
  | ok r =>
    show r.log.length + 1 < r.log.length + 2
    omega

theorem Worker.toDo_logging (r : Result) {piece : String} (hpiece : piece ≠ "") (rest path : String) :
    (logging r rest).toDo job dir t path < (logging r (piece ++ rest)).toDo job dir t path := by
  have hlength : piece.length ≠ 0 := by simpa using hpiece
  show rest.length + 1 < (piece ++ rest).length + 1
  rw [String.length_append]
  omega

/-- One worker with less to do makes less to do. -/
theorem sum_toDo_set {ws : List Worker} {i : Nat} {path : String} {w w' : Worker} (hpath : paths[i]? = some path)
    (hw : ws[i]? = some w) (hlt : w'.toDo job dir t path < w.toDo job dir t path) :
    ((paths.zip (ws.set i w')).map fun worker => worker.2.toDo job dir t worker.1).sum <
      ((paths.zip ws).map fun worker => worker.2.toDo job dir t worker.1).sum := by
  induction paths generalizing ws i with
  | nil => cases hpath
  | cons path' paths ih =>
    cases ws with
    | nil => cases hw
    | cons w₀ ws =>
      cases i with
      | zero =>
        cases hpath
        cases hw
        simpa using hlt
      | succ i =>
        have hless := ih (show paths[i]? = some path from hpath) (show ws[i]? = some w from hw)
        simpa using hless

theorem Pool.Fits.toDo_lt (h : p.Fits job dir paths o t) (hstep : job.Step dir paths p q) :
    q.toDo job dir paths < p.toDo job dir paths := by
  cases hstep with
  | @read i path hpath hw => exact sum_toDo_set hpath hw (Worker.toDo_ofRead path)
  | @eliminate i path text hpath hw => exact sum_toDo_set hpath hw (Worker.toDo_ofElimination path text)
  | @log i r piece rest hpiece hw =>
    obtain ⟨path, hpath⟩ := h.exists_path hw
    exact sum_toDo_set hpath hw (Worker.toDo_logging r hpiece rest path)
  | @finish i r hw =>
    obtain ⟨path, hpath⟩ := h.exists_path hw
    exact sum_toDo_set hpath hw (Nat.succ_pos _)

/-- While a worker has not returned, a step can be made, or the worker has crashed. -/
theorem Pool.Fits.exists_step (h : p.Fits job dir paths o t) (hover : ¬∀ w ∈ p.workers, w.IsOver)
    (hcrash : .failed .crash ∉ p.workers) : ∃ q, job.Step dir paths p q := by
  obtain ⟨w, hw, hover⟩ : ∃ w ∈ p.workers, ¬w.IsOver := by simpa using hover
  obtain ⟨i, hi⟩ := List.getElem?_of_mem hw
  obtain ⟨path, hpath⟩ := h.exists_path hi
  cases w with
  | waiting => exact ⟨_, .read hpath hi⟩
  | loaded text => exact ⟨_, .eliminate hpath hi⟩
  | logging r rest =>
    by_cases hrest : rest = ""
    · subst hrest
      exact ⟨_, .finish hi⟩
    · rw [← String.append_empty (s := rest)] at hi
      exact ⟨_, .log hrest hi⟩
  | failed f =>
    cases f with
    | error message => exact absurd (.inr ⟨message, rfl⟩) hover
    | crash => exact absurd hw hcrash
  | succeeded => exact absurd (.inl rfl) hover

/-- The workers can go on until all of them have returned, or one crashes. -/
theorem Pool.Fits.exists_over (h : p.Fits job dir paths o t) :
    ∃ q, job.Steps dir paths p q ∧ ((∀ w ∈ q.workers, w.IsOver) ∨ .failed .crash ∈ q.workers) := by
  induction hn : p.toDo job dir paths using Nat.strongRecOn generalizing p with
  | ind n ih =>
    by_cases hover : ∀ w ∈ p.workers, w.IsOver
    · exact ⟨p, .refl p, .inl hover⟩
    by_cases hcrash : .failed .crash ∈ p.workers
    · exact ⟨p, .refl p, .inr hcrash⟩
    · obtain ⟨q, hstep⟩ := h.exists_step hover hcrash
      obtain ⟨r, hsteps, hr⟩ := ih _ (hn ▸ h.toDo_lt hstep) (h.step hstep) rfl
      exact ⟨r, hsteps.head hstep, hr⟩

/-- Workers do not make steps for ever. -/
theorem Pool.Fits.not_forall_step {f : Nat → Pool} (h : (f 0).Fits job dir paths o t) :
    ¬∀ n, job.Step dir paths (f n) (f (n + 1)) := by
  intro hstep
  have hfits : ∀ n, (f n).Fits job dir paths o t := by
    intro n
    induction n with
    | zero => exact h
    | succ n ih => exact ih.step (hstep n)
  have hbound : ∀ n, (f n).toDo job dir paths + n ≤ (f 0).toDo job dir paths := by
    intro n
    induction n with
    | zero => exact Nat.le_refl _
    | succ n ih =>
      have := (hfits n).toDo_lt (hstep n)
      omega
  have := hbound ((f 0).toDo job dir paths + 1)
  omega

/-! ### Runs -/

namespace Job.Runs

variable {result : Except Failure Unit} (h : job.Runs g dir input paths o t result o' t')

include h

/-- If a file fails, the run fails like such a file, and only logs are written. -/
theorem of_error {path : String} {f : Failure} (hpath : path ∈ paths) (herror : job.outcome dir t path = .error f) :
    (∃ path ∈ paths, ∃ f, job.outcome dir t path = .error f ∧ result = .error f) ∧
      o'.stdout = o.stdout ∧ t' = t := by
  cases h with
  | @refuse p message hp hg =>
    have hfits := Pool.Fits.start.steps hp
    obtain ⟨path', hpath', herror'⟩ := hfits.exists_failed (g.failed hg)
    exact ⟨⟨path', hpath', _, herror', rfl⟩, hfits.stdout, hfits.tree⟩
  | @crash p hp hw =>
    have hfits := Pool.Fits.start.steps hp
    obtain ⟨path', hpath', herror'⟩ := hfits.exists_failed hw
    exact ⟨⟨path', hpath', _, herror', rfl⟩, hfits.stdout, hfits.tree⟩
  | @conclude p _ _ _ hp hg _ =>
    have hfits := Pool.Fits.start.steps hp
    obtain ⟨i, hi⟩ := List.getElem?_of_mem hpath
    obtain ⟨r, houtcome, -⟩ := hfits.succeeded (g.succeeded hg) hi
    rw [herror] at houtcome
    cases houtcome

/-- If every file has a result, the run delivers the results and sums them up. -/
theorem of_results {rs : List Result} (hrs : paths.map (job.outcome dir t) = rs.map .ok) :
    job.deliver dir paths (rs.map Result.output) o.stdout t = (result, o'.stdout, t') ∧
      ∃ log, (job.flags.verbose = false → log = "") ∧
        o'.stderr = o.stderr ++ log ++
          job.summary paths (rs.map Result.stats) ((rs.map Result.stats).foldl (· + ·) {}) := by
  -- No worker fails, for each has a result to come to.
  have hnone : ∀ {p : Pool} {f : Failure}, p.Fits job dir paths o t → .failed f ∉ p.workers := by
    intro p f hfits hw
    obtain ⟨path, hpath, herror⟩ := hfits.exists_failed hw
    have hmem : Except.error f ∈ rs.map Except.ok := by
      rw [← hrs, ← herror]
      exact List.mem_map_of_mem hpath
    obtain ⟨r, -, hr⟩ := List.mem_map.1 hmem
    cases hr
  cases h with
  | @refuse p message hp hg => exact absurd (g.failed hg) (hnone (Pool.Fits.start.steps hp))
  | @crash p hp hw => exact absurd hw (hnone (Pool.Fits.start.steps hp))
  | @conclude p _ _ _ hp hg hrun =>
    have hfits := Pool.Fits.start.steps hp
    obtain ⟨houtputs, hstats⟩ := hfits.slots (g.succeeded hg) hrs
    obtain ⟨log, hquiet, hstderr⟩ := hfits.stderr
    rw [runOn_conclude, houtputs, hstats, hfits.stdout, hfits.tree, hstderr] at hrun
    cases hrun
    exact ⟨rfl, log, hquiet, rfl⟩

/-- A run crashes only where the elimination of a file does. -/
theorem exists_crash (hresult : result = .error .crash) :
    ∃ path ∈ paths, job.outcome dir t path = .error .crash := by
  cases h with
  | refuse hp hg => cases hresult
  | crash hp hw => exact (Pool.Fits.start.steps hp).exists_failed hw
  | @conclude p _ _ _ hp hg hrun =>
    rw [hresult, runOn_conclude, Prod.mk.injEq, Prod.mk.injEq] at hrun
    exact absurd hrun.1.1 (deliver_ne_crash job dir paths _ _ _)

end Job.Runs

/-- Waiting gives something in the end, or the elimination of a file crashes. -/
theorem Job.exists_returns (g : Group) (h : job.Steps dir paths (.start paths o t) p) :
    ∃ q, job.Steps dir paths p q ∧ ((∃ e, g.returns q.workers e) ∨
      .failed .crash ∈ q.workers ∧ ∃ path ∈ paths, job.outcome dir t path = .error .crash) := by
  have hfits := Pool.Fits.start.steps h
  obtain ⟨q, hq, hover | hcrash⟩ := hfits.exists_over
  · exact ⟨q, hq, .inl (g.ends hover)⟩
  · exact ⟨q, hq, .inr ⟨hcrash, (hfits.steps hq).exists_failed hcrash⟩⟩

theorem Job.exists_runs (job : Job) (g : Group) (dir input : String) (paths : List String) (o : Output)
    (t : FileTree) : ∃ result o' t', job.Runs g dir input paths o t result o' t' := by
  have hstart : job.Steps dir paths (.start paths o t) (.start paths o t) := .refl _
  obtain ⟨q, hq, ⟨e, he⟩ | ⟨hcrash, -⟩⟩ := exists_returns g hstart
  · cases e with
    | some message => exact ⟨_, _, _, .refuse hq he⟩
    | none => exact ⟨_, _, _, .conclude hq he rfl⟩
  · exact ⟨_, _, _, .crash hq hcrash⟩

/-- A run may crash where the elimination of a file does, before the other workers make a step. -/
theorem Job.exists_crash (g : Group) (input : String) (o : Output) {path : String} (hpath : path ∈ paths)
    (h : job.outcome dir t path = .error .crash) : ∃ o' t', job.Runs g dir input paths o t (.error .crash) o' t' := by
  obtain ⟨i, hi⟩ := List.getElem?_of_mem hpath
  cases hread : t.read dir path with
  | error e =>
    rw [outcome_of_read_error hread] at h
    cases h
  | ok text =>
    rw [outcome_of_read hread] at h
    have hlt : i < paths.length := (List.getElem?_eq_some_iff.1 hi).1
    have hwaiting : (Pool.start paths o t).workers[i]? = some .waiting := by
      show (paths.map _)[i]? = _
      rw [List.getElem?_map, hi]
      rfl
    have hloaded : ((Pool.start paths o t).workers.set i (.ofRead (t.read dir path)))[i]? = some (.loaded text) := by
      rw [hread, List.getElem?_set_self (by simpa [Pool.start] using hlt)]
      rfl
    have hsteps : job.Steps dir paths (.start paths o t) _ :=
      ((Steps.refl _).tail (.read hi hwaiting)).tail (.eliminate hi hloaded)
    refine ⟨_, _, .crash hsteps ?_⟩
    rw [h]
    exact List.mem_set (by simpa [Pool.start] using hlt) _

/-- A file and a result that stand at one index belong together. -/
theorem Job.outcome_of_mem_zip {rs : List Result} (hrs : paths.map (job.outcome dir t) = rs.map .ok)
    {file : String × Result} (hfile : file ∈ paths.zip rs) : job.outcome dir t file.1 = .ok file.2 := by
  obtain ⟨i, hi⟩ := List.getElem?_of_mem hfile
  obtain ⟨hpath, hr⟩ := List.getElem?_zip_eq_some.1 hi
  have hoption := congrArg (·[i]?) hrs
  simp only [List.getElem?_map, hpath, hr, Option.map_some] at hoption
  exact Option.some.inj hoption

/-- Results that have been written over their files can be read from them. -/
theorem Job.read_of_writeAll {rs : List Result} (hrs : paths.map (job.outcome dir t) = rs.map .ok)
    (hwrite : t.writeAll dir (paths.zip (rs.map Result.output)) = (.ok (), t')) {file : String × Result}
    (hfile : file ∈ paths.zip rs) : t'.read dir file.1 = .ok file.2.output := by
  have hzip : ∀ {written}, written ∈ paths.zip (rs.map Result.output) ↔
      ∃ file ∈ paths.zip rs, (file.1, file.2.output) = written := by
    intro written
    rw [List.zip_map_right, List.mem_map]
    rfl
  have hwritten : (file.1, file.2.output) ∈ paths.zip (rs.map Result.output) := hzip.2 ⟨file, hfile, rfl⟩
  refine FileTree.read_of_writeAll ?_ ?_ hwrite hwritten
  · intro written hwritten
    obtain ⟨file, hfile, rfl⟩ := hzip.1 hwritten
    obtain ⟨text, hread, -⟩ := read_of_outcome (outcome_of_mem_zip hrs hfile)
    exact ⟨text, hread⟩
  · -- Paths to one text have one output, whatever their names.
    intro written hwritten written' hwritten' hsame
    obtain ⟨file, hfile, rfl⟩ := hzip.1 hwritten
    obtain ⟨file', hfile', rfl⟩ := hzip.1 hwritten'
    obtain ⟨text, hread, heliminate⟩ := read_of_outcome (outcome_of_mem_zip hrs hfile)
    obtain ⟨text', hread', heliminate'⟩ := read_of_outcome (outcome_of_mem_zip hrs hfile')
    rw [hread, hread'] at hsame
    cases hsame
    exact output_eq heliminate heliminate'

/-- Workers for files do all or nothing, in whatever order they make their steps.  They come to an end, and so
does waiting for them, unless one crashes.  If a file fails, the run fails like such a file: with the message of a
file that cannot be read or parsed, or by a crash where the elimination of a file panics; and nothing is written
to the standard output or to a file.  Otherwise the run ends like processing the files one by one: the outputs are
written in the order of the files, or every file holds what the elimination makes of the text that it had, and
the total that is reported has the sum of every counter. -/
theorem Job.all_or_nothing (job : Job) (g : Group) (dir input : String) (paths : List String) (o : Output)
    (t : FileTree) :
    (∀ p, job.Steps dir paths (.start paths o t) p → ∃ q, job.Steps dir paths p q ∧
      ((∃ e, g.returns q.workers e) ∨
        .failed .crash ∈ q.workers ∧ ∃ path ∈ paths, job.outcome dir t path = .error .crash)) ∧
    (∀ f : Nat → Pool, f 0 = .start paths o t → ¬∀ n, job.Step dir paths (f n) (f (n + 1))) ∧
    ∀ result o' t', job.Runs g dir input paths o t result o' t' →
      (result = .error .crash → ∃ path ∈ paths, job.outcome dir t path = .error .crash) ∧
      ((∃ path ∈ paths, ∃ f, job.outcome dir t path = .error f) →
        (∃ path ∈ paths, ∃ f, job.outcome dir t path = .error f ∧ result = .error f) ∧
          o'.stdout = o.stdout ∧ t' = t) ∧
      ∀ rs, paths.map (job.outcome dir t) = rs.map .ok →
        (∃ o₁, Session.runOn (job.processAll (FileTree.host dir input) paths) o t = ((result, o₁), t') ∧
          o₁.stdout = o'.stdout) ∧
        (job.flags.write = false → job.flags.output = "" →
          result = .ok () ∧ o'.stdout = o.stdout ++ String.join (rs.map Result.output) ∧ t' = t) ∧
        (job.flags.write = true → result = .ok () →
          o'.stdout = o.stdout ∧ ∀ file ∈ paths.zip rs, t'.read dir file.1 = .ok file.2.output) ∧
        ∃ log total, (job.flags.verbose = false → log = "") ∧
          (∀ counter ∈ counters, counter total = (rs.map fun r => counter r.stats).sum) ∧
          o'.stderr = o.stderr ++ log ++ job.summary paths (rs.map Result.stats) total := by
  refine ⟨fun p hp => exists_returns g hp, fun f hf hstep => ?_, fun result o' t' h => ?_⟩
  · have hfits : (f 0).Fits job dir paths o t := by
      rw [hf]
      exact .start
    exact hfits.not_forall_step hstep
  refine ⟨h.exists_crash, ?_, fun rs hrs => ?_⟩
  · rintro ⟨path, hpath, f, herror⟩
    exact h.of_error hpath herror
  · obtain ⟨hdeliver, log, hquiet, hstderr⟩ := h.of_results hrs
    refine ⟨?_, fun hwrite houtput => ?_, fun hwrite hresult => ?_, log, _, hquiet, fun counter hcounter => ?_,
      hstderr⟩
    · have hone : Session.runOn (job.processAll (FileTree.host dir input) paths) o t = _ := runOn_processAll hrs
      rw [runOn_conclude, hdeliver] at hone
      exact ⟨_, hone, rfl⟩
    · rw [deliver, if_neg (by simp [hwrite]), if_neg (by simp [houtput]), Prod.mk.injEq, Prod.mk.injEq] at hdeliver
      obtain ⟨hresult, hstdout, htree⟩ := hdeliver
      exact ⟨hresult.symm, hstdout.symm, htree.symm⟩
    · rw [deliver, if_pos hwrite, hresult, Prod.mk.injEq, Prod.mk.injEq] at hdeliver
      obtain ⟨hok, hstdout, htree⟩ := hdeliver
      exact ⟨hstdout.symm, fun file hfile => read_of_writeAll hrs (Prod.ext hok htree) hfile⟩
    · have hzero : counter {} = 0 := by
        have hadd := counter_add hcounter {} {}
        rw [show (({} : Stats) + {}) = {} from rfl] at hadd
        omega
      rw [counter_foldl hcounter, hzero, Nat.zero_add, List.map_map]
      rfl

/-- Two files of which one is missing, a file that is named twice, a file that is written over, and two files of
which one panics while the other cannot be parsed. -/
theorem Job.all_or_nothing_sample :
    (∃ o' t', Runs ⟨{}, 0⟩ .all "/" "" ["a", "b"] {} ⟨[(["a"], some "let x = 1; f(x);")]⟩
      (.error (.error "open b: no such file or directory")) o' t' ∧ o'.stdout = "" ∧
        t' = ⟨[(["a"], some "let x = 1; f(x);")]⟩) ∧
    (∃ o' t', Runs ⟨{}, 0⟩ .all "/" "" ["a", "a"] {} ⟨[(["a"], some "let x = 1; f(x);")]⟩ (.ok ()) o' t' ∧
      o'.stdout = "f(1);\nf(1);\n") ∧
    (∃ o' t', Runs ⟨{ write := true }, 0⟩ .all "/" "" ["a"] {} ⟨[(["a"], some "let x = 1; f(x);")]⟩ (.ok ()) o' t' ∧
      t'.read "/" "a" = .ok "f(1);\n") ∧
    ∃ o' t', Runs ⟨{ write := true }, 0⟩ .all "/" "" ["a", "b"] {}
        ⟨[(["a"], some "var [, a] = x; f(a, a);"), (["b"], some "(")]⟩ (.error .crash) o' t' ∧
      t' = ⟨[(["a"], some "var [, a] = x; f(a, a);"), (["b"], some "(")]⟩ := by
  have hread : FileTree.read ⟨[(["a"], some "let x = 1; f(x);")]⟩ "/" "a" = .ok "let x = 1; f(x);" := by decide +kernel
  have hmissing : FileTree.read ⟨[(["a"], some "let x = 1; f(x);")]⟩ "/" "b" =
      .error ⟨"open", "b", .notFound⟩ := by decide +kernel
  have houtput : ((⟨{}, 0⟩ : Job).eliminate "a" "let x = 1; f(x);").toOption.map Result.output = some "f(1);\n" := by
    decide +kernel
  obtain ⟨r, heliminate, hr⟩ := exists_result houtput
  have hoverwrite : ((⟨{ write := true }, 0⟩ : Job).eliminate "a" "let x = 1; f(x);").toOption.map Result.output =
      some "f(1);\n" := by
    decide +kernel
  obtain ⟨r', heliminate', hr'⟩ := exists_result hoverwrite
  have hholey : FileTree.read ⟨[(["a"], some "var [, a] = x; f(a, a);"), (["b"], some "(")]⟩ "/" "a" =
      .ok "var [, a] = x; f(a, a);" := by decide +kernel
  have hpanic : (⟨{ write := true }, 0⟩ : Job).eliminate "a" "var [, a] = x; f(a, a);" = .error .crash := by
    decide +kernel
  refine ⟨?_, ?_, ?_, ?_⟩
  · obtain ⟨result, o', t', hruns⟩ :=
      exists_runs ⟨{}, 0⟩ .all "/" "" ["a", "b"] {} ⟨[(["a"], some "let x = 1; f(x);")]⟩
    have hb : (⟨{}, 0⟩ : Job).outcome "/" ⟨[(["a"], some "let x = 1; f(x);")]⟩ "b" = _ :=
      outcome_of_read_error hmissing
    obtain ⟨⟨path, hpath, f, herror, rfl⟩, hstdout, htree⟩ :=
      ((all_or_nothing ⟨{}, 0⟩ .all "/" "" ["a", "b"] {} _).2.2 _ _ _ hruns).2.1 ⟨"b", by decide, _, hb⟩
    have hmessage : f = .error "open b: no such file or directory" := by
      obtain rfl | rfl : path = "a" ∨ path = "b" := by simpa using hpath
      · rw [outcome_of_read hread, heliminate] at herror
        cases herror
      · rw [hb] at herror
        exact (Except.error.inj herror).symm
    subst hmessage
    exact ⟨o', t', hruns, hstdout, htree⟩
  · obtain ⟨result, o', t', hruns⟩ :=
      exists_runs ⟨{}, 0⟩ .all "/" "" ["a", "a"] {} ⟨[(["a"], some "let x = 1; f(x);")]⟩
    have houtcome : (⟨{}, 0⟩ : Job).outcome "/" ⟨[(["a"], some "let x = 1; f(x);")]⟩ "a" = .ok r :=
      (outcome_of_read hread).trans heliminate
    obtain ⟨-, hstdout, -, -⟩ := ((all_or_nothing ⟨{}, 0⟩ .all "/" "" ["a", "a"] {} _).2.2 _ _ _ hruns).2.2 [r, r]
      (by simp [houtcome])
    obtain ⟨rfl, hstdout, -⟩ := hstdout rfl rfl
    refine ⟨o', t', hruns, ?_⟩
    rw [hstdout, List.map_cons, List.map_cons, hr]
    decide
  · obtain ⟨result, o', t', hruns⟩ :=
      exists_runs ⟨{ write := true }, 0⟩ .all "/" "" ["a"] {} ⟨[(["a"], some "let x = 1; f(x);")]⟩
    have houtcome : (⟨{ write := true }, 0⟩ : Job).outcome "/" ⟨[(["a"], some "let x = 1; f(x);")]⟩ "a" = .ok r' :=
      (outcome_of_read hread).trans heliminate'
    have hresults : ["a"].map ((⟨{ write := true }, 0⟩ : Job).outcome "/" ⟨[(["a"], some "let x = 1; f(x);")]⟩) =
        [r'].map .ok := by simp [houtcome]
    obtain rfl : result = .ok () := by
      have hdeliver := congrArg Prod.fst (hruns.of_results hresults).1
      rw [List.map_cons, hr'] at hdeliver
      refine hdeliver.symm.trans ?_
      decide +kernel
    obtain ⟨-, -, hwritten, -⟩ :=
      ((all_or_nothing ⟨{ write := true }, 0⟩ .all "/" "" ["a"] {} _).2.2 _ _ _ hruns).2.2 [r'] hresults
    have hfile := (hwritten rfl rfl).2 ("a", r') (by simp)
    rw [hr'] at hfile
    exact ⟨o', t', hruns, hfile⟩
  · have hcrash : (⟨{ write := true }, 0⟩ : Job).outcome "/"
        ⟨[(["a"], some "var [, a] = x; f(a, a);"), (["b"], some "(")]⟩ "a" = .error .crash :=
      (outcome_of_read hholey).trans hpanic
    obtain ⟨o', t', hruns⟩ := exists_crash .all "" {} (List.mem_cons_self (l := ["b"])) hcrash
    obtain ⟨-, -, htree⟩ := ((all_or_nothing ⟨{ write := true }, 0⟩ .all "/" "" ["a", "b"] {} _).2.2 _ _ _
      hruns).2.1 ⟨"a", by decide, _, hcrash⟩
    exact ⟨o', t', hruns, htree⟩

end Deadwood.Cli
