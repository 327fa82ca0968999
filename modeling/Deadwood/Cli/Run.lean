import Deadwood.Cli.Flags
import Deadwood.Elimination.Run
import Deadwood.Parser.Module
import Deadwood.Settings.Basic

/-!
# The command

Reads programs from files or from the standard input, removes their dead code, and writes them back or
to the standard output.
-/

namespace Deadwood.Cli

open Elimination

def version : String := "0.1.0"

/-! ### Reports -/

/-- Whether a text needs quotes as a value in the log. -/
def needsQuotes (s : String) : Bool :=
  s = "" || s.toList.any fun c =>
    if c.toNat < 0x80 then c = ' ' || c = '=' || c = '\x22' || c.toNat < 0x20
    else c = '\uFFFD' || !Text.isPrintable c

def logValue (s : String) : String := if needsQuotes s then Text.display s else s

/-- A line of the log. -/
def logLine (message : String) (fields : List (String × String)) : String :=
  "level=DEBUG msg=" ++ logValue message ++
    String.join (fields.map fun (key, value) => " " ++ key ++ "=" ++ logValue value) ++ "\n"

/-- What an elimination reports of a file. -/
def entryLine (file : String) : Entry → String
  | .change iteration r =>
    logLine "rewrite" ([("file", file), ("iteration", toString iteration), ("rule", r.rule.text)] ++
      (r.name.map fun name => ("binding", name)).toList)
  | .limitReached limit =>
    logLine "iteration limit reached" [("file", file), ("limit", toString limit)]
  | .finished s =>
    logLine "dead code eliminated" [("file", file), ("iterations", toString s.iterations),
      ("inlined", toString s.inlined), ("removed", toString s.removed), ("folded", toString s.folded),
      ("pruned", toString s.pruned), ("normalized", toString s.normalized)]

/-- Digits from the last to the first with a comma before every third one. -/
def groupDigits : List Char → List Char
  | a :: b :: c :: d :: ds => a :: b :: c :: ',' :: groupDigits (d :: ds)
  | ds => ds

/-- A number with commas between its thousands. -/
def grouped (n : Nat) : String := String.ofList (groupDigits (Nat.toDigits 10 n).reverse).reverse

/-- The line that sums up a run. -/
def summaryLine (name : String) (s : Stats) : String :=
  name ++ ": " ++ grouped s.inlined ++ " inlined, " ++ grouped s.removed ++ " removed, " ++
    grouped s.folded ++ " folded, " ++ grouped s.pruned ++ " pruned, " ++ grouped s.normalized ++
    " normalized in " ++ grouped s.iterations ++ " iterations\n"

/-! ### Sessions -/

/-- What a session has written. -/
structure Output where
  stdout : String := ""
  stderr : String := ""
deriving DecidableEq, Repr, Inhabited

variable {m : Type → Type} [Monad m]

/-- How a session fails. -/
inductive Failure
  /-- An error is returned, and reported with its message. -/
  | error (message : String)
  /-- The whole process ends where it is, because removing the dead code of a program panics. -/
  | crash
deriving DecidableEq, Repr, Inhabited

/-- What is said of a failure.  What the runtime says of a crash goes on with what the process was doing. -/
def Failure.text : Failure → String
  | error message => message
  | crash => "panic: runtime error: invalid memory address or nil pointer dereference"

/-- A session writes texts and may fail. -/
abbrev Session (m : Type → Type) := ExceptT Failure (StateT Output m)

/-- Fails with a message. -/
def fail {α : Type} (message : String) : Session m α := throw (.error message)

def print (s : String) : Session m Unit := modify fun o => { o with stdout := o.stdout ++ s }

def note (s : String) : Session m Unit := modify fun o => { o with stderr := o.stderr ++ s }

/-- How programs are processed. -/
structure Job where
  flags : Flags
  limit : Nat
deriving DecidableEq, Repr, Inhabited

/-- The result of one program, with what is logged on the way. -/
structure Result where
  output : String
  stats : Stats
  log : String
deriving DecidableEq, Inhabited

/-- Removes the dead code of a text. -/
def Job.eliminate (job : Job) (name text : String) : Except Failure Result :=
  match Program.parse text with
  | .error faults => .error (.error ("parse " ++ name ++ ": " ++ Fault.report text faults))
  | .ok p =>
    match p.eliminate job.limit with
    | none => .error .crash
    | some o =>
      .ok { output := o.program.print, stats := o.stats,
            log := if job.flags.verbose then String.join (o.log.map (entryLine name)) else "" }

def Job.summarize (job : Job) (name : String) (s : Stats) : Session m Unit :=
  if job.flags.stats then note (summaryLine name s) else return ()

/-- Processes a file.  A crash ends everything, and an error is kept until all the files have been processed. -/
def Job.processFile (job : Job) (h : Host m) (path : String) : Session m (Except String Result) := do
  match ← h.read path with
  | .error e => return .error e.message
  | .ok text =>
    match job.eliminate path text with
    | .error (.error message) => return .error message
    | .error .crash => throw .crash
    | .ok r =>
      note r.log
      return .ok r

def writeFile (h : Host m) (path content : String) : Session m Unit := do
  match ← h.write path content with
  | .ok _ => return ()
  | .error e => fail ("write " ++ path ++ ": " ++ e.message)

/-- Sums up the results of files and writes them. -/
def Job.conclude (job : Job) (h : Host m) (paths outputs : List String) (stats : List Stats) :
    Session m Unit := do
  (paths.zip stats).forM fun (path, s) => job.summarize path s
  if 1 < paths.length then
    job.summarize "total" (stats.foldl (· + ·) {})
  if job.flags.write then
    (paths.zip outputs).forM fun (path, output) => writeFile h path output
  else if job.flags.output ≠ "" then
    writeFile h job.flags.output (outputs.headD "")
  else print (String.join outputs)

/-- Processes files, and writes the results once all of them are there. -/
def Job.processAll (job : Job) (h : Host m) (paths : List String) : Session m Unit := do
  let outcomes ← paths.mapM (job.processFile h)
  let results ← outcomes.mapM fun
    | .ok r => pure r
    | .error message => fail message
  job.conclude h paths (results.map Result.output) (results.map Result.stats)

def processInput (job : Job) (h : Host m) : Session m Unit := do
  match job.eliminate "<stdin>" (← h.input) with
  | .error f => throw f
  | .ok r =>
    note r.log
    job.summarize "<stdin>" r.stats
    print r.output

/-- The settings that the flags ask for. -/
def loadSettings (h : Host m) (f : Flags) : Session m Settings := do
  if f.noConfig then return {}
  let loading : m (Except SettingsError Settings) :=
    if f.config ≠ "" then Settings.load h f.config else Settings.discover h "."
  match ← (loading : Session m _) with
  | .ok s => return s
  | .error e => fail ("load config: " ++ e.message)

/-- The job that flags and settings make together; flags come first. -/
def makeJob (f : Flags) (s : Settings) : Session m Job := do
  match s.refusal? version with
  | some message => fail message
  | none => pure ()
  let limit := if f.given.contains .maxIter then f.maxIter else s.limit 0
  if limit < 0 then fail "-max-iter must not be negative"
  let flags := { f with
    stats := if f.given.contains .stats then f.stats else s.stats.getD f.stats
    verbose := if f.given.contains .verbose then f.verbose else s.verbose.getD f.verbose }
  return { flags, limit := limit.toNat }

/-- Refuses flags that do not go together. -/
def checkFiles (f : Flags) (files : List String) : Session m Unit := do
  if f.output ≠ "" && files.length ≠ 1 then fail "-o needs exactly one input file"
  if f.output ≠ "" && f.write then fail "-o and -w are mutually exclusive"
  if (f.write || f.watch) && files.isEmpty then fail "-w and -watch need input files"

/-- Follows the arguments.  Returns the job if its files are to be watched from here on. -/
def session (h : Host m) (args : List String) : Session m (Option (Job × List String)) := do
  match Reading.ofArgs args with
  | .help =>
    note usage
    return none
  | .fault f =>
    note (f.message ++ "\n" ++ usage)
    fail f.message
  | .ok f files =>
    if f.version then
      print ("jsdce " ++ version ++ "\n")
      return none
    let settings ← loadSettings h f
    let job ← makeJob f settings
    match settings.path with
    | some path => if job.flags.verbose then note (logLine "using config" [("path", path)])
    | none => pure ()
    checkFiles f files
    if files.isEmpty then processInput job h else job.processAll h files
    return if f.watch then some (job, files) else none

/-- Runs the command.  Returns what it writes, and what is said of its failure. -/
def run (h : Host m) (args : List String) : m (Output × Option String) := do
  match ← (session h args).run.run {} with
  | (.ok _, o) => return (o, none)
  | (.error f, o) => return (o, some f.text)

end Deadwood.Cli
