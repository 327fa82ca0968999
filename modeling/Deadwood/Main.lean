import Deadwood.Cli.Run
import Deadwood.Watch

/-!
# The program

The machine that the command runs on, and the loop that waits for files to change.
-/

namespace Deadwood

/-- The cause of a failure of the machine. -/
def FileCause.ofError : IO.Error → FileCause
  | .noFileOrDirectory .. => .notFound
  | .inappropriateType _ _ details =>
    if details.toLower = "not a directory" then .notDirectory else .isDirectory
  | .permissionDenied .. => .other "permission denied"
  | e => .other e.toString

/-- Runs an action on a file.  A directory can be opened to be read, and fails only then. -/
def tryFile {α : Type} (onDirectory path : String) (run : IO α) : IO (Except FileError α) := do
  try
    return .ok (← run)
  catch e =>
    let cause := FileCause.ofError e
    return .error ⟨if cause = .isDirectory then onDirectory else "open", path, cause⟩

/-- The machine itself. -/
def machine : Host IO where
  input := do (← IO.getStdin).readToEnd
  workingDir := do return (← IO.currentDir).toString
  isFile path := do return (← tryFile "read" path (IO.FS.readFile path)).isOk
  read path := tryFile "read" path (IO.FS.readFile path)
  write path content := tryFile "open" path (IO.FS.writeFile path content)

namespace Cli

/-- Writes what a session has written. -/
def Output.flush (o : Output) : IO Unit := do
  IO.print o.stdout
  IO.eprint o.stderr

/-- Processes a file that has changed; one that fails is reported and followed further.  A crash is the end. -/
def Job.refresh (job : Job) (path : String) : IO Unit := do
  let (outcome, o) ← (job.processAll machine [path]).run.run {}
  o.flush
  match outcome with
  | .ok _ => return ()
  | .error (.error message) => IO.eprintln message
  | .error .crash => throw (IO.userError Failure.crash.text)

/-- Looks at the files over and over and processes those that have changed. -/
partial def Job.follow (job : Job) (paths : List String) (w : Watcher) : IO Unit := do
  IO.sleep 200
  let w ← paths.foldlM (fun (w : Watcher) path => do
    match ← w.changed machine path with
    | .error _ => return w
    | .ok (false, w) => return w
    | .ok (true, w) =>
      job.refresh path
      match ← w.changed machine path with
      | .ok (_, w) => return w
      | .error _ => return w) w
  job.follow paths w

end Cli

end Deadwood

open Deadwood in
def main (args : List String) : IO UInt32 := do
  let (outcome, o) ← (Cli.session machine args).run.run {}
  o.flush
  match outcome with
  | .error (.error message) =>
    IO.eprintln ("jsdce: " ++ message)
    return 1
  | .error .crash =>
    IO.eprintln Cli.Failure.crash.text
    return 2
  | .ok none => return 0
  | .ok (some (job, paths)) =>
    let dir ← machine.workingDir
    match ← Watcher.start machine paths with
    | .error e =>
      IO.eprintln ("jsdce: watch: " ++ e.message)
      return 1
    | .ok w =>
      job.follow (paths.map fun path => Path.text (Path.absolute dir path)) w
      return 0
