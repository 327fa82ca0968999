import Deadwood.Files

/-!
# Watching files

A watcher knows the contents that it has last seen of each file, so a file that is written again with
the same contents has not changed.
-/

namespace Deadwood

structure Watcher where
  /-- The contents last seen, by the path. -/
  seen : List (String × String)
deriving DecidableEq, Repr, Inhabited

namespace Watcher

def empty : Watcher := ⟨[]⟩

/-- Sees the contents of a file.  Returns whether they are new. -/
def observe (w : Watcher) (path content : String) : Bool × Watcher :=
  (w.seen.lookup path ≠ some content, ⟨(path, content) :: w.seen.filter (·.1 ≠ path)⟩)

variable {m : Type → Type} [Monad m]

/-- Whether a file has changed since it was last seen. -/
def changed (w : Watcher) (h : Host m) (path : String) : m (Except FileError (Bool × Watcher)) := do
  match ← h.read path with
  | .ok content => return .ok (w.observe path content)
  | .error e => return .error e

/-- Looks at files one after another. -/
def observeAll (h : Host m) (w : Watcher) : List String → m (Except FileError Watcher)
  | [] => return .ok w
  | path :: paths => do
    match ← w.changed h path with
    | .ok (_, w) => observeAll h w paths
    | .error e => return .error e

/-- A watcher that has seen the files at the given paths. -/
def start (h : Host m) (paths : List String) : m (Except FileError Watcher) := do
  let dir ← h.workingDir
  observeAll h empty (paths.map fun p => Path.text (Path.absolute dir p))

end Watcher

end Deadwood
