import Deadwood.Files
import Deadwood.Settings.Document
import Deadwood.Version.Constraint

/-!
# Settings

The settings of a project are in a document at its root.  Every field may be left out.  The nearest
document at or above a directory counts.
-/

namespace Deadwood

structure Settings where
  /-- The file the settings come from. -/
  path : Option String := none
  /-- A constraint on the version of the program. -/
  requires : Option String := none
  /-- The largest number of passes. -/
  maxIterations : Option Int := none
  /-- Whether to sum up the changes. -/
  stats : Option Bool := none
  /-- Whether to report every change. -/
  verbose : Option Bool := none
deriving DecidableEq, Repr, Inhabited

/-- Why settings are refused. -/
inductive SettingsFault
  | malformed
  | mismatch
  | unknownField (name : String)
  | negativeLimit
  | badConstraint (fault : ConstraintFault)
deriving DecidableEq, Repr, Inhabited

def SettingsFault.message : SettingsFault → String
  | malformed => "malformed document"
  | mismatch => "value of the wrong type"
  | unknownField name => "json: unknown field " ++ Text.display name
  | negativeLimit => "maxIterations must not be negative"
  | badConstraint fault => "requires: " ++ fault.message

inductive SettingsError
  | unreadable (e : FileError)
  | invalid (path : String) (fault : SettingsFault)
deriving DecidableEq, Repr, Inhabited

def SettingsError.message : SettingsError → String
  | unreadable e => e.message
  | invalid path fault => path ++ ": " ++ fault.message

namespace Settings

/-- A field of the document. -/
inductive Field
  | requires | maxIterations | stats | verbose
deriving DecidableEq, Repr, Inhabited

def Field.name : Field → String
  | requires => "requires"
  | maxIterations => "maxIterations"
  | stats => "stats"
  | verbose => "verbose"

/-- A character without regard to case, as far as the names of fields go: the long `s` is an `s`. -/
def foldCase (c : Char) : Char := if c.toNat = 0x17F then 'S' else c.toUpper

/-- The field that a key names, without regard to case. -/
def Field.ofKey? (key : String) : Option Field :=
  [requires, maxIterations, stats, verbose].find? fun f =>
    f.name.toList.map foldCase = key.toList.map foldCase

/-- Sets a field; `null` leaves it out. -/
def setField (s : Settings) (key : String) (d : Document) : Except SettingsFault Settings :=
  match Field.ofKey? key, d with
  | none, _ => .error (.unknownField key)
  | some .requires, .null => .ok { s with requires := none }
  | some .requires, .string text => .ok { s with requires := text }
  | some .maxIterations, .null => .ok { s with maxIterations := none }
  | some .maxIterations, .number text =>
    match Document.int? text with
    | some n => .ok { s with maxIterations := n }
    | none => .error .mismatch
  | some .stats, .null => .ok { s with stats := none }
  | some .stats, .bool b => .ok { s with stats := b }
  | some .verbose, .null => .ok { s with verbose := none }
  | some .verbose, .bool b => .ok { s with verbose := b }
  | some _, _ => .error .mismatch

/-- The settings of a document; the last value of a field counts. -/
def ofDocument : Document → Except SettingsFault Settings
  | .null => .ok {}
  | .object members => members.foldlM (fun s (key, d) => s.setField key d) {}
  | _ => .error .mismatch

/-- Refuses settings that no run can follow. -/
def validate (s : Settings) : Except SettingsFault Settings :=
  if s.maxIterations.any (· < 0) then .error .negativeLimit
  else
    match s.requires.map Constraint.parse with
    | some (.error fault) => .error (.badConstraint fault)
    | _ => .ok s

def parse (text : String) : Except SettingsFault Settings :=
  match Document.read? text with
  | none => .error .malformed
  | some d => ofDocument d >>= validate

variable {m : Type → Type} [Monad m]

/-- The settings in a file. -/
def load (h : Host m) (path : String) : m (Except SettingsError Settings) := do
  match ← h.read path with
  | .error e => return .error (.unreadable e)
  | .ok text =>
    match parse text with
    | .ok s => return .ok { s with path }
    | .error fault => return .error (.invalid path fault)

/-- The names that settings go by, in the order they are looked for. -/
def fileNames : List String := ["jsdce.json", ".jsdcerc.json"]

/-- The settings at a place, given by its names from the innermost outwards. -/
def findAt (h : Host m) (here : List String) : m (Option String) := do
  let candidates := fileNames.map fun name => Path.text (here.reverse ++ [name])
  return (← candidates.filterM h.isFile).head?

/-- The nearest settings at a place or above it. -/
def findFrom (h : Host m) : List String → m (Option String)
  | [] => findAt h []
  | part :: outer => do
    match ← findAt h (part :: outer) with
    | some path => return some path
    | none => findFrom h outer

/-- The nearest settings at or above a directory. -/
def find (h : Host m) (dir : String) : m (Option String) := do
  findFrom h (Path.absolute (← h.workingDir) dir).reverse

/-- The settings that count for a directory. -/
def discover (h : Host m) (dir : String) : m (Except SettingsError Settings) := do
  match ← find h dir with
  | some path => load h path
  | none => return .ok {}

/-- Why the settings refuse a version of the program, if they do. -/
def refusal? (s : Settings) (version : String) : Option String :=
  match s.requires.map Constraint.parse with
  | none => none
  | some (.error fault) => some fault.message
  | some (.ok c) =>
    match Version.parse version with
    | .error fault =>
      some ("invalid tool version " ++ Text.display version ++ ": " ++ fault.message)
    | .ok v =>
      if c.allows v then none
      else
        some (s.path.getD "" ++ " requires jsdce " ++ c.toText ++ ", running " ++ v.toText)

/-- The largest number of passes, or what holds without settings. -/
def limit (s : Settings) (base : Int) : Int := s.maxIterations.getD base

end Settings

end Deadwood
