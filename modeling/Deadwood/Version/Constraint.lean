import Deadwood.Version.Basic

/-!
# Constraints on versions

A constraint is a list of alternatives, each a list of comparisons that all have to hold.  A version in a
comparison may leave out numbers or write `x` or `*` for them, and then stands for a range.
-/

namespace Deadwood

/-- How a version is compared. -/
inductive Comparison
  | equal | notEqual | greater | less | greaterOrEqual | lessOrEqual
  /-- The last number given may grow. -/
  | tilde
  /-- Everything behind the first number that is not zero may grow. -/
  | caret
deriving DecidableEq, Repr, Inhabited

/-- The spellings of the comparisons, the longer ones first. -/
def Comparison.spellings : List (String × Comparison) :=
  [("!=", .notEqual), (">=", .greaterOrEqual), ("=>", .greaterOrEqual), ("<=", .lessOrEqual),
   ("=<", .lessOrEqual), ("~>", .tilde), ("=", .equal), (">", .greater), ("<", .less), ("~", .tilde),
   ("^", .caret), ("", .equal)]

/-- A comparison with a version. -/
structure Requirement where
  comparison : Comparison
  version : Version
  /-- The spelling, without blanks. -/
  text : String
  /-- Whether a number is left open. -/
  isOpen : Bool
  /-- Whether all numbers behind the first one are left open. -/
  openMinor : Bool
  /-- Whether only the last number is left open. -/
  openPatch : Bool
deriving DecidableEq, Repr, Inhabited

namespace Requirement

/-- Whether a version is a pre-release that the requirement does not ask for. -/
def refusesPre (r : Requirement) (v : Version) : Bool := v.pre ≠ "" && r.version.pre = ""

def holdsTilde (r : Requirement) (v : Version) : Bool :=
  let w := r.version
  if r.refusesPre v || v.compare w = .lt then false
  else if w.major = 0 && w.minor = 0 && w.patch = 0 && !r.openMinor && !r.openPatch then true
  else v.major = w.major && (v.minor = w.minor || r.openMinor)

def holdsCaret (r : Requirement) (v : Version) : Bool :=
  let w := r.version
  if r.refusesPre v || v.compare w = .lt then false
  else if 0 < w.major || r.openMinor then v.major = w.major
  else if 0 < v.major then false
  else if 0 < w.minor || r.openPatch then v.minor = w.minor
  else if 0 < v.minor then false
  else v.patch = w.patch

def holdsNotEqual (r : Requirement) (v : Version) : Bool :=
  let w := r.version
  if !r.isOpen then v.compare w ≠ .eq
  else if r.refusesPre v then false
  else if v.major ≠ w.major then true
  else if r.openMinor then false
  else if v.minor ≠ w.minor then true
  else if r.openPatch then
    (v.pre ≠ "" || w.pre ≠ "") && Version.comparePre v.pre w.pre ≠ .eq
  else v.compare w ≠ .eq

def holdsGreater (r : Requirement) (v : Version) : Bool :=
  let w := r.version
  if r.refusesPre v then false
  else if !r.isOpen then v.compare w = .gt
  else if w.major < v.major then true
  else if v.major < w.major || r.openMinor then false
  else if r.openPatch then w.minor < v.minor
  else v.compare w = .gt

def holdsLessOrEqual (r : Requirement) (v : Version) : Bool :=
  let w := r.version
  if r.refusesPre v then false
  else if !r.isOpen then v.compare w ≠ .gt
  else !(w.major < v.major || (v.major = w.major && w.minor < v.minor && !r.openMinor))

/-- Whether a version meets the requirement. -/
def holds (r : Requirement) (v : Version) : Bool :=
  match r.comparison with
  | .equal =>
    if r.isOpen then r.holdsTilde v else !r.refusesPre v && v.compare r.version = .eq
  | .notEqual => r.holdsNotEqual v
  | .greater => r.holdsGreater v
  | .less => !r.refusesPre v && v.compare r.version = .lt
  | .greaterOrEqual => !r.refusesPre v && v.compare r.version ≠ .lt
  | .lessOrEqual => r.holdsLessOrEqual v
  | .tilde => r.holdsTilde v
  | .caret => r.holdsCaret v

end Requirement

structure Constraint where
  alternatives : List (List Requirement)
deriving DecidableEq, Repr, Inhabited

/-- Why a text is no constraint. -/
inductive ConstraintFault
  | improper (part : String)
  /-- A version in it is none. -/
  | badVersion
deriving DecidableEq, Repr, Inhabited

def ConstraintFault.message : ConstraintFault → String
  | improper part => "improper constraint: " ++ part
  | badVersion => "constraint Parser Error"

namespace Constraint

def isBlank (c : Char) : Bool :=
  c = ' ' || c = '\t' || c = '\n' || c.toNat = 0x0C || c = '\r'

/-- Whether a character may stand in a number of a requirement. -/
def isNumberChar (c : Char) : Bool := c.isDigit || c = '|' || c = 'x' || c = 'X' || c = '*'

/-- Whether a number is left open. -/
def isAny (ds : List Char) : Bool := ds = [] || ds = ['x'] || ds = ['X'] || ds = ['*']

/-- A comparison as it is spelled, with the parts of its version. -/
structure Reading where
  spelling : String
  comparison : Comparison
  version : String
  parts : Version.Parts
deriving DecidableEq, Repr, Inhabited

def readComparison (cs : List Char) : (String × Comparison) × List Char :=
  match Comparison.spellings.find? fun s => s.1.toList.isPrefixOf cs with
  | some s => (s, cs.drop s.1.length)
  | none => (("", .equal), cs)

/-- A comparison and its version at the front of a text. -/
def readRequirement (cs : List Char) : Option (Reading × List Char) :=
  let ((spelling, comparison), cs) := readComparison cs
  let cs := cs.dropWhile isBlank
  (Version.readParts isNumberChar cs).map fun (parts, rest) =>
    let version := String.ofList (cs.take (cs.length - rest.length))
    (⟨spelling, comparison, version, parts⟩, rest)

/-- Requirements up to the end of a text, with blanks or a comma between them.  The bound is on their
number. -/
def readRequirements : Nat → List Char → Option (List Reading)
  | 0, _ => none
  | bound + 1, cs => do
    let (r, cs) ← readRequirement (cs.dropWhile isBlank)
    match cs.dropWhile isBlank with
    | [] => return [r]
    | ',' :: rest => return r :: (← readRequirements bound rest)
    | rest => if rest = cs then none else return r :: (← readRequirements bound rest)

/-- The requirement that a reading stands for. -/
def Reading.requirement (r : Reading) : Except ConstraintFault Requirement :=
  let p := r.parts
  let openMajor := isAny p.major
  let openMinor := !openMajor && isAny p.minor
  let openPatch := !openMajor && !openMinor && isAny p.patch
  let isOpen := openMajor || openMinor || openPatch
  let numbers := if openMajor then [] else if openMinor then [p.major]
    else if openPatch then [p.major, p.minor] else [p.major, p.minor, p.patch]
  if !numbers.all (·.all Char.isDigit) then .error .badVersion
  else
    let parts : Version.Parts :=
      { p with
        major := numbers.getD 0 [], minor := numbers.getD 1 [], patch := numbers.getD 2 []
        build := if isOpen then [] else p.build }
    match Version.ofParts parts with
    | .ok version =>
      .ok { comparison := r.comparison, version, text := r.spelling ++ r.version, isOpen, openMinor,
            openPatch }
    | .error _ => .error .badVersion

/-! ### Ranges -/

/-- One or more blanks. -/
def readBlanks (cs : List Char) : Option (List Char) :=
  let rest := cs.dropWhile isBlank
  if rest = cs then none else some rest

/-- A range at the front of a text: two versions with a dash between them.  Returns the versions and the
text behind the range. -/
def readRange (cs : List Char) : Option (String × String × List Char) := do
  let spelled := fun (cs rest : List Char) => String.ofList (cs.take (cs.length - rest.length))
  let cs := cs.dropWhile isBlank
  let (_, rest) ← Version.readParts isNumberChar cs
  let low := spelled cs rest
  let rest ← readBlanks rest
  let rest ← match rest with
    | '-' :: rest => some rest
    | _ => none
  let cs ← readBlanks rest
  let (_, rest) ← Version.readParts isNumberChar cs
  return (low, spelled cs rest, rest.dropWhile isBlank)

/-- The ranges of a text, each with its spelling and what it stands for. -/
def ranges : Nat → List Char → List (List Char × List Char)
  | 0, _ => []
  | _, [] => []
  | bound + 1, c :: cs =>
    match readRange (c :: cs) with
    | some (low, high, rest) =>
      ((c :: cs).take ((c :: cs).length - rest.length),
        (">= " ++ low ++ ", <= " ++ high ++ " ").toList) :: ranges bound rest
    | none => ranges bound cs

/-- Replaces the first occurrence of a text. -/
def replaceFirst (old new : List Char) : List Char → List Char
  | [] => []
  | c :: cs =>
    if old.isPrefixOf (c :: cs) then new ++ (c :: cs).drop old.length
    else c :: replaceFirst old new cs

/-- Writes every range as two comparisons. -/
def expandRanges (cs : List Char) : List Char :=
  (ranges cs.length cs).foldl (fun text r => replaceFirst r.1 r.2 text) cs

/-- The comparisons of one alternative. -/
def parseAlternative (part : String) : Except ConstraintFault (List Requirement) :=
  match readRequirements (part.length + 1) part.toList with
  | some rs => rs.mapM Reading.requirement
  | none => .error (.improper part)

def parse (s : String) : Except ConstraintFault Constraint := do
  let parts := (String.ofList (expandRanges s.toList)).splitOn "||"
  return ⟨← parts.mapM parseAlternative⟩

/-- Whether a version meets the constraint. -/
def allows (c : Constraint) (v : Version) : Bool :=
  c.alternatives.any fun rs => rs.all fun r => r.holds v

def toText (c : Constraint) : String :=
  " || ".intercalate (c.alternatives.map fun rs => " ".intercalate (rs.map Requirement.text))

end Constraint

end Deadwood
