import Deadwood.Number.OfText
import Deadwood.Text.Printable

/-!
# Versions

Semantic versions: three numbers, the identifiers of a pre-release and those of a build.  Missing numbers
are zero, and builds do not count in comparisons.
-/

namespace Deadwood

structure Version where
  major : Nat
  minor : Nat
  patch : Nat
  /-- The identifiers of the pre-release with dots between them; empty for a release. -/
  pre : String
  build : String
deriving DecidableEq, Repr, Inhabited

/-- Why a text is no version. -/
inductive VersionFault
  | malformed
  /-- A number is too large. -/
  | overflow (digits : String)
  /-- A number in a pre-release starts with a zero. -/
  | leadingZero
deriving DecidableEq, Repr, Inhabited

def VersionFault.message : VersionFault → String
  | malformed => "Invalid Semantic Version"
  | overflow digits =>
    "Error parsing version segment: strconv.ParseUint: parsing " ++ Text.display digits ++
      ": value out of range"
  | leadingZero => "Version segment starts with 0"

namespace Version

def isIdentChar (c : Char) : Bool := c.isAlphanum || c = '-'

/-- Identifiers with dots between them, at the front of a text. -/
def readIdents (bound : Nat) (cs : List Char) : Option (List Char × List Char) :=
  match bound, cs.takeWhile isIdentChar with
  | _, [] => none
  | 0, ident => some (ident, cs.dropWhile isIdentChar)
  | bound + 1, ident =>
    match cs.dropWhile isIdentChar with
    | '.' :: rest =>
      match readIdents bound rest with
      | some (idents, rest) => some (ident ++ '.' :: idents, rest)
      | none => some (ident, '.' :: rest)
    | rest => some (ident, rest)

/-- Identifiers behind a mark, or nothing. -/
def readTail (mark : Char) (cs : List Char) : List Char × List Char :=
  match cs with
  | c :: rest =>
    if c = mark then (readIdents rest.length rest).getD ([], cs) else ([], cs)
  | [] => ([], [])

/-- A dot with characters of a class behind it, or nothing. -/
def readPart (p : Char → Bool) (cs : List Char) : List Char × List Char :=
  match cs with
  | '.' :: rest =>
    match rest.takeWhile p with
    | [] => ([], cs)
    | part => (part, rest.dropWhile p)
  | _ => ([], cs)

/-- The parts of a version as they are spelled. -/
structure Parts where
  major : List Char
  minor : List Char
  patch : List Char
  pre : List Char
  build : List Char
deriving DecidableEq, Repr, Inhabited

/-- The longest version at the front of a text, whose numbers are spelled in a class of characters. -/
def readParts (p : Char → Bool) (cs : List Char) : Option (Parts × List Char) :=
  let cs := match cs with
    | 'v' :: cs => cs
    | cs => cs
  match cs.takeWhile p with
  | [] => none
  | major =>
    let (minor, cs) := readPart p (cs.dropWhile p)
    let (patch, cs) := readPart p cs
    let (pre, cs) := readTail '-' cs
    let (build, cs) := readTail '+' cs
    some (⟨major, minor, patch, pre, build⟩, cs)

/-- A number of at most 64 bits; nothing counts as zero. -/
def number (ds : List Char) : Except VersionFault Nat :=
  if ds.isEmpty then .ok 0
  else
    match Number.wordOfDigits? 10 ds with
    | some n => .ok n
    | none => .error (.overflow (String.ofList ds))

/-- The pieces of a text between dots. -/
def splitDots (s : String) : List String := s.splitOn "."

def startsWithZero (ident : String) : Bool :=
  ident.toList.all Char.isDigit && 1 < ident.length && ident.toList.head? = some '0'

/-- The version that parts spell. -/
def ofParts (parts : Parts) : Except VersionFault Version := do
  let major ← number parts.major
  let minor ← number parts.minor
  let patch ← number parts.patch
  let pre := String.ofList parts.pre
  if (splitDots pre).any startsWithZero then .error .leadingZero
  else .ok { major, minor, patch, pre, build := String.ofList parts.build }

def parse (s : String) : Except VersionFault Version :=
  match readParts Char.isDigit s.toList with
  | some (parts, []) => ofParts parts
  | _ => .error .malformed

def toText (v : Version) : String :=
  toString v.major ++ "." ++ toString v.minor ++ "." ++ toString v.patch ++
    (if v.pre = "" then "" else "-" ++ v.pre) ++ (if v.build = "" then "" else "+" ++ v.build)

/-! ### Order -/

/-- Compares two identifiers of pre-releases.  Numbers come before words, and nothing before both. -/
def compareIdents (s t : String) : Ordering :=
  if s = t then .eq
  else if s = "" then .lt
  else if t = "" then .gt
  else
    match Number.wordOfDigits? 10 s.toList, Number.wordOfDigits? 10 t.toList with
    | none, none => if t < s then .gt else .lt
    | some _, none => .lt
    | none, some _ => .gt
    | some m, some n => if n < m then .gt else .lt

def compareIdentLists : List String → List String → Ordering
  | [], [] => .eq
  | s :: ss, [] => (compareIdents s "").then (compareIdentLists ss [])
  | [], t :: ts => (compareIdents "" t).then (compareIdentLists [] ts)
  | s :: ss, t :: ts => (compareIdents s t).then (compareIdentLists ss ts)

/-- Compares two pre-releases identifier by identifier. -/
def comparePre (s t : String) : Ordering := compareIdentLists (splitDots s) (splitDots t)

/-- A release comes after its pre-releases. -/
def compare (v w : Version) : Ordering :=
  (Ord.compare v.major w.major).then <|
    (Ord.compare v.minor w.minor).then <|
      (Ord.compare v.patch w.patch).then <|
        if v.pre = "" ∧ w.pre = "" then .eq
        else if v.pre = "" then .gt
        else if w.pre = "" then .lt
        else comparePre v.pre w.pre

end Version

end Deadwood
