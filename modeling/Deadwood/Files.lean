/-!
# Files

The files that the program sees, behind an interface: the file system of a machine, or a tree of files
that is held as a value.
-/

namespace Deadwood

/-- Why a file cannot be used. -/
inductive FileCause
  | notFound | notDirectory | isDirectory
  | other (text : String)
deriving DecidableEq, Repr, Inhabited

def FileCause.text : FileCause → String
  | notFound => "no such file or directory"
  | notDirectory => "not a directory"
  | isDirectory => "is a directory"
  | other text => text

structure FileError where
  /-- What was tried. -/
  action : String
  path : String
  cause : FileCause
deriving DecidableEq, Repr, Inhabited

def FileError.message (e : FileError) : String := e.action ++ " " ++ e.path ++ ": " ++ e.cause.text

/-- What the program needs of the machine it runs on. -/
structure Host (m : Type → Type) where
  /-- The text of the standard input. -/
  input : m String
  /-- The absolute path of the working directory. -/
  workingDir : m String
  /-- Whether there is something at a path that is no directory. -/
  isFile : String → m Bool
  read : String → m (Except FileError String)
  write : String → String → m (Except FileError Unit)

/-! ### Paths -/

namespace Path

/-- The names in a path. -/
def parts (path : String) : List String := ((path.toList.splitOn '/').map String.ofList).filter (· ≠ "")

def isAbsolute (path : String) : Bool := path.toList.head? = some '/'

def endsWithSlash (path : String) : Bool := path.toList.getLast? = some '/'

/-- Resolves `.` and `..` by name alone. -/
def clean (parts : List String) : List String :=
  parts.foldl (fun done part =>
    if part = "." then done else if part = ".." then done.dropLast else done ++ [part]) []

/-- The names on the way from the root to a path. -/
def absolute (workingDir path : String) : List String :=
  clean (if isAbsolute path then parts path else parts workingDir ++ parts path)

/-- The absolute path with the given names. -/
def text (parts : List String) : String := "/" ++ "/".intercalate parts

end Path

/-! ### Trees of files -/

/-- Files by the names on the way from the root, with their contents; a directory has none. -/
structure FileTree where
  entries : List (List String × Option String)
deriving DecidableEq, Repr, Inhabited

namespace FileTree

def empty : FileTree := ⟨[]⟩

/-- What is at a place, if there is something: a file with its contents, or a directory. -/
def entry? (t : FileTree) (place : List String) : Option (Option String) :=
  if place.isEmpty then some none else t.entries.lookup place

def isDirectory (t : FileTree) (place : List String) : Bool := t.entry? place = some none

/-- Puts a file or directory at a place whose directory exists. -/
def put (t : FileTree) (place : List String) (content : Option String) : FileTree :=
  ⟨t.entries.filter (·.1 ≠ place) ++ [(place, content)]⟩

def erase (t : FileTree) (place : List String) : FileTree :=
  ⟨t.entries.filter (·.1 ≠ place)⟩

/-- Makes the directories on the way to a place, and the place itself a directory. -/
def makeDirectory (t : FileTree) (place : List String) : FileTree :=
  ((List.range place.length).map fun n => place.take (n + 1)).foldl
    (fun t dir => if (t.entry? dir).isSome then t else t.put dir none) t

/-- Puts a file at a place and makes the directories on the way to it. -/
def add (t : FileTree) (place : List String) (content : String) : FileTree :=
  (t.makeDirectory place.dropLast).put place (some content)

/-- Goes from one place to the next. -/
def step (t : FileTree) (here : List String) (part : String) : Except FileCause (List String) :=
  if !t.isDirectory here then .error .notDirectory
  else if part = "." then .ok here
  else if part = ".." then .ok here.dropLast
  else if (t.entry? (here ++ [part])).isSome then .ok (here ++ [part])
  else .error .notFound

/-- The place where a path starts. -/
def start (workingDir path : String) : List String :=
  if Path.isAbsolute path then [] else Path.parts workingDir

/-- The place a path leads to. -/
def resolve (t : FileTree) (workingDir path : String) : Except FileCause (List String) := do
  if path = "" then .error .notFound
  let place ← (Path.parts path).foldlM t.step (start workingDir path)
  if Path.endsWithSlash path && !t.isDirectory place then .error .notDirectory
  return place

def read (t : FileTree) (workingDir path : String) : Except FileError String :=
  match t.resolve workingDir path with
  | .error cause => .error ⟨"open", path, cause⟩
  | .ok place =>
    match t.entry? place with
    | some (some content) => .ok content
    | some none => .error ⟨"read", path, .isDirectory⟩
    | none => .error ⟨"open", path, .notFound⟩

/-- The place to write to: the directory of a path exists, and the path is no directory. -/
def target (t : FileTree) (workingDir path : String) : Except FileCause (List String) := do
  match (Path.parts path).getLast? with
  | none => .error (if path = "" then .notFound else .isDirectory)
  | some name =>
    let dir ← (Path.parts path).dropLast.foldlM t.step (start workingDir path)
    if !t.isDirectory dir then .error .notDirectory
    else if name = "." || name = ".." then .error .isDirectory
    else
      match t.entry? (dir ++ [name]) with
      | some none => .error .isDirectory
      | some (some _) =>
        if Path.endsWithSlash path then .error .notDirectory else return dir ++ [name]
      | none => if Path.endsWithSlash path then .error .isDirectory else return dir ++ [name]

def write (t : FileTree) (workingDir path content : String) : Except FileError FileTree :=
  match t.target workingDir path with
  | .ok place => .ok (t.put place (some content))
  | .error cause => .error ⟨"open", path, cause⟩

/-- A machine with a tree of files. -/
def host (workingDir input : String) : Host (StateM FileTree) where
  input := return input
  workingDir := return workingDir
  isFile path := return ((← get).read workingDir path).isOk
  read path := return (← get).read workingDir path
  write path content := do
    match (← get).write workingDir path content with
    | .ok t =>
      set t
      return .ok ()
    | .error e => return .error e

end FileTree

end Deadwood
