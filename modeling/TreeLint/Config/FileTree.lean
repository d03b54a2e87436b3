/-
The files among which configurations are looked for.

A place is the list of the names on the way from the root, which is also where
relative paths start.  A path is walked name by name, so that `..` leads back
only from a directory that exists; above the root there are directories and
nothing else.  Names and paths have a greatest length, and the null character
stands in none.
-/
import TreeLint.Fault
namespace TreeLint

/-- What stands at a place. -/
inductive Entry where
  /-- A directory. -/
  | directory
  /-- A file with a text, or one that holds no text. -/
  | file (text : Option String)
deriving DecidableEq, Repr

/-- Directories and files by their places; the root always exists. -/
structure FileTree where
  /-- The entries below the root. -/
  entries : List (List String × Entry) := []
deriving Repr

/-- Where a path leads. -/
inductive Walk where
  /-- To something that exists. -/
  | here (place : List String)
  /-- To a name that is free in a directory. -/
  | free (place : List String)
  /-- To a directory above the root. -/
  | above
  /-- Nowhere, because something on the way is missing. -/
  | missing
  /-- Nowhere, because something on the way is no directory. -/
  | blocked
  /-- Nowhere, because a name on the way, or the path, is too long. -/
  | tooLong
deriving DecidableEq, Repr

namespace FileTree

/-- The entry at a place. -/
def get? (t : FileTree) (place : List String) : Option Entry :=
  if place = [] then some .directory else t.entries.lookup place

/-- The tree with an entry put at a place. -/
def put (t : FileTree) (place : List String) (e : Entry) : FileTree :=
  ⟨(place, e) :: t.entries.filter (·.1 != place)⟩

/-- Whether something stands at a place. -/
def has (t : FileTree) (place : List String) : Bool := (t.get? place).isSome

/-- Whether a name leads nowhere but to where it stands. -/
def isHere (name : String) : Bool := name == "" || name == "."

/-- The greatest number of bytes of a name. -/
def longestName : Nat := 255

/-- The greatest number of bytes of a path. -/
def longestPath : Nat := 4095

/-- One name of a path further. -/
def step (t : FileTree) (w : Walk) (name : String) : Walk :=
  match w with
  | .here place =>
    if t.get? place != some .directory then .blocked
    else if isHere name then w
    else if name == ".." then (if place = [] then .above else .here place.dropLast)
    else if longestName < name.utf8ByteSize then .tooLong
    else if t.has (place ++ [name]) then .here (place ++ [name])
    else .free (place ++ [name])
  | .above => if isHere name || name == ".." then .above else .missing
  | .free _ | .missing => .missing
  | .blocked => .blocked
  | .tooLong => .tooLong

/-- The path of a place. -/
def pathOf (place : List String) : String := String.intercalate "/" place

/-- The names in a path, between its slashes. -/
def namesIn (path : String) : List String := (path.toList.splitOn '/').map String.ofList

/-- Whether a path starts above the root. -/
def isAbsolute (path : String) : Bool := path.toList.head? == some '/'

/-- Walks along names from the root. -/
def walkNames (t : FileTree) (names : List String) : Walk :=
  if longestPath < (pathOf names).utf8ByteSize then .tooLong else names.foldl t.step (.here [])

/-- Walks along a path. -/
def walk (t : FileTree) (path : String) : Walk :=
  if path == "" then .missing
  else if longestPath < path.utf8ByteSize then .tooLong
  else (namesIn path).foldl t.step (if isAbsolute path then .above else .here [])

/-- The entry that a path leads to. -/
def find? (t : FileTree) (path : String) : Option Entry :=
  match t.walk path with
  | .here place => t.get? place
  | .above => some .directory
  | _ => none

/-- The place of a path without looking at what exists, unless it lies above the root. -/
def placeOf? (path : String) : Option (List String) :=
  if isAbsolute path then none
  else (namesIn path).foldlM (fun place name =>
    if isHere name then some place
    else if name == ".." then (if place.isEmpty then none else some place.dropLast)
    else some (place ++ [name])) []

/-! ### Writing -/

/-- Whether the null character stands in a name or path. -/
def holdsNull (s : String) : Bool := s.toList.contains '\x00'

/-- Makes a directory; one that exists is left as it is. -/
def makeDirectory (t : FileTree) (names : List String) : Except FileProblem FileTree :=
  if names.any holdsNull then .error .nullInPath
  else match t.walkNames names with
  | .here place => if t.get? place == some .directory then .ok t else .error .taken
  | .free place => .ok (t.put place .directory)
  | .above => .ok t
  | .missing => .error .notFound
  | .blocked => .error .notDirectory
  | .tooLong => .error .tooLong

/-- Whether names lead to something. -/
def leadsSomewhere (t : FileTree) (names : List String) : Bool :=
  match t.walkNames names with
  | .here _ | .above => true
  | _ => false

/-- Makes a directory, given by its names from the last to the first, after those around it that
are missing.  What has been made stays when a later directory cannot be made. -/
def makeDirectories (t : FileTree) : List String → FileTree × Option FileProblem
  | [] => (t, none)
  | name :: outer =>
    let (t, problem) :=
      if outer.isEmpty || t.leadsSomewhere outer.reverse then (t, none)
      else makeDirectories t outer
    match problem with
    | some p => (t, some p)
    | none =>
      match t.makeDirectory (outer.reverse ++ [name]) with
      | .ok t => (t, none)
      | .error p => (t, some p)

/-- Writes a text to the file that a path leads to. -/
def writeFile (t : FileTree) (path text : String) : Except FileProblem FileTree :=
  if holdsNull path then .error .nullInPath
  else match t.walk path with
  | .here place =>
    match t.get? place with
    | some (.file _) => .ok (t.put place (.file (some text)))
    | _ => .error .isDirectory
  | .free place => .ok (t.put place (.file (some text)))
  | .above => .error .isDirectory
  | .missing => .error .notFound
  | .blocked => .error .notDirectory
  | .tooLong => .error .tooLong

/-- The names of the directories in a path from the root; above the root none is made. -/
def directoryNames (path : String) : List String :=
  if isAbsolute path then [] else (namesIn path).dropLast.filter (· != "")

/-- Writes a text to a file, after making the directories on the way to it. -/
def save (t : FileTree) (path text : String) : FileTree × Option FileProblem :=
  match t.makeDirectories (directoryNames path).reverse with
  | (t, some p) => (t, some p)
  | (t, none) =>
    match t.writeFile path text with
    | .ok t => (t, none)
    | .error p => (t, some p)

/-! ### Making trees -/

/-- The tree with an entry at a path, and directories around it; what is there keeps its place
if a directory would take it. -/
def add (t : FileTree) (path : String) (e : Entry) : FileTree :=
  match placeOf? path with
  | some place =>
    let t := (t.makeDirectories place.dropLast.reverse).1
    if e = .directory && t.has place then t else t.put place e
  | none => t

/-- The tree of some files, with their texts, and directories. -/
def ofPaths (files : List (String × Option String)) (directories : List String) : FileTree :=
  let t := files.foldl (fun t f => t.add f.1 (.file f.2)) {}
  directories.foldl (fun t d => t.add d .directory) t

end FileTree

end TreeLint
