import StructuralTyping.Text.Pieces

/-!
# Files

What a command can read: the files by path, seen from a working directory.  A
tree of files in memory is one such view, and reads paths the way a file system
does, element by element.
-/

namespace StructuralTyping

/-- Why a file cannot be read. -/
inductive FileProblem where
  | missing
  | notDirectory
  | isDirectory
  deriving DecidableEq, Repr, Inhabited

/-- The wording of a problem with the file at a path. -/
def FileProblem.text (path : String) : FileProblem → String
  | .missing => "open " ++ path ++ ": no such file or directory"
  | .notDirectory => "open " ++ path ++ ": not a directory"
  | .isDirectory => "read " ++ path ++ ": is a directory"

/-- The files that a command can read. -/
structure Files where
  /-- The working directory, from the root. -/
  directory : String
  read : String → Except FileProblem String

/-! ## Paths -/

/-- The elements of a path between slashes, empty ones left out. -/
def pathElements (path : String) : List String := (pieces '/' path).filter fun e => !e.isEmpty

/-- The path from the root with the given elements. -/
def rootPath (elements : List String) : String := "/" ++ joinText "/" elements

/-- A list and all its beginnings, the longest first. -/
def beginnings : List α → List (List α)
  | [] => [[]]
  | x :: xs => (beginnings xs).map (x :: ·) ++ [[]]

/-- A directory and the directories above it. -/
def ancestors (directory : String) : List String :=
  (beginnings (pathElements directory)).map rootPath

/-! ## Trees in memory -/

/-- Files in memory by the elements of their paths. -/
abbrev FileTree := List (List String × String)

namespace FileTree

/-- Some file lies below these elements. -/
def isDirectory (t : FileTree) (directory elements : List String) : Bool :=
  elements.isPrefixOf directory || t.any fun f => elements.isPrefixOf f.1 && f.1 != elements

/-- Follows elements from a place in the tree. -/
def follow (t : FileTree) (directory : List String) :
    List String → List String → Except FileProblem (List String)
  | place, [] => .ok place
  | place, e :: es =>
    if (t.lookup place).isSome then .error .notDirectory
    else if !t.isDirectory directory place then .error .missing
    else if e == "." then t.follow directory place es
    else if e == ".." then t.follow directory place.dropLast es
    else t.follow directory (place ++ [e]) es

/-- Reads the file at a path.  A slash at the end asks for a directory. -/
def read (t : FileTree) (directory : List String) (path : String) : Except FileProblem String :=
  if path.isEmpty then .error .missing
  else
    let start := if path.toList.head? == some '/' then [] else directory
    let elements := pathElements path ++ (if path.toList.getLast? == some '/' then ["."] else [])
    match t.follow directory start elements with
    | .error p => .error p
    | .ok place =>
      match t.lookup place with
      | some content => .ok content
      | none => .error (if t.isDirectory directory place then .isDirectory else .missing)

/-- The tree as a command sees it. -/
def files (t : FileTree) (directory : String) : Files :=
  ⟨rootPath (pathElements directory), t.read (pathElements directory)⟩

end FileTree

example : ancestors "/a/b" = ["/a/b", "/a", "/"] := by decide +kernel
example : (FileTree.read [(["w", "c"], "x")] ["w", "a"] "../c").toOption = some "x" := by
    decide +kernel
example : (FileTree.read [(["w", "c"], "x")] ["w"] ".").toOption = none := by decide +kernel

end StructuralTyping
