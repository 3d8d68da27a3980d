/-!
# Paths

A path is a text of names with slashes between. A slash in front makes it absolute. Empty names and
the name `.` lead nowhere and do not count; the name `..` leads one directory up and counts.

* `Path.names` — the names that count, in order;
* `Path.ancestors`, `Path.folder` — the directories on the way, and the one that a path is in;
* `Path.join` — a path below a directory;
* `Path.stem?` — the last name without its extension.
-/

namespace ChipAtlas.Path

/-! ### The names of a path -/

/-- Puts a character in front of a text that is already cut at its slashes. -/
def addChar (c : Char) : List (List Char) → List (List Char)
  | [] => if c = '/' then [[], []] else [[c]]
  | piece :: pieces => if c = '/' then [] :: piece :: pieces else (c :: piece) :: pieces

/-- A path cut at its slashes. Two slashes in a row, and one at an end, have an empty segment
between them. -/
def segments (path : String) : List String := (path.toList.foldr addChar []).map String.ofList

/-- The pieces of a path between its slashes, empty ones left out. -/
def pieces (path : String) : List String := (segments path).filter (· ≠ "")

/-- The names that count, in order. -/
def names (path : String) : List String := (pieces path).filter (· ≠ ".")

/-- Whether a path starts at the root. -/
def isAbsolute (path : String) : Bool := path.toList.head? = some '/'

/-- Whether a path ends with a slash, and so can only lead to a directory. -/
def endsWithSlash (path : String) : Bool := path.toList.getLast? = some '/'

/-- The path of names, from the root if it is to be absolute. -/
def ofNames (absolute : Bool) (names : List String) : String :=
  (if absolute then "/" else "") ++ String.intercalate "/" names

/-! ### Up and down -/

/-- The directories on the way to a path, the nearest first, without the one that the way starts
from. -/
def ancestors (path : String) : List String :=
  let names := names path
  ((List.range names.length).drop 1).reverse.map fun n => ofNames (isAbsolute path) (names.take n)

/-- Segments without those at the end that lead nowhere. -/
def trimmed (segments : List String) : List String :=
  (segments.reverse.dropWhile fun segment => segment = "" ∨ segment = ".").reverse

/-- The directory that a path is in: what is written before its last name. -/
def folder (path : String) : String :=
  match trimmed (trimmed (segments path)).dropLast with
  | [] => if isAbsolute path then "/" else "."
  | front => String.intercalate "/" front

/-- A path that starts in a directory. An absolute path stays as it is. -/
def join (folder path : String) : String :=
  if isAbsolute path then path
  else if folder = "" ∨ endsWithSlash folder then folder ++ path
  else folder ++ "/" ++ path

/-! ### File names -/

/-- A file name up to its last point. A point at the very beginning belongs to the name. -/
def withoutExtension (name : String) : String :=
  match name.toList.reverse.dropWhile (· ≠ '.') with
  | _ :: c :: front => String.ofList (front.reverse ++ [c])
  | _ => name

/-- The last name of a path without its extension, if the path ends with a name. -/
def stem? (path : String) : Option String :=
  match (names path).getLast? with
  | none => none
  | some name => if name = ".." then none else some (withoutExtension name)

end ChipAtlas.Path
