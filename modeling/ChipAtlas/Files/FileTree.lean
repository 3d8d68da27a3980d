import ChipAtlas.Data.OrderedMap
import ChipAtlas.Files.Path
import ChipAtlas.Violation

/-!
# File trees

A file tree is what lies below one directory: regular files with their bytes, and directories. It
also holds temporary files. A temporary file lies in a directory, which is therefore not empty,
under a random name that nobody asks for; it is reached by its number, and becomes a regular file
when it is moved to a path. To move it or to drop it, the path that it was opened with must still
lead to its directory, and a directory on that path may have been removed: the way through `a/..`
needs `a`.

The changes are those of a file system without links, permissions or limits on space. A change that
fails says why and leaves the tree as it was; `makeDirs` alone may have made some directories on the
way before it fails.

* `FileTree.node?`, `FileTree.lookup` — what lies at a place, and what a path leads to;
* `FileTree.makeDirs`, `FileTree.writeFile`, `FileTree.removeFile`, `FileTree.removeDir`;
* `FileTree.openTemp`, `FileTree.append`, `FileTree.publish`, `FileTree.discard` — the life of a
  temporary file;
* `FileTree.listing` — everything in the tree, in the order of paths.
-/

namespace ChipAtlas

/-- What lies at a place: a regular file or a directory. -/
inductive Node where
  | file (bytes : List UInt8)
  | dir
  deriving DecidableEq, Repr

/-- A place in a tree: the names on the way from its root. -/
abbrev Location := List String

/-- The number of a temporary file. -/
abbrev TempId := Nat

/-- A temporary file: the directory that it lies in, the path that it was opened with, and its
bytes. -/
structure TempFile where
  folder : Location
  way : String
  bytes : List UInt8 := []
  deriving DecidableEq, Repr

/-- What lies below one directory, which is named by its path from the root of the file system. -/
structure FileTree where
  root : String := "/"
  nodes : OrderedMap Location Node := ∅
  temps : OrderedMap TempId TempFile := ∅
  nextTemp : TempId := 0
  deriving DecidableEq, Repr, Inhabited

/-- The last step of a path: a name, with a slash behind it or not, or a step that stays in the
directory or leads up. -/
inductive LastStep where
  | name (name : String) (slash : Bool)
  | stay
  | up
  deriving DecidableEq, Repr

/-- A change to a file tree. -/
abbrev TreeChange := EStateM IoCause FileTree

namespace FileTree

/-! ### Where paths lead -/

/-- The length of the longest name, in bytes. -/
def longestName : Nat := 255

/-- The length of the longest path, in bytes. -/
def longestPath : Nat := 4095

/-- What the name of a temporary file looks like. The six letters at its end are random. -/
def tempName : String := ".tmpXXXXXX"

/-- What lies at a place. The root is a directory. -/
def node? (t : FileTree) (l : Location) : Option Node :=
  if l = [] then some .dir else t.nodes.get? l

/-- The place of a name in a directory. -/
def entry (folder : Location) (name : String) : Except IoCause Location :=
  if name.utf8ByteSize ≤ longestName then .ok (folder ++ [name]) else .error .nameTooLong

/-- The directory that names lead to. -/
def walk (t : FileTree) : Location → List String → Except IoCause Location
  | l, [] => .ok l
  | l, name :: rest =>
    if name = "." then t.walk l rest
    -- the root is the directory above itself
    else if name = ".." then t.walk l.dropLast rest
    else do
      let next ← entry l name
      match t.node? next with
      | none => throw .notFound
      | some (.file _) => throw .notADirectory
      | some .dir => t.walk next rest

/-- The last step of a path that ends with a piece. -/
def lastStep (path piece : String) : LastStep :=
  if piece = "." then .stay
  else if piece = ".." then .up
  else .name piece (Path.endsWithSlash path)

/-- Whether a path holds the character that ends a path for the system. -/
def hasNul (path : String) : Bool := path.toList.contains (Char.ofNat 0)

/-- The directory that the last step of a path is made in, and that step. -/
def locate (t : FileTree) (path : String) : Except IoCause (Location × LastStep) :=
  if hasNul path then .error .nulInName
  else if path = "" then .error .notFound
  else if longestPath < path.utf8ByteSize then .error .nameTooLong
  else
    match (Path.pieces path).getLast? with
    | none => .ok ([], .stay)
    | some piece => do
      return (← t.walk [] (Path.pieces path).dropLast, lastStep path piece)

/-- What a path leads to. -/
def lookup (t : FileTree) (path : String) : Except IoCause Node := do
  match ← t.locate path with
  | (folder, .name name slash) =>
    match t.node? (← entry folder name) with
    | none => throw .notFound
    | some (.file bytes) => if slash then throw .notADirectory else return .file bytes
    | some .dir => return .dir
  | _ => return .dir

/-- Whether a path leads to a directory. -/
def isDir (t : FileTree) (path : String) : Bool :=
  match t.lookup path with
  | .ok .dir => true
  | _ => false

/-- Whether a path leads to a regular file. -/
def isFile (t : FileTree) (path : String) : Bool :=
  match t.lookup path with
  | .ok (.file _) => true
  | _ => false

/-- The bytes of the regular file that a path leads to. -/
def read (t : FileTree) (path : String) : Except IoCause (List UInt8) := do
  match ← t.lookup path with
  | .file bytes => return bytes
  | .dir => throw .isADirectory

/-! ### Files and directories -/

/-- The tree with a node at a place. -/
def put (t : FileTree) (l : Location) (node : Node) : FileTree :=
  { t with nodes := t.nodes.insert l node }

/-- Whether nothing lies in a directory. -/
def isEmptyDir (t : FileTree) (l : Location) : Bool :=
  -- the root lies in no directory
  t.nodes.keys.all (fun m => m.dropLast ≠ l ∨ m = []) &&
    t.temps.entries.all (fun temp => temp.2.folder ≠ l)

/-- Turns what the tree answers into a change that leaves it as it is. -/
def ask {α : Type} (f : FileTree → Except IoCause α) : TreeChange α := fun t =>
  match f t with
  | .ok a => .ok a t
  | .error cause => .error cause t

/-- Makes a directory in a directory that is there. -/
def makeDir (path : String) : TreeChange Unit := do
  match ← ask (·.locate path) with
  | (folder, .name name _) =>
    let l ← ask fun _ => entry folder name
    match (← get).node? l with
    | some _ => throw .alreadyExists
    | none => modify (·.put l .dir)
  | _ => throw .alreadyExists

/-- Makes a directory, and before it those of the given directories on the way to it, the nearest
first, that are missing. -/
def makeDirsFrom (path : String) : List String → TreeChange Unit
  | [] => makeUnlessThere
  | parent :: rest => fun t =>
    match makeDir path t with
    -- the directory above is missing, so it is made before
    | .error .notFound t => (makeDirsFrom parent rest *> makeUnlessThere) t
    | .error .alreadyExists t => if t.isDir path then .ok () t else .error .alreadyExists t
    | result => result
where
  /-- Makes the directory itself, unless it is there. -/
  makeUnlessThere : TreeChange Unit := fun t =>
    match makeDir path t with
    | .error .alreadyExists t => if t.isDir path then .ok () t else .error .alreadyExists t
    | result => result

/-- Makes a directory and those on the way to it, unless they are there. -/
def makeDirs (path : String) : TreeChange Unit :=
  if (Path.pieces path).isEmpty then pure () else makeDirsFrom path (Path.ancestors path)

/-- Writes a regular file, in place of the one that is there. -/
def writeFile (path : String) (bytes : List UInt8) : TreeChange Unit := do
  match ← ask (·.locate path) with
  | (folder, .name name false) =>
    let l ← ask fun _ => entry folder name
    match (← get).node? l with
    | some .dir => throw .isADirectory
    | _ => modify (·.put l (.file bytes))
  | _ => throw .isADirectory

/-- Removes a regular file. -/
def removeFile (path : String) : TreeChange Unit := do
  match ← ask (·.locate path) with
  | (folder, .name name slash) =>
    let l ← ask fun _ => entry folder name
    match (← get).node? l with
    | none => throw .notFound
    | some .dir => throw .isADirectory
    | some (.file _) =>
      if slash then throw .notADirectory
      else modify fun t => { t with nodes := t.nodes.erase l }
  | _ => throw .isADirectory

/-- Removes an empty directory. -/
def removeDir (path : String) : TreeChange Unit := do
  match ← ask (·.locate path) with
  | (folder, .name name _) =>
    let l ← ask fun _ => entry folder name
    match (← get).node? l with
    | none => throw .notFound
    | some (.file _) => throw .notADirectory
    | some .dir =>
      -- a temporary file keeps its directory from being removed
      if (← get).isEmptyDir l then modify fun t => { t with nodes := t.nodes.erase l }
      else throw .directoryNotEmpty
  | (_, .up) => throw .directoryNotEmpty
  | (_, .stay) => throw .invalidArgument

/-! ### Temporary files -/

/-- Opens a temporary file in a directory. The whole path of the file must not be too long. -/
def openTemp (folder : String) : TreeChange TempId := do
  let t ← get
  if longestPath < (Path.join (Path.join t.root folder) tempName).utf8ByteSize then
    throw .nameTooLong
  let temp : TempFile := { folder := ← ask (·.walk [] (Path.pieces folder)), way := folder }
  set { t with temps := t.temps.insert t.nextTemp temp, nextTemp := t.nextTemp + 1 }
  return t.nextTemp

/-- Writes bytes at the end of a temporary file. -/
def append (id : TempId) (bytes : List UInt8) : TreeChange Unit := do
  match (← get).temps.get? id with
  | none => throw .notFound
  | some temp =>
    modify fun t => { t with temps := t.temps.insert id { temp with bytes := temp.bytes ++ bytes } }

/-- The tree without a temporary file. -/
def eraseTemp (t : FileTree) (id : TempId) : FileTree := { t with temps := t.temps.erase id }

/-- Makes sure that the way to a temporary file is there. -/
def reach (temp : TempFile) : TreeChange Unit := do
  let _ ← ask (·.walk [] (Path.pieces temp.way))

/-- Drops a temporary file. -/
def discard (id : TempId) : TreeChange Unit := do
  match (← get).temps.get? id with
  | none => throw .notFound
  | some temp =>
    reach temp
    modify (·.eraseTemp id)

/-- Moves a temporary file to a path, in place of the regular file that is there. -/
def publish (id : TempId) (path : String) : TreeChange Unit := do
  match (← get).temps.get? id with
  | none => throw .notFound
  | some temp =>
    if hasNul path then throw .invalidArgument
    reach temp
    match ← ask (·.locate path) with
    | (folder, .name name slash) =>
      let l ← ask fun _ => entry folder name
      if slash then throw .notADirectory
      -- a file takes the place of a file, but not of a directory
      if (← get).node? l = some .dir then throw .isADirectory
      modify fun t => (t.eraseTemp id).put l (.file temp.bytes)
    | _ => throw .busy

/-! ### Listings -/

/-- A place as a path; a directory ends with a slash. -/
def pathOf (l : Location) : Node → String
  | .file _ => String.intercalate "/" l
  | .dir => String.intercalate "/" l ++ "/"

/-- Everything in the tree, in the order of paths, the files with their bytes. -/
def listing (t : FileTree) : List (String × Node) :=
  (t.nodes.entries.map fun e => (pathOf e.1 e.2, e.2)).mergeSort fun a b => a.1 ≤ b.1

end FileTree

end ChipAtlas
