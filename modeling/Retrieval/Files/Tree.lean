import Retrieval.Files.Folder

/-!
A tree of files and folders. A path is followed name by name; only a folder can be passed through,
so a path with a slash at its end leads to nothing but a folder. A name takes at most 255 bytes,
which is seen when it is reached, and a path written out at most 4095 bytes and no null characters,
which is seen before any name is followed.
-/
namespace Retrieval

/-- Why an operation on files fails: nothing is there, or what is there does not allow it. -/
inductive FileFault where
  | absent
  | refused
deriving DecidableEq

/-- The folder at the top and all below it; `draws` counts the names made up for temporary files, so
that no two are the same. -/
structure FileTree where
  top : Folder
  draws : Nat
deriving DecidableEq

namespace FileTree

def empty : FileTree := ⟨.empty, 0⟩

instance : Inhabited FileTree := ⟨empty⟩

/-- What stands at a place. -/
def node? (t : FileTree) (place : Path) : Option Node := t.top.node? place

/-- Put a file or folder at a place. -/
def put (t : FileTree) (place : Path) (node : Node) : FileTree :=
  match place.getLast? with
  | some name => { t with top := t.top.alter (·.insert name node) place.dropLast }
  | none => t

/-- Leave nothing at a place. -/
def clear (t : FileTree) (place : Path) : FileTree :=
  match place.getLast? with
  | some name => { t with top := t.top.alter (·.erase name) place.dropLast }
  | none => t

/-- Whether a file or folder may have this name. -/
def canName (name : String) : Bool := name.utf8ByteSize ≤ 255

/-- How many bytes a path takes, with a slash or the end of the text after each name. -/
def textSize (path : Path) : Nat := path.foldl (fun size name => size + name.utf8ByteSize + 1) 0

/-- Whether a path may be followed at all. -/
def canFollow (path : Path) : Bool :=
  textSize path ≤ 4096 && path.all fun name => !name.toList.contains '\x00'

/-- The place that a name leads to. -/
def step (folder : Path) (name : String) : Path :=
  if name = ".." then folder.dropLast else if namesHere name then folder else folder ++ [name]

/-- Follow a path through folders to the place it ends at, which may be vacant. -/
def locate (t : FileTree) (folder : Path) : Path → Except FileFault Path
  | [] => .ok folder
  | name :: rest =>
    match t.node? folder with
    | none => .error .absent
    | some (.file _) => .error .refused
    | some (.folder _) =>
      if canName name then t.locate (step folder name) rest else .error .refused

/-- The place that a path leads to from the top, which may be vacant. -/
def resolve (t : FileTree) (path : Path) : Except FileFault Path :=
  if canFollow path then t.locate [] path else .error .refused

def read (t : FileTree) (path : Path) : Except FileFault Bytes := do
  match t.node? (← t.resolve path) with
  | some (.file bytes) => return bytes
  | some (.folder _) => throw .refused
  | none => throw .absent

def isFile (t : FileTree) (path : Path) : Bool := (t.read path).toOption.isSome

def isFolder (t : FileTree) (path : Path) : Bool :=
  match (t.resolve path).toOption.bind t.node? with
  | some (.folder _) => true
  | _ => false

/-- Write a file, in place of the one that is there. -/
def write (t : FileTree) (path : Path) (bytes : Bytes) : Except FileFault FileTree := do
  let place ← t.resolve path
  match t.node? place with
  | some (.folder _) => throw .refused
  | _ => return t.put place (.file bytes)

/-- Remove a file. -/
def remove (t : FileTree) (path : Path) : Except FileFault FileTree := do
  let place ← t.resolve path
  match t.node? place with
  | some (.file _) => return t.clear place
  | some (.folder _) => throw .refused
  | none => throw .absent

/-- Move a file to another place, over the file that is there. -/
def rename (t : FileTree) (source target : Path) : Except FileFault FileTree := do
  let bytes ← t.read source
  (← t.write target bytes).remove source

/-- Add the folders that are missing along a path below `folder`. -/
def addFolders (t : FileTree) (folder : Path) : Path → FileTree × Except FileFault Unit
  | [] => (t, .ok ())
  | name :: rest =>
    let place := step folder name
    match t.node? place with
    | some (.folder _) => t.addFolders place rest
    | some (.file _) => (t, .error .refused)
    | none =>
      if canName name then (t.put place (.folder .empty)).addFolders place rest
      else (t, .error .refused)

/-- Add the folders that are missing along a path, as far as that is possible. A dot at the end asks
for a folder that is there: only the folders above it are added. -/
def makeFolders (t : FileTree) (path : Path) : FileTree × Except FileFault Unit :=
  if canFollow path then
    if (path.filter (· ≠ "")).getLast? = some "." then
      match t.addFolders [] (parentOf path) with
      | (t, .error fault) => (t, .error fault)
      | (t, .ok ()) => (t, if t.isFolder path then .ok () else .error .absent)
    else t.addFolders [] path
  else (t, .error .refused)

/-- The paths below a place of all files, and of empty folders with a slash at the end, in order. -/
def listing (t : FileTree) (place : Path) : List String :=
  match t.node? place with
  | some (.folder inner) => (inner.texts "").mergeSort fun a b => (compare a b).isLE
  | _ => []

end FileTree
end Retrieval
