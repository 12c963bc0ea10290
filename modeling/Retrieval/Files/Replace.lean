import Retrieval.Files.Tree

/-!
Replacing a file in one step: the bytes go to a file of a new name beside it, which is then renamed.
Whoever reads the file sees the old bytes or the new ones. A path that goes up in the end names no
file, so there is nothing beside which the new file could be; it goes where the path leads.
-/
namespace Retrieval.FileTree

/-- A number in hexadecimal digits, at least 32 of them. -/
def serial (n : Nat) : String :=
  let digits := Nat.toDigits 16 n
  String.ofList (List.replicate (32 - digits.length) '0' ++ digits)

/-- The name of a temporary file for a file called `name`. -/
def temporaryName (name : String) (draw : Nat) : String :=
  "." ++ name ++ "." ++ serial draw ++ ".tmp"

/-- The path of the temporary file for a path. -/
def temporary (t : FileTree) (path : Path) : Path :=
  let last := (trimEnd path).getLast?
  if last = some ".." then trimEnd path ++ [temporaryName "" t.draws]
  else parentOf path ++ [temporaryName (last.getD "") t.draws]

/-- The tree after a name for a temporary file is made up. -/
def drawn (t : FileTree) : FileTree := { t with draws := t.draws + 1 }

/-- Remove a file if it can be removed. -/
def discard (t : FileTree) (path : Path) : FileTree := (t.remove path).toOption.getD t

/-- Write a file under `path`, adding the folders that are missing. If that fails, new folders are
all that may be left of it. -/
def replace (t : FileTree) (path : Path) (bytes : Bytes) : FileTree × Except FileFault Unit :=
  match t.makeFolders (parentOf path) with
  | (t, .error fault) => (t, .error fault)
  | (t, .ok ()) =>
    let temporary := t.temporary path
    let t := t.drawn
    match t.write temporary bytes with
    | .error fault => (t.discard temporary, .error fault)
    | .ok t =>
      match t.rename temporary path with
      | .error fault => (t.discard temporary, .error fault)
      | .ok t => (t, .ok ())

end Retrieval.FileTree
