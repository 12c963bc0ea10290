import Retrieval.Binary.Wire
import Retrieval.Files.Path

/-!
Folders and what stands in them. A name stands for one thing at most, and a path of plain names
leads from a folder to what is below it.
-/
namespace Retrieval

/-- The files and folders in a folder, one after the other. -/
inductive Folder where
  | empty
  | file (name : String) (bytes : Bytes) (rest : Folder)
  | folder (name : String) (inner rest : Folder)
deriving DecidableEq

/-- What a name or a path can lead to. -/
inductive Node where
  | file (bytes : Bytes)
  | folder (inner : Folder)
deriving DecidableEq

namespace Folder

instance : Inhabited Folder := ⟨empty⟩

/-- What a name stands for. -/
def find? (name : String) : Folder → Option Node
  | empty => none
  | file other bytes rest => if other = name then some (.file bytes) else rest.find? name
  | folder other inner rest => if other = name then some (.folder inner) else rest.find? name

/-- Let a name stand for nothing. -/
def erase (name : String) : Folder → Folder
  | empty => empty
  | file other bytes rest =>
    if other = name then rest.erase name else file other bytes (rest.erase name)
  | folder other inner rest =>
    if other = name then rest.erase name else folder other inner (rest.erase name)

/-- Let a name stand for a file or folder. -/
def insert (name : String) (node : Node) (f : Folder) : Folder :=
  match node with
  | .file bytes => file name bytes (f.erase name)
  | .folder inner => folder name inner (f.erase name)

/-- What stands at a place below the folder. -/
def node? : Folder → Path → Option Node
  | f, [] => some (.folder f)
  | f, name :: rest =>
    match f.find? name with
    | some (.folder inner) => inner.node? rest
    | found => if rest = [] then found else none

/-- Change the folder at a place, if there is one. -/
def alter (change : Folder → Folder) : Folder → Path → Folder
  | f, [] => change f
  | f, name :: rest =>
    match f.find? name with
    | some (.folder inner) => f.insert name (.folder (inner.alter change rest))
    | _ => f

/-- The paths of all files, and of empty folders with a slash at the end, behind `front`. -/
def texts (front : String) : Folder → List String
  | empty => []
  | file name _ rest => (front ++ name) :: rest.texts front
  | folder name inner rest =>
    let below := front ++ name ++ "/"
    (if inner = empty then [below] else inner.texts below) ++ rest.texts front

end Folder
end Retrieval
