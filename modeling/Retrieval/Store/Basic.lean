import Retrieval.Error
import Retrieval.Files.Escape
import Retrieval.Files.Replace
import Retrieval.Sorted.Map

/-!
Stores keep one value under a key, in memory or as one file each below a folder. A shelf is a store
with the files around it; both kinds of store answer alike as long as the files do not get in the
way.
-/
namespace Retrieval

/-- Values that can be kept in files. -/
class Storable (α : Type) where
  extension : String
  encode : α → Bytes
  decode : Bytes → Option α

inductive Store (α : Type) where
  | memory (held : SortedMap Key α)
  | folder (root : Path)

structure Shelf (α : Type) where
  store : Store α
  files : FileTree

variable {α : Type}

namespace Store

/-- How many values a store in memory holds; one in files does not keep count. -/
def size? : Store α → Option Nat
  | memory held => some held.size
  | folder _ => none

end Store

namespace Shelf

/-- The file of a key: a folder for its label, and a name for its id. -/
def file [Storable α] (root : Path) (key : Key) : Path :=
  root ++ [escapeName key.label, escapeName key.id ++ "." ++ Storable.extension α]

/-- Start a store below `root`, adding the folder if it is missing. -/
def openFolder (files : FileTree) (root : Path) : FileTree × Except Error (Store α) :=
  match files.makeFolders root with
  | (files, .ok ()) => (files, .ok (.folder root))
  | (files, .error _) => (files, .error .io)

def get [Storable α] (s : Shelf α) (key : Key) : Except Error α :=
  match s.store with
  | .memory held => (held.get? key).elim (.error (.notFound key.label key.id)) .ok
  | .folder root =>
    match s.files.read (@file α _ root key) with
    | .ok bytes => (Storable.decode bytes).elim (.error .malformed) .ok
    | .error .absent => .error (.notFound key.label key.id)
    | .error .refused => .error .io

/-- Keep a value, in place of the one that was there. -/
def set [Storable α] (s : Shelf α) (key : Key) (value : α) : Shelf α × Except Error Unit :=
  match s.store with
  | .memory held => ({ s with store := .memory (held.insert key value) }, .ok ())
  | .folder root =>
    match s.files.replace (@file α _ root key) (Storable.encode value) with
    | (files, .ok ()) => ({ s with files := files }, .ok ())
    | (files, .error _) => ({ s with files := files }, .error .io)

/-- Whether there is a value, without reading it. -/
def has [Storable α] (s : Shelf α) (key : Key) : Bool :=
  match s.store with
  | .memory held => held.contains key
  | .folder root => s.files.isFile (@file α _ root key)

/-- Take a value away, and tell whether there was one. -/
def remove [Storable α] (s : Shelf α) (key : Key) : Shelf α × Except Error Bool :=
  match s.store with
  | .memory held => ({ s with store := .memory (held.erase key) }, .ok (held.contains key))
  | .folder root =>
    match s.files.remove (@file α _ root key) with
    | .ok files => ({ s with files := files }, .ok true)
    | .error .absent => (s, .ok false)
    | .error .refused => (s, .error .io)

/-- What is kept for an element; nothing is there until it has been computed. -/
def computed [Storable α] (s : Shelf α) (key : Key) : Except Error α :=
  match s.get key with
  | .error (.notFound _ _) => .error (.notComputed key)
  | answer => answer

end Shelf
end Retrieval
