import Retrieval.Index.Basic
import Retrieval.Ranking.Kernel
import Retrieval.Session.Registry
import Retrieval.Store.Classification
import Retrieval.Store.Descriptor

/-! All settings of a service in one place, and opening what they ask for. -/
namespace Retrieval

/-- Where values are kept. A database is only named here: there is none to open. -/
inductive Backend where
  | memory
  | folder (root : String)
  | database (path : String)
deriving DecidableEq, Inhabited

namespace Backend

def openStore {α : Type} (b : Backend) (files : FileTree) :
    FileTree × Except Error (Store α) :=
  match b with
  | memory => (files, .ok (.memory ∅))
  | folder root => Shelf.openFolder files (pathOf root)
  | database path => (files, .error (.invalidConfig (.databaseUnavailable path)))

end Backend

structure Config where
  index : IndexSettings
  ranker : KernelRanker
  registry : RegistrySettings
  descriptors : Backend
  results : Backend
  /-- Under which label rankings are written back, if they are. -/
  resultLabel : Option String
deriving DecidableEq

namespace Config

instance : Inhabited Config := ⟨default, default, default, .memory, .memory, none⟩

/-- Two backends may not share a database. -/
def checkDatabases : Backend → Backend → Except Error Unit
  | .database a, .database b =>
    if samePath a b then .error (.invalidConfig (.sharedDatabase a)) else .ok ()
  | _, _ => .ok ()

/-- The first setting that is of no use is the error. A database cannot be opened twice. -/
def validate (c : Config) : Except Error Unit := do
  c.index.validate
  c.ranker.validate
  c.registry.validate
  if c.resultLabel = some "" then throw (.invalidConfig .resultLabelEmpty)
  checkDatabases c.descriptors c.results

def openDescriptors (c : Config) (files : FileTree) : FileTree × Except Error (Store Descriptor) :=
  c.descriptors.openStore files

/-- The registry, and the store for what is written back, which is opened only if something is. -/
def openRegistry (c : Config) (files : FileTree) :
    FileTree × Except Error (Registry × Store Classification) :=
  match Registry.create c.registry c.resultLabel with
  | .error e => (files, .error e)
  | .ok registry =>
    if c.resultLabel.isNone then (files, .ok (registry, .memory ∅))
    else
      let opened := c.results.openStore files
      (opened.1, opened.2.map (registry, ·))

end Config
end Retrieval
