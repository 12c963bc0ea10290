import Retrieval.Artifact.Basic
import Retrieval.Index.Basic

/-! Moving what an index holds to another one, without hashing any vector again. -/
namespace Retrieval.Index

/-- What the index files under which code. -/
def artifact (ix : Index) : Artifact := ⟨ix.hasher.bits, ix.contents.buckets⟩

/-- The ids of an artifact with their codes, the handles having the given label. -/
def handlesOf (a : Artifact) (label : String) : List (Key × Code) :=
  a.entries.entries.flatMap fun entry => entry.2.toList.map fun id => (⟨label, id⟩, entry.1)

/-- Hold what an artifact files, but for the search. -/
def adopt (contents : Contents) (a : Artifact) (label : String) : Contents :=
  let filed := handlesOf a label
  { contents with
    buckets := a.entries
    codes := .ofList (filed.map fun entry => (entry.1.id, entry.2))
    handles := .ofList (filed.map fun entry => (entry.1.id, entry.1)) }

/-- Fill an unbuilt index from an artifact that fits its hasher. -/
def load (ix : Index) (a : Artifact) (label : String) : Except Error Index := do
  a.validate
  if a.bitLength ≠ ix.hasher.bits then
    throw (.invalidConfig (.artifactForOtherFunctor a.bitLength ix.hasher.bits))
  let empty ← Contents.empty ix.settings.search
  let contents ← (adopt empty a label).plant
  if ix.contents.built then throw (.invalidState .loadIntoBuilt)
  return { ix with contents := contents }

end Retrieval.Index
