import Retrieval.Artifact.Basic
import Retrieval.Binary.Wire

/-! Artifacts in binary form: the bit length, then a list of codes as text with their ids. -/
namespace Retrieval.Artifact

/-- A code with its ids in binary form. -/
def putEntry (entry : Code × SortedSet String) : Bytes :=
  putText entry.1.text ++ putList putText entry.2.toList

/-- Read a code with its ids. -/
def readEntryBytes : Reader (Code × SortedSet String) := fun bytes =>
  match readText bytes with
  | none => none
  | some (text, rest) =>
    match Code.ofText text with
    | .error _ => none
    | .ok code => (readList readText rest).map fun parts => ((code, .ofList parts.1), parts.2)

def toBytes (a : Artifact) : Bytes :=
  countBytes a.bitLength ++ putList putEntry a.entries.entries

/-- Read an artifact and answer the bytes after it, without judging whether it makes sense. -/
def readBytes : Reader Artifact := fun bytes =>
  match readCount bytes with
  | none => none
  | some (bitLength, rest) =>
    (readList readEntryBytes rest).map fun parts => (⟨bitLength, .ofList parts.1⟩, parts.2)

/-- The artifact at the front of the bytes; what follows it is of no concern. -/
def ofBytes? (bytes : Bytes) : Option Artifact := (readBytes bytes).map (·.1)

end Retrieval.Artifact
