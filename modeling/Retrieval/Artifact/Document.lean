import Retrieval.Artifact.Basic
import Retrieval.Json.Printer
import Retrieval.Json.Reader
import Retrieval.Json.Record

/-!
Artifacts as JSON documents: codes are member names, and ids are listed in order. A reader accepts
ids in any order and takes the last of several members with one name.
-/
namespace Retrieval.Artifact

def toJson (a : Artifact) : Json :=
  .ofMembers [
    ("bit_length", .ofNat a.bitLength),
    ("entries", .ofMembers (a.entries.entries.map fun entry =>
      (entry.1.text, .array (entry.2.toList.map .ofString))))]

/-- Read a member as a code with its ids. -/
def readEntry (member : String × Json) : Option (Code × SortedSet String) := do
  let code ← (Code.ofText member.1).toOption
  return (code, .ofList (← member.2.listOf Json.string?))

/-- Read a document, without judging whether the artifact makes sense. -/
def ofJson? (value : Json) : Option Artifact := do
  let [some bitLength, some entries] ← value.allFields? ["bit_length", "entries"] | none
  let entries ← (← entries.members?).mapM readEntry
  return ⟨← bitLength.nat?, .ofList entries⟩

/-- The document indented for people. -/
def document (a : Artifact) : String := String.ofList a.toJson.pretty

def ofDocument? (text : String) : Option Artifact := (Json.parse? text.toList).bind ofJson?

end Retrieval.Artifact
