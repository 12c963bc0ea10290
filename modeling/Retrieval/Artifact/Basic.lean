import Retrieval.Code.Basic
import Retrieval.Error
import Retrieval.Sorted.Set

/-! Artifacts: which ids an index files under which code, as one value that can be stored. -/
namespace Retrieval

structure Artifact where
  bitLength : Nat
  entries : SortedMap Code (SortedSet String)
deriving DecidableEq

namespace Artifact

/-- How many ids there are under all codes together. -/
def idCount (a : Artifact) : Nat := (a.entries.values.flatMap SortedSet.toList).length

/-- Note ids as seen; the first that was seen before is refused. -/
def seeAll (seen : SortedSet String) : List String → Except Error (SortedSet String)
  | [] => .ok seen
  | id :: rest =>
    if seen.contains id then .error (.invalidConfig (.artifactIdRepeated id))
    else seeAll (seen.insert id) rest

/-- The first code or id that is out of place is the error. -/
def checkEntries (bitLength : Nat) (seen : SortedSet String) :
    List (Code × SortedSet String) → Except Error Unit
  | [] => .ok ()
  | (code, ids) :: rest =>
    if code.length ≠ bitLength then .error (.invalidConfig (.artifactCodeLength code bitLength))
    else if ids.isEmpty then .error (.invalidConfig (.artifactCodeUnused code))
    else (seeAll seen ids.toList).bind fun seen => checkEntries bitLength seen rest

/-- Codes have the artifact's length and an id each, and no id is under two codes. -/
def validate (a : Artifact) : Except Error Unit := checkEntries a.bitLength ∅ a.entries.entries

end Artifact
end Retrieval
