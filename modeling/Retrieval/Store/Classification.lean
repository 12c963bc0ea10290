import Retrieval.Json.Printer
import Retrieval.Json.Reader
import Retrieval.Json.Record
import Retrieval.Store.Basic

/-! Stored classifications: a file holds labels and confidences as a JSON object. -/
namespace Retrieval

/-- A confidence for each label. -/
abbrev Classification := SortedMap String Double

namespace Classification

def toJson (c : Classification) : Json :=
  .ofMembers (c.entries.map fun entry => (entry.1, .ofDouble entry.2))

def ofJson? (value : Json) : Option Classification := do
  let members ← value.members?
  return .ofList (← members.mapM fun member => do return (member.1, ← member.2.double?))

end Classification

instance : Storable Classification where
  extension := "json"
  encode c := textBytes (String.ofList (Classification.toJson c).compact)
  decode bytes := (ofTextBytes? bytes).bind fun text =>
    (Json.parse? text.toList).bind Classification.ofJson?

/-- The label of highest confidence; of several, the first. -/
def Classification.best (c : Classification) : Option (String × Double) :=
  c.entries.foldl (fun best entry =>
    match best with
    | none => some entry
    | some held => some (if held.2.value < entry.2.value then entry else held)) none

namespace Shelf

/-- Store a classification, unless it is empty or a confidence is not finite. -/
def setClassification (s : Shelf Classification) (key : Key) (c : Classification) :
    Shelf Classification × Except Error Unit :=
  if c.isEmpty then (s, .error (.invalidState (.emptyClassification key)))
  else
    match c.entries.find? (!·.2.isFinite) with
    | some (label, confidence) =>
      (s, .error (.invalidState (.nonFiniteConfidence label confidence)))
    | none => s.set key c

def bestLabel (s : Shelf Classification) (key : Key) : Except Error (String × Double) := do
  match (← s.computed key).best with
  | some best => return best
  | none => throw (.notComputed key)

end Shelf
end Retrieval
