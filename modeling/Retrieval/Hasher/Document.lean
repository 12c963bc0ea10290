import Retrieval.Hasher.Hyperplanes
import Retrieval.Json.Record

/-!
Hyperplanes as a JSON document. A table is written with its version, its dimensions and its entries.
Reading checks that each table has the entries its dimensions call for, and no more than that: what
the document says about the planes as a whole is taken as it is.
-/
namespace Retrieval.Hyperplanes

/-- A table as it is written. -/
def tableJson (dimensions : List Nat) (entries : List Single) : Json :=
  .ofMembers [("v", .ofNat 1), ("dim", .array (dimensions.map .ofNat)),
    ("data", .array (entries.map .ofSingle))]

/-- As many dimensions as a table of `axes` axes has. -/
def readDimensions (axes : Nat) (value : Json) : Option (List Nat) :=
  (value.listOf Json.nat?).filter (·.length = axes)

/-- Whether a table names the one version there is. -/
def isVersion (value : Json) : Bool := value.nat? = some 1

/-- The dimensions and entries of a table. In the object form the last of repeated members counts,
though each has to be readable. -/
def readTable (axes : Nat) (value : Json) : Option (List Nat × List Single) := do
  let (dimensions, entries) ← match value with
    | .array [version, dimensions, entries] =>
      if isVersion version then
        pure (← readDimensions axes dimensions, ← entries.listOf Json.single?)
      else none
    | .object _ => do
      let members ← value.members?
      let versions := Json.valuesOf "v" members
      let dimensions ← (Json.valuesOf "dim" members).mapM (readDimensions axes)
      let entries ← (Json.valuesOf "data" members).mapM (Json.listOf Json.single?)
      if members.all (fun member => member.1 ∈ ["v", "dim", "data"]) && !versions.isEmpty &&
          versions.all isVersion then
        pure (← dimensions.getLast?, ← entries.getLast?)
      else none
    | _ => none
  if (dimensions.filter (· ≠ 0)).foldl (· * ·) 1 < 0x8000000000000000 then
    some (dimensions, entries)
  else none

def toJson (h : Hyperplanes) : Json :=
  .ofMembers [
    ("projections", tableJson [h.bits, h.dimension] h.normals.entries),
    ("mean", h.mean.elim .null fun mean => tableJson [mean.length] mean)]

/-- Read a table with one row of entries for each bit. -/
def readNormals (value : Json) : Option Matrix := do
  let ([rows, columns], entries) ← readTable 2 value | none
  Matrix.of? rows columns entries

/-- Read a table of one axis. -/
def readMean (value : Json) : Option Descriptor := do
  let ([length], entries) ← readTable 1 value | none
  if entries.length = length then some entries else none

/-- Read a document; only the mean may be left out. -/
def ofJson? (value : Json) : Option Hyperplanes := do
  let [some normals, mean] ← value.allFields? ["projections", "mean"] | none
  return ⟨← readNormals normals, ← (mean.getD .null).optional readMean⟩

end Retrieval.Hyperplanes
