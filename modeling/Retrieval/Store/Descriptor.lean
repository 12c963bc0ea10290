import Retrieval.Descriptor
import Retrieval.Store.Basic

/-! Stored descriptors: a file holds the elements as a binary list. -/
namespace Retrieval

/-- Read one element. -/
def readSingle : Reader Single := fun bytes =>
  (readWord 4 bytes).map fun parts => (⟨parts.1.toUInt32⟩, parts.2)

/-- A descriptor in binary form. -/
def Descriptor.toBytes (v : Descriptor) : Bytes := putList (fun x => wordBytes 4 x.bits.toNat) v

/-- The descriptor at the front of the bytes, and what follows it. -/
def Descriptor.readBytes : Reader Descriptor := readList readSingle

instance : Storable Descriptor where
  extension := "vec"
  encode := Descriptor.toBytes
  decode bytes := (Descriptor.readBytes bytes).map (·.1)

namespace Shelf

/-- Store a vector under a key, unless it is empty. -/
def setVector (s : Shelf Descriptor) (key : Key) (v : Descriptor) :
    Shelf Descriptor × Except Error Unit :=
  if v.isEmpty then (s, .error (.invalidState (.emptyVector key))) else s.set key v

/-- The key itself, if a vector is stored under it. -/
def existing (s : Shelf Descriptor) (key : Key) : Except Error Key :=
  if s.has key then .ok key else .error (.notFound key.label key.id)

end Shelf
end Retrieval
