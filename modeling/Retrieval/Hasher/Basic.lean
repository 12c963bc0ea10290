import Retrieval.Code.Basic
import Retrieval.Descriptor
import Retrieval.Error

/-! Hashers turn descriptors into codes, so that near descriptors tend to get near codes. -/
namespace Retrieval

/-- A hasher announces the dimension it expects and the bits it produces; `describe` spells it out. -/
structure Hasher where
  dimension : Nat
  bits : Nat
  hash : Descriptor → Except Error Code
  describe : String

namespace Hasher

/-- A hasher keeps its word when every code it produces has the announced length. -/
def Faithful (h : Hasher) : Prop := ∀ v code, h.hash v = .ok code → code.length = h.bits

/-- One bit for each element, set where it is not negative, whatever the announced numbers are. -/
def signs (dimension bits : Nat) : Hasher where
  dimension := dimension
  bits := bits
  hash v := .ok (Code.ofBools (v.map fun x => 0 ≤ x.value))
  describe := "SignFunctor \x7b dim: " ++ toString dimension ++ ", bits: " ++ toString bits ++ " \x7d"

end Hasher
end Retrieval
