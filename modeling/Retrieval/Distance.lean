import Retrieval.Descriptor
import Retrieval.Number.Decimal

/-!
Distances between descriptors, from zero for the same direction or histogram to one. Similarity runs
the other way and is a type of its own, so it cannot be sorted as a distance by mistake.
-/
namespace Retrieval

/-- A normalized distance; a smaller one is closer. -/
structure Distance where
  size : Single
deriving DecidableEq

namespace Distance

instance : Ord Distance := ⟨compareOn size⟩

instance : Std.TransOrd Distance := inferInstanceAs (Std.TransCmp (compareOn size))

instance : Std.LawfulEqOrd Distance where
  eq_of_compare {a b} same := by
    have sizes : a.size = b.size := Std.LawfulEqOrd.eq_of_compare same
    cases a; cases b; cases sizes; rfl

def zero : Distance := ⟨⟨0⟩⟩

/-- The distance one. -/
def max : Distance := ⟨⟨0x3f800000⟩⟩

/-- Bring a raw value between zero and one; what is no number is as far as can be. -/
def ofRaw (raw : Float) : Distance :=
  if raw.isNaN then max
  else
    let lifted := if raw < 0 then 0 else raw
    ⟨Single.ofFloat32 (if 1 < lifted then 1 else lifted).toFloat32⟩

/-- One minus the distance. -/
def closeness (d : Distance) : Single := Single.ofFloat32 (1 - d.size.value)

/-- Whether two distances are the same number. -/
def sameNumber (a b : Distance) : Bool := a.size.value == b.size.value

def text (d : Distance) : String := d.size.fixed 6

end Distance

/-- A cosine, from one for the same direction to minus one for opposed ones. -/
structure Similarity where
  cosine : Single
deriving DecidableEq

private def pi : Float := 3.141592653589793

/-- Shorter vectors than this have no direction. -/
private def leastNorm : Float := Float.ofBits 0x3cb0000000000000

/-- Bring a number between minus one and one. -/
def withinUnit (x : Float) : Float :=
  let lifted := if x < -1 then -1 else x
  if 1 < lifted then 1 else lifted

namespace Similarity

/-- The angle as a share of a half turn. -/
def toDistance (s : Similarity) : Distance :=
  .ofRaw ((withinUnit s.cosine.widen).acos / pi)

/-- Two vectors without direction are alike, and one without is orthogonal to all others. -/
def of (a b : Descriptor) : Similarity :=
  let lengthA := Descriptor.norm a
  let lengthB := Descriptor.norm b
  if lengthA < leastNorm ∧ lengthB < leastNorm then ⟨⟨0x3f800000⟩⟩
  else if lengthA < leastNorm ∨ lengthB < leastNorm then ⟨⟨0⟩⟩
  else
    ⟨Single.ofFloat32 (withinUnit (Descriptor.dot a b / (lengthA * lengthB))).toFloat32⟩

end Similarity

namespace Distance

/-- The angle between two vectors as a share of a half turn, taken from the sum and the difference
of their unit vectors, which is exact at both ends of the range. -/
def angular (a b : Descriptor) : Distance :=
  let lengthA := Descriptor.norm a
  let lengthB := Descriptor.norm b
  if lengthA < leastNorm ∨ lengthB < leastNorm then (Similarity.of a b).toDistance
  else
    let units := List.zipWith (fun x y => (x.widen / lengthA, y.widen / lengthB)) a b
    let apart := units.foldl (fun sum u => sum + (u.1 - u.2) * (u.1 - u.2)) 0
    let along := units.foldl (fun sum u => sum + (u.1 + u.2) * (u.1 + u.2)) 0
    .ofRaw (2 * Float.atan2 apart.sqrt along.sqrt / pi)

/-- One minus the overlap of two histograms. -/
def histogram (a b : Descriptor) : Distance := .ofRaw (1 - Descriptor.overlap a b)

end Distance
end Retrieval
