import Retrieval.Number.Binary

/-!
Descriptors: the feature vectors that elements are compared by. Sums run from left to right and
start at negative zero, which leaves every number as it is.
-/
namespace Retrieval

/-- The feature vector of an element. -/
abbrev Descriptor := List Single

namespace Descriptor

/-- The sum of a list in double precision. -/
def total (terms : List Float) : Float := terms.foldl (· + ·) (-0.0)

/-- The Euclidean length. -/
def norm (v : Descriptor) : Float := (total (v.map fun x => x.widen * x.widen)).sqrt

/-- The inner product over the places that both vectors have. -/
def dot (a b : Descriptor) : Float :=
  total (List.zipWith (fun x y => x.widen * y.widen) a b)

/-- The overlap of two histograms: at each place the smaller value, or the one that is a number. -/
def overlap (a b : Descriptor) : Float :=
  total (List.zipWith (fun x y =>
    if y.isNaN then x.widen
    else if x.isNaN then y.widen
    else if x.value < y.value then x.widen else y.widen) a b)

/-- Scale to absolute values that sum to one; a vector of zeros stays as it is. -/
def normalized (v : Descriptor) : Descriptor :=
  let sum := v.foldl (fun sum x => sum + x.value.abs) (-0.0)
  if Float32.ofBits 0x34000000 < sum then v.map fun x => Single.ofFloat32 (x.value / sum) else v

end Descriptor
end Retrieval
