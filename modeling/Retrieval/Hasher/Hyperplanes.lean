import Retrieval.Hasher.Basic

/-!
Hashing by hyperplanes: a bit tells on which side of a plane through the mean a descriptor lies. The
parameters that `create` and `random` answer fit together; parameters read from elsewhere need not,
and the hash of a vector then breaks off.
-/
namespace Retrieval

/-- A table of numbers, row after row. -/
structure Matrix where
  rows : Nat
  columns : Nat
  entries : List Single
  shaped : entries.length = rows * columns
deriving DecidableEq

namespace Matrix

/-- The table with these entries, if there are as many as it has places. -/
def of? (rows columns : Nat) (entries : List Single) : Option Matrix :=
  if shaped : entries.length = rows * columns then some ⟨rows, columns, entries, shaped⟩ else none

def row (m : Matrix) (i : Nat) : Descriptor := (m.entries.drop (i * m.columns)).take m.columns

end Matrix

/-- Planes given by their normal vectors, one row for each bit, and where they meet. -/
structure Hyperplanes where
  normals : Matrix
  mean : Option Descriptor
deriving DecidableEq

/-- Add up terms in eight lanes as long as they fill a block; the rest stays over. -/
def addBlocks (lanes terms : List Float32) : List Float32 × List Float32 :=
  if 8 ≤ terms.length then addBlocks (List.zipWith (· + ·) lanes (terms.take 8)) (terms.drop 8)
  else (lanes, terms)
termination_by terms.length
decreasing_by simp only [List.length_drop]; omega

/-- How two vectors are multiplied. The order in which the products are added depends on how the
numbers lie in memory, so it is left open. -/
abbrev InnerProduct := Descriptor → Descriptor → Float32

/-- The inner product of numbers that lie side by side: lanes four apart are paired, the pairs are
added in order, and the terms left over come last. -/
def projection : InnerProduct := fun a b =>
  let terms := List.zipWith (fun x y => x.value * y.value) a b
  let blocks := addBlocks (List.replicate 8 0) terms
  let pairs := List.zipWith (· + ·) (blocks.1.take 4) (blocks.1.drop 4)
  blocks.2.foldl (· + ·) (pairs.foldl (· + ·) 0)

/-- How a computation ends that may break off. -/
inductive Ending (α : Type) where
  | answered (answer : Except Error α)
  | panicked

/-- The answer of a computation that does not break off. -/
def Ending.answer {α : Type} : (ending : Ending α) → ending ≠ .panicked → Except Error α
  | .answered answer, _ => answer
  | .panicked, calm => absurd rfl calm

theorem Ending.answer_eq_iff {α : Type} {ending : Ending α} {calm : ending ≠ .panicked}
    {answer : Except Error α} : ending.answer calm = answer ↔ ending = .answered answer := by
  cases ending with
  | answered _ => exact (Ending.answered.injEq _ _).symm ▸ Iff.rfl
  | panicked => exact absurd rfl calm

namespace Hyperplanes

def bits (h : Hyperplanes) : Nat := h.normals.rows

def dimension (h : Hyperplanes) : Nat := h.normals.columns

/-- There is a plane and a dimension, and the mean has that dimension. -/
def Consistent (h : Hyperplanes) : Prop :=
  0 < h.bits ∧ 0 < h.dimension ∧ ∀ mean, h.mean = some mean → mean.length = h.dimension

/-- Trained parameters, refused unless they fit together. -/
def create (normals : Matrix) (mean : Option Descriptor) : Except Error Hyperplanes :=
  if normals.rows = 0 ∨ normals.columns = 0 then
    .error (.invalidConfig (.projectionEmpty normals.rows normals.columns))
  else
    match mean.filter (·.length ≠ normals.columns) with
    | some mean => .error (.dimensionMismatch normals.columns mean.length)
    | none => .ok ⟨normals, mean⟩

/-- The vector from the mean, if the two have shapes that go together: a mean of one element holds
at every place. -/
def centre (h : Hyperplanes) (v : Descriptor) : Option Descriptor :=
  let minus (x m : Single) : Single := .ofFloat32 (x.value - m.value)
  match h.mean with
  | none => some v
  | some [m] => some (v.map (minus · m))
  | some mean => if mean.length = h.dimension then some (List.zipWith minus v mean) else none

/-- A bit is set when the product with its normal is zero or more. -/
def hash (dot : InnerProduct) (h : Hyperplanes) (v : Descriptor) : Ending Code :=
  if v.length ≠ h.dimension then .answered (.error (.dimensionMismatch h.dimension v.length))
  else
    match h.centre v with
    | some centred =>
      .answered (.ok (.ofBools ((List.range h.bits).map fun i => 0 ≤ dot (h.normals.row i) centred)))
    | none => .panicked

/-- The mean can be taken from a vector of the dimension. -/
def Broadcasts (h : Hyperplanes) : Prop :=
  ∀ mean ∈ h.mean, mean.length = h.dimension ∨ mean.length = 1

instance (h : Hyperplanes) : Decidable h.Broadcasts :=
  inferInstanceAs (Decidable (∀ mean ∈ h.mean, mean.length = h.dimension ∨ mean.length = 1))

theorem centre_isSome {h : Hyperplanes} (fits : h.Broadcasts) (v : Descriptor) :
    (h.centre v).isSome = true := by
  unfold centre
  cases given : h.mean with
  | none => rfl
  | some mean =>
    have shape := fits mean given
    match mean with
    | [m] => rfl
    | [] => simpa using shape
    | m :: n :: rest => simpa using shape

theorem hash_ne_panicked (dot : InnerProduct) {h : Hyperplanes} (fits : h.Broadcasts)
    (v : Descriptor) : h.hash dot v ≠ .panicked := by
  unfold hash
  split
  · nofun
  · obtain ⟨centred, there⟩ := Option.isSome_iff_exists.mp (centre_isSome fits v)
    rw [there]
    nofun

/-- Planes whose mean fits make a hasher. -/
def hasher (dot : InnerProduct) (h : Hyperplanes) (fits : h.Broadcasts) : Hasher where
  dimension := h.dimension
  bits := h.bits
  hash v := (h.hash dot v).answer (hash_ne_panicked dot fits v)
  describe := "HyperplaneFunctor"

end Hyperplanes
end Retrieval
