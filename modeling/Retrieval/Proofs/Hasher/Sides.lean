import Retrieval.Hasher.Draws
import Retrieval.Proofs.Hasher.Document

/-!
What planes hash to. Planes that are drawn or created fit together, and planes from a document are
taken as they are (`Hyperplanes.not_consistent_of_document`). Wherever they come from, a vector of
their dimension gets a bit for each plane that tells on which side of it the vector lies, provided
that their mean has this dimension too (`Hyperplanes.hash_of_produced`). None of this depends on
where draws come from or how products are added up.
-/
namespace Retrieval

section
open Float.Model

theorem compare_notANumber (x : UnpackedFloat) : x.compare .notANumber = none := by
  cases x <;> rfl

/-- What is not a number is not below anything. -/
theorem not_le_of_isNaN {x y : Float32} (undefined : y.isNaN = true) : ¬ x ≤ y := by
  have nothing : y.toModel.unpack = .notANumber := by
    change y.toModel.unpack.isNaN = true at undefined
    cases read : y.toModel.unpack with
    | notANumber => rfl
    | infinity sign => rw [read] at undefined; cases undefined
    | zero sign => rw [read] at undefined; cases undefined
    | finite sign mantissa exponent positive => rw [read] at undefined; cases undefined
  intro below
  change Float32.le x y = true at below
  rw [Float32.le] at below
  have compared : x.toModel.unpack.le y.toModel.unpack = true := of_decide_eq_true below
  rw [nothing, UnpackedFloat.le, compare_notANumber] at compared
  cases compared

end

namespace Hyperplanes
variable {h : Hyperplanes} {v : Descriptor} {dot : InnerProduct}

/-! Parameters -/

/-- The mean, if there is one, has the dimension of the planes. -/
def Centred (h : Hyperplanes) : Prop := ∀ mean, h.mean = some mean → mean.length = h.dimension

theorem Consistent.centred (consistent : h.Consistent) : h.Centred := consistent.2.2

/-- Created planes are the given ones, and they fit together. -/
theorem create_ok_iff {normals : Matrix} {mean : Option Descriptor} :
    create normals mean = .ok h ↔ h = ⟨normals, mean⟩ ∧ h.Consistent := by
  unfold create
  by_cases empty : normals.rows = 0 ∨ normals.columns = 0
  · rw [if_pos empty]
    constructor
    · nofun
    · rintro ⟨rfl, some_plane, some_place, _⟩
      rcases empty with none | none
      · exact absurd none some_plane.ne'
      · exact absurd none some_place.ne'
  · rw [if_neg empty]
    obtain ⟨some_plane, some_place⟩ := not_or.mp empty
    cases fit : mean.filter (·.length ≠ normals.columns) with
    | none =>
      have centred : ∀ given, mean = some given → given.length = normals.columns := by
        simpa [Option.filter_eq_none_iff] using fit
      constructor
      · intro made
        cases made
        exact ⟨rfl, Nat.pos_of_ne_zero some_plane, Nat.pos_of_ne_zero some_place, centred⟩
      · rintro ⟨rfl, _⟩
        rfl
    | some other =>
      obtain ⟨given, differs⟩ := Option.filter_eq_some_iff.mp fit
      constructor
      · nofun
      · rintro ⟨rfl, consistent⟩
        exact absurd (consistent.centred other given) (of_decide_eq_true differs)

theorem consistent_of_random {G : Type} {draw : G → Single × G} {dimension bits : Nat} {g rest : G}
    (made : random draw dimension bits g = .ok (h, rest)) : h.Consistent := by
  unfold random at made
  split at made
  · cases made
  · split at made
    · cases made
    · rename_i some_place some_plane
      cases made
      exact ⟨Nat.pos_of_ne_zero some_plane, Nat.pos_of_ne_zero some_place, nofun⟩

/-! Codes -/

/-- The vector from the mean, place by place. -/
def fromMean (h : Hyperplanes) (v : Descriptor) : Descriptor :=
  h.mean.elim v (List.zipWith (fun x m => .ofFloat32 (x.value - m.value)) v)

theorem centre_of_centred (centred : h.Centred) (sized : v.length = h.dimension) :
    h.centre v = some (h.fromMean v) := by
  unfold centre fromMean
  cases given : h.mean with
  | none => rfl
  | some mean =>
    have fits := centred mean given
    match mean with
    | [m] =>
      obtain ⟨x, rfl⟩ := List.length_eq_one_iff.mp (sized.trans fits.symm)
      rfl
    | [] => exact if_pos fits
    | m :: n :: rest => exact if_pos fits

/-- A bit for each plane, set where the product with its normal is zero or more; a product that is
not a number leaves it clear. -/
structure Sided (dot : InnerProduct) (h : Hyperplanes) (v : Descriptor) (code : Code) : Prop where
  length : code.length = h.bits
  side : ∀ i < h.bits, (code.bit i = true ↔ 0 ≤ dot (h.normals.row i) (h.fromMean v))
  undefined : ∀ i < h.bits, (dot (h.normals.row i) (h.fromMean v)).isNaN = true →
    code.bit i = false

/-- What planes hash to. A mean of one element stands for that element at every place, and with a
mean of any other wrong length the hash breaks off. -/
structure Hashes (dot : InnerProduct) (h : Hyperplanes) : Prop where
  refuses : ∀ v, v.length ≠ h.dimension →
    h.hash dot v = .answered (.error (.dimensionMismatch h.dimension v.length))
  sides : h.Centred → ∀ v, v.length = h.dimension →
    ∃ code, h.hash dot v = .answered (.ok code) ∧ h.Sided dot v code
  spread : ∀ m v, h.mean = some [m] →
    h.hash dot v = hash dot { h with mean := some (List.replicate h.dimension m) } v
  unfit : ∀ mean v, h.mean = some mean → v.length = h.dimension → mean.length ≠ h.dimension →
    mean.length ≠ 1 → h.hash dot v = .panicked

theorem hash_of_other_length (other : v.length ≠ h.dimension) :
    h.hash dot v = .answered (.error (.dimensionMismatch h.dimension v.length)) := if_pos other

theorem hash_of_centre {centred : Descriptor} (sized : v.length = h.dimension)
    (made : h.centre v = some centred) :
    h.hash dot v = .answered (.ok (Code.ofBools ((List.range h.bits).map fun i =>
      0 ≤ dot (h.normals.row i) centred))) := by
  rw [hash, if_neg (not_not.mpr sized), made]

theorem sided_ofBools (dot : InnerProduct) (h : Hyperplanes) (v : Descriptor) :
    h.Sided dot v (Code.ofBools ((List.range h.bits).map fun i =>
      0 ≤ dot (h.normals.row i) (h.fromMean v))) := by
  have side : ∀ i < h.bits, ((Code.ofBools ((List.range h.bits).map fun i =>
      0 ≤ dot (h.normals.row i) (h.fromMean v))).bit i = true ↔
        0 ≤ dot (h.normals.row i) (h.fromMean v)) := by
    intro i inside
    rw [Code.bit_ofBools]
    simp [inside]
  refine ⟨by simp [Code.ofBools], side, ?_⟩
  intro i inside undefined
  have outside := not_le_of_isNaN (x := 0) undefined
  rw [← side i inside] at outside
  exact Bool.eq_false_iff.mpr outside

/-- A mean of one element stands for that element at every place. -/
theorem centre_replicate {m : Single} (given : h.mean = some [m]) (sized : v.length = h.dimension) :
    h.centre v = centre { h with mean := some (List.replicate h.dimension m) } v := by
  have centred : Centred { h with mean := some (List.replicate h.dimension m) } := by
    rintro mean ⟨⟩
    exact List.length_replicate
  rw [centre_of_centred centred sized]
  have repeated : List.replicate h.dimension m = v.map fun _ => m := by
    rw [← sized, List.map_const']
  unfold centre fromMean
  rw [given]
  simp only [Option.elim_some, repeated, List.zipWith_map_right, List.zipWith_self]

theorem centre_of_unfit {mean : Descriptor} (given : h.mean = some mean)
    (other : mean.length ≠ h.dimension) (several : mean.length ≠ 1) : h.centre v = none := by
  unfold centre
  rw [given]
  match mean with
  | [m] => exact absurd rfl several
  | [] => exact if_neg other
  | m :: n :: rest => exact if_neg other

theorem hashes (dot : InnerProduct) (h : Hyperplanes) : h.Hashes dot where
  refuses v other := hash_of_other_length other
  sides centred v sized :=
    ⟨_, hash_of_centre sized (centre_of_centred centred sized), h.sided_ofBools dot v⟩
  spread m v given := by
    let spread : Hyperplanes := { h with mean := some (List.replicate h.dimension m) }
    have same : spread.dimension = h.dimension := rfl
    by_cases sized : v.length = h.dimension
    · rw [hash, hash, if_neg (not_not.mpr sized), if_neg (not_not.mpr (sized.trans same.symm)),
        centre_replicate given sized]
      rfl
    · rw [hash_of_other_length sized]
      exact (hash_of_other_length (h := spread) sized).symm
  unfit mean v given sized other several := by
    rw [hash, if_neg (not_not.mpr sized), centre_of_unfit given other several]

/-! Origins -/

/-- The planes that a text stands for. -/
def ofText? (text : String) : Option Hyperplanes := (Json.parse? text.toList).bind ofJson?

/-- The ways to come by planes. -/
inductive Produced (h : Hyperplanes) : Prop where
  | drawn {G : Type} (draw : G → Single × G) (dimension bits : Nat) (g rest : G)
      (made : random draw dimension bits g = .ok (h, rest))
  | created (normals : Matrix) (mean : Option Descriptor) (made : create normals mean = .ok h)
  | read (text : String) (made : ofText? text = some h)

/-- All planes that can be written are produced, whether or not they fit together. -/
theorem produced_of_writable (writable : h.Writable) : h.Produced := by
  apply Produced.read (String.ofList h.toJson.compact)
  rw [ofText?, String.toList_ofList]
  exact ofJson?_parse?_compact writable

/-- Planes that are drawn or created fit together. Planes from a document may be such as would not
have been created. All of them answer a vector of another dimension with an error, and one of their
dimension with a bit for each plane if the mean has this dimension. -/
theorem hash_of_produced (produced : h.Produced) (dot : InnerProduct) :
    (h.Consistent ∨
      (∃ text, ofText? text = some h) ∧ ∃ e, create h.normals h.mean = .error e) ∧
      h.Hashes dot := by
  refine ⟨?_, h.hashes dot⟩
  cases produced with
  | drawn draw dimension bits g rest made => exact .inl (consistent_of_random made)
  | created normals mean made => exact .inl (create_ok_iff.mp made).2
  | read text made =>
    cases again : create h.normals h.mean with
    | ok other =>
      obtain ⟨rfl, consistent⟩ := create_ok_iff.mp again
      exact .inl consistent
    | error e => exact .inr ⟨⟨text, made⟩, e, rfl⟩

/-- Two planes in three dimensions with a mean of one. -/
def uncentred : Hyperplanes where
  normals := ⟨2, 3, [⟨0x3f800000⟩, ⟨0x40000000⟩, ⟨0x40400000⟩, ⟨0x40800000⟩, ⟨0x40a00000⟩,
    ⟨0x40c00000⟩], rfl⟩
  mean := some [⟨0x40000000⟩]

theorem ofText?_uncentred : ofText? ("\x7b\"projections\":\x7b\"v\":1,\"dim\":[2,3]," ++
    "\"data\":[1,2,3,4,5,6]\x7d,\"mean\":\x7b\"v\":1,\"dim\":[1],\"data\":[2]\x7d\x7d") =
      some uncentred := by
  decide +kernel

theorem not_consistent_of_document : ¬ ∀ h : Hyperplanes, h.Produced → h.Consistent := by
  intro all
  have consistent := all uncentred (.read _ ofText?_uncentred)
  exact absurd (consistent.centred _ rfl) (by decide)

theorem hash_of_produced_uncentred : uncentred.Produced ∧
    uncentred.hash projection [⟨0x3f800000⟩, ⟨0x40000000⟩, ⟨0x40400000⟩] =
      hash projection { uncentred with mean := some (List.replicate 3 ⟨0x40000000⟩) }
        [⟨0x3f800000⟩, ⟨0x40000000⟩, ⟨0x40400000⟩] := by
  have produced : uncentred.Produced := .read _ ofText?_uncentred
  exact ⟨produced, (hash_of_produced produced projection).2.spread _ _ rfl⟩

end Hyperplanes
end Retrieval
