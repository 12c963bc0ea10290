/-!
Bits packed into 64-bit words, first bit on top. Unpacking undoes packing
(`wordBits_packWord`, `take_flatMap_wordBits_packWords`).
-/
namespace Retrieval

/-- The bits of a word, most significant first. -/
def wordBits (w : UInt64) : List Bool := (List.range 64).map fun i => w.toBitVec.getMsbD i

/-- How many bits of a word are set. -/
def wordOnes (w : UInt64) : UInt32 := .ofNat ((wordBits w).count true)

/-- How many bits of words are set, added up word by word in 32 bits: from `2 ^ 32` on the sum wraps
around. -/
def totalOnes (words : List UInt64) : UInt32 := words.foldl (fun total w => total + wordOnes w) 0

/-- A word whose top bits are `bits`; bits past the sixty-fourth are lost. -/
def packWord : List Bool → UInt64
  | [] => 0
  | b :: rest => (if b then (0x8000000000000000 : UInt64) else 0) ||| (packWord rest >>> 1)

/-- Sixty-four bits to a word; the last word is filled up with clear bits. -/
def packWords (bits : List Bool) : List UInt64 :=
  (List.range ((bits.length + 63) / 64)).map fun i => packWord ((bits.drop (64 * i)).take 64)

@[simp] theorem length_wordBits (w : UInt64) : (wordBits w).length = 64 := by simp [wordBits]

@[simp] theorem length_packWords (bits : List Bool) :
    (packWords bits).length = (bits.length + 63) / 64 := by simp [packWords]

theorem getMsbD_packWord (bits : List Bool) (i : Nat) (inside : i < 64) :
    (packWord bits).toBitVec.getMsbD i = bits.getD i false := by
  induction bits generalizing i with
  | nil => simp [packWord]
  | cons b rest ih =>
    have top : (UInt64.toBitVec (if b then (0x8000000000000000 : UInt64) else 0)).getMsbD i =
        (b && decide (i = 0)) := by
      cases b with
      | false => simp
      | true =>
        have : ∀ j : Fin 64,
            (UInt64.toBitVec 0x8000000000000000).getMsbD j.1 = decide (j.1 = 0) := by decide
        simpa using this ⟨i, inside⟩
    have shifted : (packWord rest >>> 1).toBitVec = (packWord rest).toBitVec >>> 1 := by
      simp [UInt64.toBitVec_shiftRight]
    rw [packWord, UInt64.toBitVec_or, BitVec.getMsbD_or, top, shifted, BitVec.getMsbD_ushiftRight]
    cases i with
    | zero => simp
    | succ i => simp [ih i (by omega), inside]

/-- Unpacking a packed word gives the bits back, followed by clear ones. -/
theorem wordBits_packWord (bits : List Bool) (short : bits.length ≤ 64) :
    wordBits (packWord bits) = bits ++ List.replicate (64 - bits.length) false := by
  apply List.ext_getElem
  · simp; omega
  · intro i inside _
    have inside : i < 64 := by simpa using inside
    simp only [wordBits, List.getElem_map, List.getElem_range]
    rw [getMsbD_packWord bits i inside, List.getElem_append]
    split
    · rename_i before; simp [before]
    · rename_i past; simp [past]

private theorem flatMap_wordBits_chunks (bits : List Bool) (n : Nat) :
    ((List.range n).flatMap fun i => wordBits (packWord ((bits.drop (64 * i)).take 64))).take
      bits.length = bits.take (64 * n) := by
  induction n with
  | zero => simp
  | succ n ih =>
    have chunk := wordBits_packWord ((bits.drop (64 * n)).take 64) (List.length_take_le _ _)
    have size : ∀ m, ((List.range m).flatMap fun i =>
        wordBits (packWord ((bits.drop (64 * i)).take 64))).length = 64 * m := by
      intro m
      induction m with
      | zero => simp
      | succ m step => rw [List.range_succ, List.flatMap_append, List.length_append, step]; simp; omega
    rw [List.range_succ, List.flatMap_append, List.take_append, ih, size]
    simp only [List.flatMap_cons, List.flatMap_nil, List.append_nil]
    rw [chunk, Nat.mul_succ, List.take_add, List.take_append]
    congr 1
    rw [List.take_of_length_le
      (by simp only [List.length_take, List.length_drop]; omega)]
    simp only [List.length_take, List.length_drop, List.take_replicate]
    have : min (bits.length - 64 * n - min 64 (bits.length - 64 * n))
        (64 - min 64 (bits.length - 64 * n)) = 0 := by omega
    simp [this]

/-- Unpacking packed words and cutting to the old length gives the bits back. -/
theorem take_flatMap_wordBits_packWords (bits : List Bool) :
    ((packWords bits).flatMap wordBits).take bits.length = bits := by
  rw [packWords, List.flatMap_map, flatMap_wordBits_chunks,
    List.take_of_length_le (by omega)]

end Retrieval
