import Mathlib.Data.Finset.Card
import Mathlib.Data.Nat.Count
import Retrieval.Proofs.Code.Packing

/-!
Hamming distance bit by bit. The bits past the end of a code are clear, so that between codes of one
length the bits in which their words differ are the positions at which their bit strings differ
(`Code.gap_eq_card_differences`). Distances count them in 32 bits, which loses nothing as long as
there are fewer than `2 ^ 32` positions to compare (`Code.ExactFor.toNat_hamming`).
-/
namespace Retrieval
variable {words other : List UInt64} {i : Nat}

/-- The positions at which two bit strings differ; where only one of them goes on they do. -/
def differences (a b : List Bool) : Finset Nat :=
  {i ∈ Finset.range (max a.length b.length) | a[i]? ≠ b[i]?}

theorem testBit_zipWith_xor (inside : i < 64 * min words.length other.length) :
    testBit (List.zipWith (· ^^^ ·) words other) i = (testBit words i != testBit other i) := by
  have held : i / 64 < words.length := by omega
  have held' : i / 64 < other.length := by omega
  simp [testBit_eq, List.getD_eq_getElem?_getD, held, held', UInt64.toBitVec_xor]

namespace Code
variable {a b c query : Code} {length : Nat}

/-- Over the words that both codes have, whatever their lengths, bits that differ are counted. -/
theorem gap_eq_card_words (a b : Code) : a.gap b =
    {i ∈ Finset.range (64 * min a.words.length b.words.length) | a.bit i ≠ b.bit i}.card := by
  have counted (n : Nat) (p : Nat → Bool) :
      (List.range n).countP p = Nat.count (p · = true) n := by
    simp [Nat.count]
  rw [gap, wordsDistance_eq_count, flatMap_wordBits, List.count_eq_countP, List.countP_map,
    List.length_zipWith, counted, Nat.count_eq_card_filter_range]
  congr 1
  refine Finset.filter_congr fun i member => ?_
  have differ := testBit_zipWith_xor (Finset.mem_range.mp member)
  simp [differ, bit_eq]

/-- The clear bits that fill up the last word are no differences. -/
theorem gap_eq_card (alike : a.length = b.length) :
    a.gap b = {i ∈ Finset.range a.length | a.bit i ≠ b.bit i}.card := by
  have sized : b.words.length = a.words.length := by rw [length_words, length_words, alike]
  have room := a.length_le_words
  rw [gap_eq_card_words, sized, Nat.min_self]
  congr 1
  ext i
  simp only [Finset.mem_filter, Finset.mem_range]
  constructor
  · rintro ⟨_, differ⟩
    refine ⟨Nat.lt_of_not_le fun past => differ ?_, differ⟩
    rw [bit_of_le past, bit_of_le (alike ▸ past)]
  · rintro ⟨inside, differ⟩
    exact ⟨by omega, differ⟩

theorem getElem?_toBools (c : Code) (i : Nat) :
    c.toBools[i]? = if i < c.length then some (c.bit i) else none := by
  rw [toBools_eq, List.getElem?_map]
  by_cases inside : i < c.length
  · simp [inside]
  · simp [inside]

theorem gap_eq_card_differences (alike : a.length = b.length) :
    a.gap b = (differences a.toBools b.toBools).card := by
  rw [gap_eq_card alike, differences, length_toBools, length_toBools, ← alike, Nat.max_self]
  congr 1
  refine Finset.filter_congr fun i member => ?_
  have inside := Finset.mem_range.mp member
  rw [getElem?_toBools, getElem?_toBools, ← alike, if_pos inside, if_pos inside, ne_eq, ne_eq,
    Option.some.injEq]

theorem gap_eq_zero_iff (alike : a.length = b.length) : a.gap b = 0 ↔ a = b := by
  refine ⟨eq_of_gap_eq_zero alike, ?_⟩
  rintro rfl
  exact gap_self a

/-! Distances in 32 bits -/

/-- Past the end of both codes all bits are clear. -/
theorem gap_le_length {a b : Code} (short : a.length ≤ length) (short' : b.length ≤ length) :
    a.gap b ≤ length := by
  rw [gap_eq_card_words]
  have inside : {i ∈ Finset.range (64 * min a.words.length b.words.length) | a.bit i ≠ b.bit i} ⊆
      Finset.range length := by
    intro i member
    rw [Finset.mem_range]
    refine Nat.lt_of_not_le fun past => (Finset.mem_filter.mp member).2 ?_
    rw [bit_of_le (Nat.le_trans short past), bit_of_le (Nat.le_trans short' past)]
  exact (Finset.card_le_card inside).trans_eq (Finset.card_range length)

theorem gap_le_words (a b : Code) : a.gap b ≤ 64 * b.words.length := by
  rw [gap_eq_card_words]
  refine (Finset.card_filter_le _ _).trans ?_
  rw [Finset.card_range]
  omega

/-- Distances among codes of a length and from a query to them fit 32 bits. Bits of a longer query
count up to the end of the last word of a code, also those past the end of the code. -/
def ExactFor (query : Code) (length : Nat) : Prop :=
  length < 2 ^ 32 ∧ (query.length < 2 ^ 32 ∨ length + 64 ≤ 2 ^ 32)

instance : Decidable (query.ExactFor length) :=
  inferInstanceAs (Decidable (length < 2 ^ 32 ∧ (query.length < 2 ^ 32 ∨ length + 64 ≤ 2 ^ 32)))

theorem exactFor_of_lt (short : query.length < 2 ^ 32) (small : length < 2 ^ 32) :
    query.ExactFor length := ⟨small, .inl short⟩

/-- Where 32 bits are enough, the distance is the number of bits that differ. -/
theorem ExactFor.toNat_hamming (fits : query.ExactFor length) (alike : c.length = length) :
    (query.hamming c).toNat = query.gap c := by
  rw [Code.toNat_hamming]
  refine Nat.mod_eq_of_lt ?_
  obtain ⟨small, short | room⟩ := fits
  · have bound : query.gap c ≤ max query.length length :=
      gap_le_length (Nat.le_max_left ..) (alike ▸ Nat.le_max_right ..)
    omega
  · have bound := query.gap_le_words c
    rw [length_words, alike] at bound
    omega

/-- Codes of one length have distances that fit 32 bits if their length does. -/
theorem toNat_hamming_of_lt (alike : a.length = b.length) (small : a.length < 2 ^ 32) :
    (a.hamming b).toNat = a.gap b :=
  (exactFor_of_lt small small).toNat_hamming alike.symm

theorem hamming_eq_zero_iff (alike : a.length = b.length) (small : a.length < 2 ^ 32) :
    a.hamming b = 0 ↔ a = b := by
  rw [← gap_eq_zero_iff alike, ← toNat_hamming_of_lt alike small, ← UInt32.toNat_inj,
    UInt32.toNat_zero]

end Code
end Retrieval
