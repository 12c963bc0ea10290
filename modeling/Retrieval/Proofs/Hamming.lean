import Mathlib.Algebra.Group.Nat.Defs
import Retrieval.Code.Basic

/-!
Hamming distance bounds what a ball can hide. Codes of one length that differ in no bit are equal
(`Code.eq_of_gap_eq_zero`), and the number of bits that differ obeys the triangle inequality, also
from a query of another length, because all three numbers are counted over the same words
(`Code.gap_triangle`). Distances are these numbers added up in 32 bits (`Code.toNat_hamming`).
-/
namespace Retrieval

/-- How many bits of two words differ. -/
def wordDistance (v w : UInt64) : Nat := (wordBits (v ^^^ w)).count true

theorem wordDistance_self (w : UInt64) : wordDistance w w = 0 := by
  rw [wordDistance, UInt64.xor_self]
  exact List.count_eq_zero.mpr (by simp [wordBits])

private theorem countP_le_add {α : Type} {p q r : α → Bool} (covered : ∀ x, p x → q x ∨ r x)
    (items : List α) : items.countP p ≤ items.countP q + items.countP r := by
  induction items with
  | nil => simp
  | cons x rest ih =>
    simp only [List.countP_cons]
    by_cases here : p x = true
    · rcases covered x here with first | second
      · simp only [here, first, ↓reduceIte]; omega
      · simp only [here, second, ↓reduceIte]; omega
    · simp only [here]; simp only [Bool.false_eq_true, ↓reduceIte]; omega

/-- A bit in which two words differ is one in which a third differs from either of them. -/
theorem wordDistance_triangle (u v w : UInt64) :
    wordDistance u w ≤ wordDistance u v + wordDistance v w := by
  simp only [wordDistance, wordBits, List.count_eq_countP, List.countP_map]
  apply countP_le_add
  intro i
  simp only [Function.comp_apply, UInt64.toBitVec_xor, BitVec.getMsbD_xor]
  cases u.toBitVec.getMsbD i <;> cases v.toBitVec.getMsbD i <;> cases w.toBitVec.getMsbD i <;> simp

theorem eq_of_wordDistance_eq_zero {v w : UInt64} (near : wordDistance v w = 0) : v = w := by
  have alike : true ∉ wordBits (v ^^^ w) := List.count_eq_zero.mp near
  refine UInt64.toBitVec_inj.mp (BitVec.eq_of_getMsbD_eq fun i inside => ?_)
  have here : (v ^^^ w).toBitVec.getMsbD i = false := by
    cases bit : (v ^^^ w).toBitVec.getMsbD i with
    | false => rfl
    | true => exact absurd (List.mem_map.mpr ⟨i, List.mem_range.mpr inside, bit⟩) alike
  rw [UInt64.toBitVec_xor, BitVec.getMsbD_xor] at here
  simpa using here

/-- How many bits differ over the words that both lists have. -/
def wordsDistance : List UInt64 → List UInt64 → Nat
  | v :: vs, w :: ws => wordDistance v w + wordsDistance vs ws
  | _, _ => 0

theorem wordsDistance_self (ws : List UInt64) : wordsDistance ws ws = 0 := by
  induction ws with
  | nil => rfl
  | cons w ws ih => rw [wordsDistance, wordDistance_self, ih]

theorem eq_of_wordsDistance_eq_zero {vs ws : List UInt64} (paired : vs.length = ws.length)
    (near : wordsDistance vs ws = 0) : vs = ws := by
  induction vs generalizing ws with
  | nil => exact (List.length_eq_zero_iff.mp paired.symm).symm
  | cons v vs ih =>
    cases ws with
    | nil => cases paired
    | cons w ws =>
      obtain ⟨head, tail⟩ := Nat.add_eq_zero_iff.mp near
      rw [eq_of_wordDistance_eq_zero head, ih (Nat.succ.inj paired) tail]

theorem wordsDistance_triangle {cs ps : List UInt64} (paired : cs.length = ps.length)
    (qs : List UInt64) : wordsDistance qs ps ≤ wordsDistance qs cs + wordsDistance cs ps := by
  induction qs generalizing cs ps with
  | nil => simp [wordsDistance]
  | cons q qs ih =>
    cases cs with
    | nil =>
      cases ps with
      | nil => simp [wordsDistance]
      | cons p ps => cases paired
    | cons c cs =>
      cases ps with
      | nil => cases paired
      | cons p ps =>
        have head := wordDistance_triangle q c p
        have tail := ih (Nat.succ.inj paired)
        simp only [wordsDistance]
        omega

theorem wordsDistance_eq_count (vs ws : List UInt64) :
    wordsDistance vs ws = ((List.zipWith (· ^^^ ·) vs ws).flatMap wordBits).count true := by
  induction vs generalizing ws with
  | nil => rfl
  | cons v vs ih =>
    cases ws with
    | nil => rfl
    | cons w ws =>
      rw [wordsDistance, ih, wordDistance, List.zipWith_cons_cons, List.flatMap_cons,
        List.count_append]

/-- Adding up in 32 bits comes to the number of bits modulo `2 ^ 32`, wherever the sum wraps
around. -/
theorem toNat_totalOnes (words : List UInt64) :
    (totalOnes words).toNat = (words.flatMap wordBits).count true % 2 ^ 32 := by
  have summed (total : UInt32) :
      (words.foldl (fun total w => total + wordOnes w) total).toNat =
        (total.toNat + (words.flatMap wordBits).count true) % 2 ^ 32 := by
    induction words generalizing total with
    | nil => exact (Nat.mod_eq_of_lt total.toNat_lt).symm
    | cons w rest ih =>
      rw [List.foldl_cons, ih, UInt32.toNat_add, wordOnes, UInt32.toNat_ofNat', List.flatMap_cons,
        List.count_append]
      omega
  rw [totalOnes, summed, UInt32.toNat_zero, Nat.zero_add]

namespace Code
variable {a b c p q : Code} {length : Nat}

/-- How many bits differ over the words that both codes have, however many these are. -/
def gap (a b : Code) : Nat := wordsDistance a.words b.words

theorem gap_self (c : Code) : c.gap c = 0 := wordsDistance_self c.words

theorem length_words (c : Code) : c.words.length = (c.length + 63) / 64 := by
  obtain ⟨length, words, bits, size, same⟩ := c
  subst size same
  exact length_packWords bits

/-- Codes of one length that differ in no bit are equal. -/
theorem eq_of_gap_eq_zero (alike : a.length = b.length) (near : a.gap b = 0) : a = b := by
  have words : a.words = b.words :=
    eq_of_wordsDistance_eq_zero (by rw [length_words, length_words, alike]) near
  cases a
  cases b
  cases alike
  cases words
  rfl

/-- The query may be of any length; the two codes must have the same one. -/
theorem gap_triangle (alike : c.length = p.length) (q : Code) :
    q.gap p ≤ q.gap c + c.gap p :=
  wordsDistance_triangle (by rw [length_words, length_words, alike]) q.words

theorem toNat_hamming (a b : Code) : (a.hamming b).toNat = a.gap b % 2 ^ 32 := by
  rw [hamming, toNat_totalOnes, gap, wordsDistance_eq_count]

end Code
end Retrieval
