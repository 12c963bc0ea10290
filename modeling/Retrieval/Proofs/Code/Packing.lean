import Retrieval.Code.Basic
import Retrieval.Proofs.Hamming

/-!
Codes bit by bit. A bit is tested and set by a mask on the word that has it; packing bits is setting
those that are set one after the other (`fill_eq`), so the words of codes are those that come of
clear words in this way (`filled_iff`).
-/
namespace Retrieval
variable {words other : List UInt64} {length i j : Nat}

/-- The word in which only bit `i` of a code is set. -/
def mask (i : Nat) : UInt64 := 1 <<< UInt64.ofNat (63 - i % 64)

/-- Test a bit; words past the end are clear. -/
def testBit (words : List UInt64) (i : Nat) : Bool := words.getD (i / 64) 0 &&& mask i != 0

/-- Set a bit of the words. -/
def setBit (words : List UInt64) (i : Nat) : List UInt64 := words.modify (i / 64) (· ||| mask i)

/-- As many clear words as a code needs. -/
def clearWords (length : Nat) : List UInt64 := List.replicate ((length + 63) / 64) 0

/-- Go through bits that stand from position `start` on and set those that are set. -/
def setBits (words : List UInt64) (start : Nat) : List Bool → List UInt64
  | [] => words
  | b :: rest => setBits (if b then setBit words start else words) (start + 1) rest

/-- Start with clear words and set the bits that are set. -/
def fill (bits : List Bool) : List UInt64 := setBits (clearWords bits.length) 0 bits

/-- What setting bits of a code, one after the other, makes of its clear words. -/
inductive Filled (length : Nat) : List UInt64 → Prop
  | clear : Filled length (clearWords length)
  | set {words : List UInt64} {i : Nat} (filled : Filled length words) (inside : i < length) :
    Filled length (setBit words i)

/-! Single bits -/

theorem getMsbD_mask (inside : j < 64) : (mask i).toBitVec.getMsbD j = decide (j = i % 64) := by
  have within := Nat.mod_lt i (y := 64) (by decide)
  have place : j + (63 - i % 64) % 64 = 63 ↔ j = i % 64 := by omega
  simp [mask, UInt64.toBitVec_shiftLeft, BitVec.getMsbD_shiftLeft, place]

theorem testBit_eq (words : List UInt64) (i : Nat) :
    testBit words i = (words.getD (i / 64) 0).toBitVec.getMsbD (i % 64) := by
  have within := Nat.mod_lt i (y := 64) (by decide)
  rw [testBit]
  generalize words.getD (i / 64) 0 = word
  have bits (j : Nat) (inside : j < 64) :
      (word &&& mask i).toBitVec.getMsbD j = (word.toBitVec.getMsbD j && decide (j = i % 64)) := by
    rw [UInt64.toBitVec_and, BitVec.getMsbD_and, getMsbD_mask inside]
  cases bit : word.toBitVec.getMsbD (i % 64) with
  | true =>
    refine bne_iff_ne.mpr fun clear => ?_
    have here := bits (i % 64) within
    rw [clear, bit] at here
    simp at here
  | false =>
    have clear : word &&& mask i = 0 := by
      refine UInt64.toBitVec_inj.mp (BitVec.eq_of_getMsbD_eq fun j inside => ?_)
      rw [bits j inside]
      by_cases same : j = i % 64
      · simp [same, bit]
      · simp [same]
    rw [clear]
    rfl

@[simp] theorem length_setBit (words : List UInt64) (i : Nat) :
    (setBit words i).length = words.length := List.length_modify ..

theorem testBit_setBit (inside : i < 64 * words.length) (j : Nat) :
    testBit (setBit words i) j = (decide (j = i) || testBit words j) := by
  have within := Nat.mod_lt j (y := 64) (by decide)
  have held : i / 64 < words.length := by omega
  rw [testBit_eq, testBit_eq, setBit]
  by_cases word : j / 64 = i / 64
  · have same : j % 64 = i % 64 ↔ j = i := by omega
    rw [word]
    simp [List.getD_eq_getElem?_getD, held, getMsbD_mask within, same, Bool.or_comm]
  · have different : j ≠ i := fun same => word (by rw [same])
    simp [List.getD_eq_getElem?_getD, Ne.symm word, different]

/-- As many words with the same bits are the same words. -/
theorem words_ext (sized : words.length = other.length)
    (alike : ∀ i < 64 * words.length, testBit words i = testBit other i) : words = other := by
  refine List.ext_getElem sized fun k inside inside' => ?_
  refine UInt64.toBitVec_inj.mp (BitVec.eq_of_getMsbD_eq fun j within => ?_)
  have here := alike (64 * k + j) (by omega)
  have word : (64 * k + j) / 64 = k := by omega
  have place : (64 * k + j) % 64 = j := by omega
  simpa [testBit_eq, word, place, List.getD_eq_getElem?_getD, inside, inside'] using here

theorem testBit_packWords (bits : List Bool) (i : Nat) :
    testBit (packWords bits) i = bits.getD i false := by
  rw [testBit_eq]
  exact Code.bit_ofBools bits i

/-! Bits one after the other -/

theorem setBit_packWords (bits : List Bool) (inside : i < bits.length) :
    setBit (packWords bits) i = packWords (bits.set i true) := by
  apply words_ext
  · simp
  · intro j _
    have held : i < 64 * (packWords bits).length := by
      rw [length_packWords]
      omega
    rw [testBit_setBit held, testBit_packWords, testBit_packWords, List.getD_eq_getElem?_getD,
      List.getD_eq_getElem?_getD, List.getElem?_set]
    by_cases same : j = i
    · simp [same, inside]
    · simp [same, Ne.symm same]

theorem clearWords_eq (length : Nat) :
    clearWords length = packWords (List.replicate length false) := by
  apply words_ext
  · simp [clearWords]
  · intro i _
    have clear : (clearWords length).getD (i / 64) 0 = 0 := by
      simp only [clearWords, List.getD_eq_getElem?_getD, List.getElem?_replicate]
      split <;> rfl
    rw [testBit_packWords, testBit_eq, clear]
    simp only [List.getD_eq_getElem?_getD, List.getElem?_replicate]
    split <;> simp

/-- The bits in front have been packed already; those behind are still clear. -/
theorem setBits_packWords (front bits : List Bool) :
    setBits (packWords (front ++ List.replicate bits.length false)) front.length bits =
      packWords (front ++ bits) := by
  induction bits generalizing front with
  | nil => rfl
  | cons b rest ih =>
    have step := ih (front ++ [b])
    simp only [List.append_assoc, List.singleton_append, List.length_append, List.length_singleton]
      at step
    rw [setBits, ← step]
    cases b with
    | false => rfl
    | true =>
      rw [if_pos rfl, setBit_packWords]
      · simp [List.replicate_succ]
      · simp

/-- Packing bits sets them one after the other. -/
theorem fill_eq (bits : List Bool) : fill bits = packWords bits := by
  have whole := setBits_packWords [] bits
  rwa [List.nil_append, ← clearWords_eq] at whole

theorem Filled.setBits {start : Nat} {bits : List Bool} (filled : Filled length words)
    (inside : start + bits.length ≤ length) : Filled length (setBits words start bits) := by
  induction bits generalizing words start with
  | nil => exact filled
  | cons b rest ih =>
    rw [List.length_cons] at inside
    cases b with
    | false => exact ih filled (by omega)
    | true => exact ih (filled.set (by omega)) (by omega)

/-- The words of codes are those that come of clear words by setting bits of the code. -/
theorem filled_iff : Filled length words ↔
    ∃ bits : List Bool, bits.length = length ∧ packWords bits = words := by
  constructor
  · intro filled
    induction filled with
    | clear =>
      exact ⟨List.replicate length false, List.length_replicate, (clearWords_eq length).symm⟩
    | @set _ i _ inside ih =>
      obtain ⟨bits, rfl, rfl⟩ := ih
      exact ⟨bits.set i true, List.length_set, (setBit_packWords bits inside).symm⟩
  · rintro ⟨bits, rfl, rfl⟩
    rw [← fill_eq]
    exact Filled.clear.setBits (by omega)

/-! The bits of a code -/

theorem flatMap_wordBits (words : List UInt64) :
    words.flatMap wordBits = (List.range (64 * words.length)).map (testBit words) := by
  induction words with
  | nil => rfl
  | cons word rest ih =>
    have later : (testBit (word :: rest) ∘ fun i => 64 + i) = testBit rest := by
      funext i
      have next : (64 + i) / 64 = i / 64 + 1 := by omega
      have place : (64 + i) % 64 = i % 64 := by omega
      simp only [Function.comp_apply, testBit_eq, next, place, List.getD_cons_succ]
    have first : wordBits word = (List.range 64).map (testBit (word :: rest)) := by
      refine List.map_congr_left fun i member => ?_
      have inside := List.mem_range.mp member
      rw [testBit_eq, Nat.div_eq_of_lt inside, Nat.mod_eq_of_lt inside, List.getD_cons_zero]
    rw [List.flatMap_cons, ih, List.length_cons, Nat.mul_succ, Nat.add_comm (64 * rest.length),
      List.range_add, List.map_append, List.map_map, later, first]

namespace Code

theorem bit_eq (c : Code) (i : Nat) : c.bit i = testBit c.words i := (testBit_eq c.words i).symm

/-- The words have room for the bits. -/
theorem length_le_words (c : Code) : c.length ≤ 64 * c.words.length := by
  rw [length_words]
  omega

/-- Bits past the end of a code are clear. -/
theorem bit_of_le {c : Code} (past : c.length ≤ i) : c.bit i = false := by
  rw [← ofBools_toBools c, bit_ofBools]
  rw [List.getD_eq_getElem?_getD, List.getElem?_eq_none (by rwa [length_toBools])]
  rfl

/-- The bits of the words are those of the code, filled up with clear ones. -/
theorem flatMap_wordBits_words (c : Code) : c.words.flatMap wordBits =
    c.toBools ++ List.replicate (64 * c.words.length - c.length) false := by
  have clear : ((List.range (64 * c.words.length)).map (testBit c.words)).drop c.length =
      List.replicate (64 * c.words.length - c.length) false := by
    apply List.ext_getElem
    · simp
    · intro i _ _
      simp [← bit_eq, bit_of_le (Nat.le_add_right c.length i)]
  rw [← clear, ← flatMap_wordBits, toBools, List.take_append_drop]

end Code
end Retrieval
