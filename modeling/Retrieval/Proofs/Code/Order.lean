import Mathlib.Algebra.Group.Nat.Defs
import Retrieval.CodeIndex.Nearest
import Retrieval.Proofs.Code.Packing
import Retrieval.Proofs.Sorted

/-!
The order of codes is that of their bit strings: shorter ones come first, and those of one length
are ordered lexically (`Code.compare_eq`). The first bit of a word is its highest and the bits past
the end of a code are clear, so words compare as their bits do.
-/
namespace Retrieval

/-! Lists of one length are compared piece by piece -/

theorem compare_append {α : Type} [Ord α] {a b : List α} (sized : a.length = b.length)
    (x y : List α) : compare (a ++ x) (b ++ y) = (compare a b).then (compare x y) := by
  induction a generalizing b with
  | nil =>
    cases b with
    | nil => rfl
    | cons head rest => cases sized
  | cons head rest ih =>
    cases b with
    | nil => cases sized
    | cons head' rest' =>
      have later := ih (Nat.succ.inj sized)
      rw [List.cons_append, List.cons_append, List.compare_cons_cons, List.compare_cons_cons, later,
        Ordering.then_assoc]

/-! Words compare as their bits -/

/-- A number is compared by its high part first. -/
theorem compare_add_mul {m a b : Nat} (low : a < m) (low' : b < m) (p q : Nat) :
    compare (a + m * p) (b + m * q) = (compare p q).then (compare a b) := by
  rcases Nat.lt_trichotomy p q with less | rfl | more
  · have high : m * (p + 1) ≤ m * q := Nat.mul_le_mul_left m less
    rw [Nat.mul_succ] at high
    rw [Nat.compare_eq_lt.mpr less, Nat.compare_eq_lt.mpr (by omega)]
    rfl
  · have same : compare p p = .eq := Nat.compare_eq_eq.mpr rfl
    rw [same, Ordering.eq_then, Nat.compare_eq_ite_lt, Nat.compare_eq_ite_lt]
    simp only [Nat.add_lt_add_iff_right]
  · have high : m * (q + 1) ≤ m * p := Nat.mul_le_mul_left m more
    rw [Nat.mul_succ] at high
    rw [Nat.compare_eq_gt.mpr more, Nat.compare_eq_gt.mpr (by omega)]
    rfl

/-- The last `n` bits of a number, highest first. -/
def lastBits (x : Nat) : Nat → List Bool
  | 0 => []
  | n + 1 => x.testBit n :: lastBits x n

theorem lastBits_eq (x n : Nat) :
    lastBits x n = (List.range n).map fun i => x.testBit (n - 1 - i) := by
  induction n with
  | zero => rfl
  | succ n ih =>
    have later : ((fun i => x.testBit (n + 1 - 1 - i)) ∘ Nat.succ) =
        fun i => x.testBit (n - 1 - i) := by
      funext i
      have place : n + 1 - 1 - (i + 1) = n - 1 - i := by omega
      simp only [Function.comp_apply, Nat.succ_eq_add_one, place]
    rw [lastBits, ih, List.range_succ_eq_map, List.map_cons, List.map_map, later]
    rfl

theorem compare_lastBits (x y n : Nat) :
    compare (x % 2 ^ n) (y % 2 ^ n) = compare (lastBits x n) (lastBits y n) := by
  induction n with
  | zero => simp [lastBits, Nat.mod_one]
  | succ n ih =>
    have positive : 0 < 2 ^ n := Nat.two_pow_pos n
    have digit : ∀ p < 2, ∀ q < 2, compare p q = compare (decide (p = 1)) (decide (q = 1)) := by
      decide
    have head : compare (x / 2 ^ n % 2) (y / 2 ^ n % 2) = compare (x.testBit n) (y.testBit n) := by
      rw [Nat.testBit_eq_decide_div_mod_eq, Nat.testBit_eq_decide_div_mod_eq]
      exact digit _ (Nat.mod_lt _ (by decide)) _ (Nat.mod_lt _ (by decide))
    rw [Nat.mod_pow_succ, Nat.mod_pow_succ,
      compare_add_mul (Nat.mod_lt x positive) (Nat.mod_lt y positive), head, ih, lastBits, lastBits,
      List.compare_cons_cons]

theorem wordBits_eq (w : UInt64) : wordBits w = lastBits w.toNat 64 := by
  rw [lastBits_eq]
  refine List.map_congr_left fun i member => ?_
  have inside := List.mem_range.mp member
  rw [BitVec.getMsbD_eq_getLsbD]
  simp [inside, BitVec.getLsbD]

/-- The first bit of a word counts most. -/
theorem compare_wordBits (v w : UInt64) : compare v w = compare (wordBits v) (wordBits w) := by
  have numbers : compare v w = compare v.toNat w.toNat := by
    show compareOfLessAndEq v w = compareOfLessAndEq v.toNat w.toNat
    simp only [compareOfLessAndEq, UInt64.lt_iff_toNat_lt, UInt64.toNat_inj]
  have small := compare_lastBits v.toNat w.toNat 64
  rw [Nat.mod_eq_of_lt v.toNat_lt, Nat.mod_eq_of_lt w.toNat_lt] at small
  rw [numbers, small, wordBits_eq, wordBits_eq]

theorem compare_flatMap {vs ws : List UInt64} (sized : vs.length = ws.length) :
    compare vs ws = compare (vs.flatMap wordBits) (ws.flatMap wordBits) := by
  induction vs generalizing ws with
  | nil =>
    cases ws with
    | nil => rfl
    | cons w ws => cases sized
  | cons v vs ih =>
    cases ws with
    | nil => cases sized
    | cons w ws =>
      rw [List.compare_cons_cons, ih (Nat.succ.inj sized), List.flatMap_cons, List.flatMap_cons,
        compare_append (by simp), compare_wordBits]

theorem compare_bits_eq_lt {a b : List Bool} : compare a b = .lt ↔ a < b := by
  induction a generalizing b with
  | nil => cases b <;> simp
  | cons head rest ih =>
    cases b with
    | nil => simp
    | cons head' rest' =>
      have heads : compare head head' = .lt ↔ head < head' := by
        cases head <;> cases head' <;> decide
      simp [List.compare_cons_cons, Ordering.then_eq_lt, heads, ih, List.cons_lt_cons_iff]

/-- A bit string is before another one: it is shorter, or as long and lexically smaller. -/
def Precedes (a b : List Bool) : Prop := a.length < b.length ∨ a.length = b.length ∧ a < b

namespace Code

/-- Codes are compared by their lengths and then by their bits. -/
theorem compare_eq (a b : Code) :
    compare a b = (compare a.length b.length).then (compare a.toBools b.toBools) := by
  show (compare a.length b.length).then (compare a.words b.words) = _
  cases lengths : compare a.length b.length with
  | lt => rfl
  | gt => rfl
  | eq =>
    have alike : a.length = b.length := Nat.compare_eq_eq.mp lengths
    have sized : a.words.length = b.words.length := by rw [length_words, length_words, alike]
    show compare a.words b.words = compare a.toBools b.toBools
    rw [compare_flatMap sized, flatMap_wordBits_words, flatMap_wordBits_words,
      compare_append (by simp [alike]), sized, alike]
    simp

theorem compare_eq_lt (a b : Code) : compare a b = .lt ↔ Precedes a.toBools b.toBools := by
  rw [compare_eq, Ordering.then_eq_lt, compare_bits_eq_lt, Nat.compare_eq_lt, Nat.compare_eq_eq,
    Precedes, length_toBools, length_toBools]

theorem toBools_inj {a b : Code} : a.toBools = b.toBools ↔ a = b := by
  refine ⟨fun same => ?_, congrArg toBools⟩
  rw [← ofBools_toBools a, same, ofBools_toBools]

/-- Equality and order of codes are those of their bit strings, whatever their lengths; so the
members of a set, the keys of a map and hits at one distance are ordered by their bit strings. Codes
are what comes of clear words by setting bits. -/
theorem order_of_bits :
    (∀ length words, Filled length words ↔ ∃ c : Code, c.length = length ∧ c.words = words) ∧
      (∀ a b : Code, (a = b ↔ a.toBools = b.toBools) ∧
        (compare a b = .eq ↔ a.toBools = b.toBools) ∧
        (compare a b = .lt ↔ Precedes a.toBools b.toBools)) ∧
      (∀ s : SortedSet Code, (s.toList.map toBools).Pairwise Precedes) ∧
      (∀ (ν : Type) (m : SortedMap Code ν), (m.keys.map toBools).Pairwise Precedes ∧
        ∀ a b value, (m.insert a value).get? b =
          if b.toBools = a.toBools then some value else m.get? b) ∧
      ∀ x y : Hit, compare x y = .lt ↔ x.distance < y.distance ∨
        x.distance = y.distance ∧ Precedes x.code.toBools y.code.toBools := by
  have equal (a b : Code) : compare a b = .eq ↔ a.toBools = b.toBools := by
    rw [Std.LawfulEqOrd.compare_eq_iff_eq, toBools_inj]
  have ascending {codes : List Code} (sorted : codes.Pairwise fun a b => compare a b = .lt) :
      (codes.map toBools).Pairwise Precedes :=
    List.pairwise_map.mpr (sorted.imp fun before => (compare_eq_lt _ _).mp before)
  refine ⟨?_, ?_, ?_, ?_, ?_⟩
  · intro length words
    rw [filled_iff]
    constructor
    · rintro ⟨bits, sized, packed⟩
      exact ⟨⟨length, words, bits, sized, packed⟩, rfl, rfl⟩
    · rintro ⟨c, rfl, rfl⟩
      exact c.packed
  · intro a b
    exact ⟨toBools_inj.symm, equal a b, compare_eq_lt a b⟩
  · intro s
    exact ascending s.toList_ascending
  · intro ν m
    refine ⟨ascending m.keys_ascending, fun a b value => ?_⟩
    rw [SortedMap.get?_insert]
    simp only [equal]
  · intro x y
    show (compare x.distance y.distance).then (compare x.code y.code) = .lt ↔ _
    rw [Ordering.then_eq_lt, Std.compare_eq_lt, Std.LawfulEqOrd.compare_eq_iff_eq,
      compare_eq_lt]

end Code
end Retrieval
