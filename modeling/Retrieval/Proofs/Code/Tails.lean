import Retrieval.Proofs.Code.Differences
import Retrieval.Proofs.Code.Order

/-!
Codes of two bits and a tail of equal ones. Three bits tell such codes of one length apart, however
long the tail is. Where it fills the code up to `2 ^ 32` bits, a code and its complement are at no
distance from each other (`Code.hamming_tailed`).
-/
namespace Retrieval.Code
variable {n : Nat}

/-- Two bits, and `n` times a third one. -/
def tailed (n : Nat) : Bool × Bool × Bool → Code
  | (x, y, z) => ofBools (x :: y :: List.replicate n z)

@[simp] theorem length_tailed (n : Nat) (v : Bool × Bool × Bool) : (tailed n v).length = n + 2 := by
  simp [tailed]

@[simp] theorem bit_tailed_zero (n : Nat) (v : Bool × Bool × Bool) : (tailed n v).bit 0 = v.1 := by
  simp [tailed, bit_ofBools]

@[simp] theorem bit_tailed_one (n : Nat) (v : Bool × Bool × Bool) : (tailed n v).bit 1 = v.2.1 := by
  simp [tailed, bit_ofBools]

theorem bit_tailed_add (v : Bool × Bool × Bool) {i : Nat} (inside : i < n) :
    (tailed n v).bit (2 + i) = v.2.2 := by
  rw [Nat.add_comm]
  simp [tailed, bit_ofBools, inside]

/-- The first two bits are read off a code, the third one only if it comes at all. -/
theorem front_eq_of_tailed_eq {v w : Bool × Bool × Bool} (same : tailed n v = tailed n w) :
    v.1 = w.1 ∧ v.2.1 = w.2.1 := by
  rw [← bit_tailed_zero n, ← bit_tailed_one n, same, bit_tailed_zero, bit_tailed_one]
  exact ⟨rfl, rfl⟩

/-- Codes of one length with the same bits are the same. -/
theorem ext_bit {a b : Code} (alike : a.length = b.length)
    (same : ∀ i < a.length, a.bit i = b.bit i) : a = b := by
  rw [← toBools_inj, toBools_eq, toBools_eq, ← alike]
  exact List.map_congr_left fun i member => same i (List.mem_range.mp member)

theorem eq_tailed {c : Code} {v : Bool × Bool × Bool} (sized : c.length = n + 2)
    (first : c.bit 0 = v.1) (second : c.bit 1 = v.2.1) (tail : ∀ i < n, c.bit (2 + i) = v.2.2) :
    c = tailed n v := by
  refine ext_bit (by simp [sized]) fun i inside => ?_
  match i with
  | 0 => simpa using first
  | 1 => simpa using second
  | i + 2 =>
    have within : i < n := by omega
    rw [Nat.add_comm, tail i within, bit_tailed_add v within]

/-- The bits in which two of these codes differ. -/
theorem gap_tailed (n : Nat) (v w : Bool × Bool × Bool) :
    (tailed n v).gap (tailed n w) =
      (v.1 != w.1).toNat + (v.2.1 != w.2.1).toNat + (v.2.2 != w.2.2).toNat * n := by
  rw [gap_eq_card (by simp), length_tailed, ← Nat.count_eq_card_filter_range, Nat.add_comm,
    Nat.count_add]
  have front : Nat.count (fun i => (tailed n v).bit i ≠ (tailed n w).bit i) 2 =
      (v.1 != w.1).toNat + (v.2.1 != w.2.1).toNat := by
    rw [Nat.count_succ, Nat.count_succ, Nat.count_zero]
    simp only [bit_tailed_zero, bit_tailed_one]
    cases v.1 <;> cases w.1 <;> cases v.2.1 <;> cases w.2.1 <;> rfl
  have tail : Nat.count (fun i => (tailed n v).bit (2 + i) ≠ (tailed n w).bit (2 + i)) n =
      (v.2.2 != w.2.2).toNat * n := by
    have told (i : Nat) (inside : i < n) :
        (tailed n v).bit (2 + i) ≠ (tailed n w).bit (2 + i) ↔ v.2.2 ≠ w.2.2 := by
      rw [bit_tailed_add v inside, bit_tailed_add w inside]
    by_cases same : v.2.2 = w.2.2
    · rw [Nat.count_of_forall_not fun i inside => mt (told i inside).mp (not_not.mpr same), same,
        bne_self_eq_false, Bool.toNat_false, Nat.zero_mul]
    · rw [Nat.count_of_forall fun i inside => (told i inside).mpr same, bne_iff_ne.mpr same,
        Bool.toNat_true, Nat.one_mul]
  rw [front, tail]

/-- Distances among these codes when they have `2 ^ 32` bits. -/
theorem hamming_tailed (whole : n + 2 = 2 ^ 32) (v w : Bool × Bool × Bool) :
    (tailed n v).hamming (tailed n w) =
      (if v.1 = w.1 then 0 else 1) + (if v.2.1 = w.2.1 then 0 else 1) +
        if v.2.2 = w.2.2 then 0 else 0xfffffffe := by
  have counted := toNat_hamming (tailed n v) (tailed n w)
  have long : n = 0xfffffffe := by omega
  rw [gap_tailed] at counted
  apply UInt32.toNat_inj.mp
  rw [counted, long]
  clear counted
  obtain ⟨x, y, z⟩ := v
  obtain ⟨x', y', z'⟩ := w
  revert x y z x' y' z'
  decide

/-- A code with its first bit clear comes before one with its first bit set. -/
theorem compare_tailed_first (n : Nat) (v w : Bool × Bool) :
    compare (tailed n (false, v)) (tailed n (true, w)) = .lt := by
  refine (compare_eq_lt _ _).mpr (.inr ⟨by simp [tailed], ?_⟩)
  simp [tailed, List.cons_lt_cons_iff]

theorem compare_tailed_second (n : Nat) (x z z' : Bool) :
    compare (tailed n (x, false, z)) (tailed n (x, true, z')) = .lt := by
  refine (compare_eq_lt _ _).mpr (.inr ⟨by simp [tailed], ?_⟩)
  simp [tailed, List.cons_lt_cons_iff]

end Retrieval.Code
