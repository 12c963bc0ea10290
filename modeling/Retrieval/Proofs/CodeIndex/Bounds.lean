import Retrieval.Proofs.Code.Tails
import Retrieval.Proofs.CodeIndex.Leaves

/-!
Why a search may pass over balls. Distances count differing bits and obey the triangle inequality
towards a query of any length, so no code within the radius of a ball is nearer to the query than
the bound of the ball, wherever in a tree the ball is (`Ball.hamming_bounds`). All this takes
distances that fit 32 bits.
-/
namespace Retrieval

/-- In a sound tree no code is nearer to a query than the bound of a ball that it is in. -/
theorem BallTree.Sound.lowerBound_le {t : BallTree} (sound : t.Sound) {b : Ball}
    (inside : b ∈ t.balls) {query : Code} (fits : ∀ code ∈ t.members, query.ExactFor code.length) :
    ∀ code ∈ b.codes, b.lowerBound query ≤ query.hamming code := by
  have planted := sound.planted
  unfold Planted at planted
  unfold balls at inside
  cases root : t.root with
  | none =>
    rw [root] at inside
    cases inside
  | some ball =>
    rw [root] at planted inside
    obtain ⟨same, length, whole⟩ := planted
    obtain ⟨part, fewer⟩ := whole.of_mem_balls b inside
    intro code member
    have held : code ∈ t.members := SortedSet.mem_toList.mp (same.subset (fewer member))
    refine part.encloses.lowerBound_le ?_ member
    rw [← part.encloses.code_length code member]
    exact fits code held

namespace Ball

/-- The distance of codes of one length is the number of positions at which their bit strings
differ, modulo `2 ^ 32`; for codes of fewer bits it is that number, and only equal codes have none.
As long as 32 bits are enough, the triangle inequality holds from a query of any length to codes of
one length, so that the bound of a ball that encloses its codes is one for each of them, and each
ball of a tree is such a ball whatever calls have been made of the tree. -/
theorem hamming_bounds :
    (∀ a b : Code, a.length = b.length →
      (a.hamming b).toNat = (differences a.toBools b.toBools).card % 2 ^ 32 ∧
        (a.length < 2 ^ 32 → (a.hamming b).toNat = (differences a.toBools b.toBools).card ∧
          (a.hamming b = 0 ↔ a = b))) ∧
    (∀ pivot code query : Code, pivot.length = code.length → query.ExactFor code.length →
      (query.hamming pivot).toNat ≤ (query.hamming code).toNat + (code.hamming pivot).toNat) ∧
    (∀ (b : Ball) (length : Nat), b.Encloses length → ∀ query : Code, query.ExactFor length →
      ∀ code ∈ b.codes, b.lowerBound query ≤ query.hamming code) ∧
    ∀ (leafSize : Nat) (calls : List CodeCall), 1 ≤ leafSize → ∃ start t,
      BallTree.create leafSize = .ok start ∧ ((CodeIndex.tree start).run calls).1 = .tree t ∧
      ∀ b ∈ t.balls, ∀ query : Code, (∀ code ∈ t.members, query.ExactFor code.length) →
        ∀ code ∈ b.codes, b.lowerBound query ≤ query.hamming code := by
  refine ⟨fun a b alike => ⟨?_, fun small => ⟨?_, ?_⟩⟩, fun pivot code query alike fits => ?_,
    fun b length encloses query fits code member => encloses.lowerBound_le fits member, ?_⟩
  · rw [Code.toNat_hamming, Code.gap_eq_card_differences alike]
  · rw [Code.toNat_hamming_of_lt alike small, Code.gap_eq_card_differences alike]
  · exact Code.hamming_eq_zero_iff alike small
  · rw [fits.toNat_hamming alike, fits.toNat_hamming rfl,
      Code.toNat_hamming_of_lt alike.symm fits.1]
    exact Code.gap_triangle alike.symm query
  · intro leafSize calls positive
    have made : BallTree.create leafSize = .ok (.empty leafSize) := if_neg (Nat.ne_of_gt positive)
    have planted : (BallTree.empty leafSize).Kept leafSize :=
      ⟨rfl, BallTree.empty_sound leafSize, fun _ => nofun⟩
    obtain ⟨t, reached, kept⟩ := planted.run positive calls
    exact ⟨_, t, made, reached, fun b inside query fits => kept.sound.lowerBound_le inside fits⟩

/-- A ball around two codes of two bits, and a query of one bit. -/
theorem hamming_bounds_shorter :
    let a : Code := .ofBools [true, false]
    let b : Code := .ofBools [true, true]
    let ball : Ball := .leaf b 1 [a, b]
    let query : Code := .ofBools [false]
    a.length = b.length ∧ a.length < 2 ^ 32 ∧ ball.Encloses 2 ∧ query.ExactFor 2 ∧
      (a.hamming b).toNat = (differences a.toBools b.toBools).card ∧ (a.hamming b = 0 ↔ a = b) ∧
      (query.hamming b).toNat ≤ (query.hamming a).toNat + (a.hamming b).toNat ∧
      ball.lowerBound query ≤ query.hamming a := by
  intro a b ball query
  have encloses : ball.Encloses 2 := ⟨rfl, by decide, by decide +kernel⟩
  have fits : query.ExactFor 2 := Code.exactFor_of_lt (by decide) (by decide)
  obtain ⟨counted, through, bound, _⟩ := hamming_bounds
  obtain ⟨_, small⟩ := counted a b rfl
  obtain ⟨positions, same⟩ := small (by decide)
  exact ⟨rfl, by decide, encloses, fits, positions, same, through b a query rfl fits,
    bound ball 2 encloses query fits a List.mem_cons_self⟩

/-- With `2 ^ 32` bits each, a clear code and its complement are at no distance from each other, and
by way of the complement it is but one bit to a code that differs from the clear one in all others. -/
theorem not_hamming_bounds_of_long :
    (¬ ∀ a b : Code, a.length = b.length →
      (a.hamming b).toNat = (differences a.toBools b.toBools).card ∧ (a.hamming b = 0 ↔ a = b)) ∧
    ¬ ∀ pivot code query : Code, pivot.length = code.length →
      (query.hamming pivot).toNat ≤ (query.hamming code).toNat + (code.hamming pivot).toNat := by
  obtain ⟨n, whole⟩ : ∃ n, n + 2 = 2 ^ 32 := ⟨2 ^ 32 - 2, rfl⟩
  constructor
  · intro counts
    obtain ⟨_, none⟩ := counts (.tailed n (false, false, false)) (.tailed n (true, true, true))
      (by rw [Code.length_tailed, Code.length_tailed])
    have same := none.mp ((Code.hamming_tailed whole _ _).trans (by decide))
    exact absurd (Code.front_eq_of_tailed_eq same).1 (by decide)
  · intro through
    have detour := through (.tailed n (false, true, true)) (.tailed n (true, true, true))
      (.tailed n (false, false, false)) (by rw [Code.length_tailed, Code.length_tailed])
    simp only [Code.hamming_tailed whole] at detour
    revert detour
    decide

end Ball
end Retrieval
