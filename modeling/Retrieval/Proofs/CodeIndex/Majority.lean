import Mathlib.Algebra.BigOperators.Group.Finset.Piecewise
import Mathlib.Algebra.GroupWithZero.Nat
import Mathlib.Algebra.Order.BigOperators.Group.Finset
import Retrieval.Proofs.Code.Tails
import Retrieval.Proofs.CodeIndex.Ball

/-!
The majority of codes is as near to all of them together as any code of their length
(`majority_nearest`). The total of its distances can be added up by positions instead of codes, as
long as 32 bits are enough for each of them, and at no position are there more codes against the
majority than for it.
-/
namespace Retrieval
variable {codes : List Code} {length i : Nat}

/-- How far a code is from all codes of a list together. -/
def totalDistance (codes : List Code) (c : Code) : Nat :=
  (codes.map fun code => (code.hamming c).toNat).sum

/-- How many codes of a list have another bit than `b` at a position. -/
def against (codes : List Code) (i : Nat) (b : Bool) : Nat := codes.countP fun code => code.bit i != b

/-! Counting votes -/

/-- One more vote at each position at which the code has its bit set. -/
def countVote (counts : List Nat) (code : Code) : List Nat :=
  counts.mapIdx fun i count => if code.bit i then count + 1 else count

/-- The votes of codes, counted one code after the other. -/
def countVotes (length : Nat) (codes : List Code) : List Nat :=
  codes.foldl countVote (List.replicate length 0)

theorem getElem?_foldl_countVote (counts : List Nat) (codes : List Code) (i : Nat) :
    (codes.foldl countVote counts)[i]? = counts[i]?.map (· + codes.countP (·.bit i)) := by
  induction codes generalizing counts with
  | nil => simp
  | cons code rest ih =>
    rw [List.foldl_cons, ih, countVote, List.getElem?_mapIdx, List.countP_cons]
    cases counts[i]? with
    | none => rfl
    | some count =>
      cases code.bit i with
      | false => simp
      | true =>
        simp only [Option.map_some, ↓reduceIte, Option.some.injEq]
        omega

theorem countVotes_eq (length : Nat) (codes : List Code) :
    countVotes length codes = (List.range length).map fun i => codes.countP (·.bit i) := by
  refine List.ext_getElem? fun i => ?_
  rw [countVotes, getElem?_foldl_countVote, List.getElem?_replicate, List.getElem?_map]
  by_cases inside : i < length
  · simp [inside]
  · simp [inside]

/-- The majority has the bits that more than half of the votes are for. -/
theorem majority_eq_countVotes (codes : List Code) :
    majority codes = .ofBools ((countVotes (codes.head?.elim 0 Code.length) codes).map fun count =>
      codes.length < count * 2) := by
  rw [majority, countVotes_eq, List.map_map]
  simp only [Nat.mul_comm 2]
  rfl

/-! Totals -/

theorem totalDistance_eq_sum {c : Code} (alike : ∀ code ∈ codes, code.length = length)
    (small : length < 2 ^ 32) (fits : c.length = length) :
    totalDistance codes c = ∑ i ∈ Finset.range length, against codes i (c.bit i) := by
  induction codes with
  | nil => simp [totalDistance, against]
  | cons code rest ih =>
    have sized := alike code List.mem_cons_self
    have later := ih fun other member => alike other (List.mem_cons_of_mem _ member)
    have first : (code.hamming c).toNat =
        ∑ i ∈ Finset.range length, if code.bit i != c.bit i then 1 else 0 := by
      rw [Code.toNat_hamming_of_lt (sized.trans fits.symm) (sized ▸ small),
        Code.gap_eq_card (sized.trans fits.symm), sized, Finset.card_filter]
      simp only [bne_iff_ne]
    have parts : totalDistance (code :: rest) c = (code.hamming c).toNat + totalDistance rest c :=
      List.sum_cons
    rw [parts, first, later, ← Finset.sum_add_distrib]
    exact Finset.sum_congr rfl fun i _ => by rw [against, against, List.countP_cons, Nat.add_comm]

theorem against_false (codes : List Code) (i : Nat) :
    against codes i false = codes.countP (·.bit i) := by
  simp [against]

theorem against_true (codes : List Code) (i : Nat) :
    against codes i true = codes.length - codes.countP (·.bit i) := by
  have votes := codes.length_eq_countP_add_countP (·.bit i)
  have others : against codes i true = codes.countP fun code => decide ¬ code.bit i = true :=
    List.countP_congr fun code _ => by cases code.bit i <;> decide
  omega

theorem bit_majority (some_code : codes ≠ []) (alike : ∀ code ∈ codes, code.length = length)
    (inside : i < length) :
    (majority codes).bit i = decide (codes.length < 2 * codes.countP (·.bit i)) := by
  obtain ⟨first, rest, rfl⟩ := List.exists_cons_of_ne_nil some_code
  have sized := alike first List.mem_cons_self
  rw [majority, Code.bit_ofBools, List.head?_cons, Option.elim_some, sized]
  simp [List.getD_eq_getElem?_getD, inside]

/-- Whether more than half of the triples have the bit that `part` takes out of them. -/
def carried (votes : List (Bool × Bool × Bool)) (part : Bool × Bool × Bool → Bool) : Bool :=
  votes.length < 2 * votes.countP part

/-- Codes with tails of one length elect another one. -/
theorem majority_tailed (n : Nat) (votes : List (Bool × Bool × Bool)) (some_vote : votes ≠ []) :
    majority (votes.map (Code.tailed n)) =
      .tailed n (carried votes (·.1), carried votes (·.2.1), carried votes (·.2.2)) := by
  have some_code : votes.map (Code.tailed n) ≠ [] := mt List.map_eq_nil_iff.mp some_vote
  have alike : ∀ code ∈ votes.map (Code.tailed n), code.length = n + 2 :=
    List.forall_mem_map.mpr fun v _ => Code.length_tailed n v
  have voted {i : Nat} {part : Bool × Bool × Bool → Bool} (inside : i < n + 2)
      (told : ∀ v, (Code.tailed n v).bit i = part v) :
      (majority (votes.map (Code.tailed n))).bit i = carried votes part := by
    rw [bit_majority some_code alike inside, List.countP_map, carried, List.length_map]
    simp only [Function.comp_def, told]
  refine Code.eq_tailed (length_majority some_code alike) ?_ ?_ fun i inside => ?_
  · exact voted (by omega) (Code.bit_tailed_zero n)
  · exact voted (by omega) (Code.bit_tailed_one n)
  · exact voted (by omega) fun v => Code.bit_tailed_add v inside

/-- At no position are more codes against the majority than against the other bit, and as many only
where it is a tie. -/
theorem against_majority (some_code : codes ≠ []) (alike : ∀ code ∈ codes, code.length = length)
    (inside : i < length) (b : Bool) :
    against codes i ((majority codes).bit i) ≤ against codes i b ∧
      (against codes i ((majority codes).bit i) = against codes i b ↔
        b = (majority codes).bit i ∨ 2 * codes.countP (·.bit i) = codes.length) := by
  have votes : codes.countP (·.bit i) ≤ codes.length := List.countP_le_length
  rw [bit_majority some_code alike inside]
  by_cases more : codes.length < 2 * codes.countP (·.bit i)
  · rw [decide_eq_true more]
    cases b with
    | false =>
      simp only [against_true, against_false, Bool.false_eq_true, false_or]
      omega
    | true => simp
  · rw [decide_eq_false more]
    cases b with
    | false => simp
    | true =>
      simp only [against_true, against_false, Bool.true_eq_false, false_or]
      omega

/-- The majority of codes of one length has this length and the bits that more than half of them
vote for. No code of the length is nearer to all of them together, as long as 32 bits are enough to
count positions; one that is as near differs from it only where the vote is a tie. -/
theorem majority_nearest (some_code : codes ≠ [])
    (alike : ∀ code ∈ codes, code.length = length) :
    (majority codes).length = length ∧
      (majority codes = .ofBools ((countVotes length codes).map fun count =>
        codes.length < count * 2)) ∧
      (length < 2 ^ 32 → ∀ c : Code, c.length = length →
        totalDistance codes (majority codes) ≤ totalDistance codes c ∧
        (totalDistance codes (majority codes) = totalDistance codes c ↔ ∀ i < length,
          c.bit i = (majority codes).bit i ∨ 2 * codes.countP (·.bit i) = codes.length)) := by
  have sized := length_majority some_code alike
  refine ⟨sized, ?_, fun small c fits => ?_⟩
  · obtain ⟨first, rest, rfl⟩ := List.exists_cons_of_ne_nil some_code
    rw [majority_eq_countVotes, List.head?_cons, Option.elim_some, alike first List.mem_cons_self]
  · rw [totalDistance_eq_sum alike small sized, totalDistance_eq_sum alike small fits]
    have fewer : ∀ i ∈ Finset.range length,
        against codes i ((majority codes).bit i) ≤ against codes i (c.bit i) := fun i member =>
      (against_majority some_code alike (Finset.mem_range.mp member) (c.bit i)).1
    refine ⟨Finset.sum_le_sum fewer, (Finset.sum_eq_sum_iff_of_le fewer).trans ?_⟩
    refine forall_congr' fun i => ?_
    rw [Finset.mem_range]
    exact forall_congr' fun inside => (against_majority some_code alike inside (c.bit i)).2

/-- Two codes whose first bits are a tie: the bit is clear, and to set it is as near. -/
theorem majority_nearest_tie :
    let codes : List Code := [.ofBools [true, false], .ofBools [false, false]]
    let c : Code := .ofBools [true, false]
    (codes ≠ [] ∧ ∀ code ∈ codes, code.length = 2) ∧ 2 < 2 ^ 32 ∧ c.length = 2 ∧
      (majority codes).length = 2 ∧ totalDistance codes (majority codes) ≤ totalDistance codes c ∧
      totalDistance codes (majority codes) = totalDistance codes c := by
  intro codes c
  have alike : ∀ code ∈ codes, code.length = 2 := by decide
  obtain ⟨sized, _, near⟩ := majority_nearest (List.cons_ne_nil _ _) alike
  have small : 2 < 2 ^ 32 := by decide
  obtain ⟨least, ties⟩ := near small c rfl
  exact ⟨⟨List.cons_ne_nil _ _, alike⟩, small, rfl, sized, least, ties.mpr (by decide +kernel)⟩

/-- Two equal codes and one that differs from them in all bits but the first, with `2 ^ 32` bits
each. The majority is the code that there are two of, but the complement of the third one is at
distances of one, one and none. -/
theorem not_majority_nearest_of_long :
    ¬ ∀ (codes : List Code) (length : Nat), codes ≠ [] → (∀ code ∈ codes, code.length = length) →
      (majority codes).length = length ∧ ∀ c : Code, c.length = length →
        totalDistance codes (majority codes) ≤ totalDistance codes c := by
  intro nearest
  obtain ⟨n, whole⟩ : ∃ n, n + 2 = 2 ^ 32 := ⟨2 ^ 32 - 2, rfl⟩
  have some_vote : [(false, false, false), (false, false, false), (false, true, true)] ≠ [] :=
    List.cons_ne_nil _ _
  have elected := majority_tailed n _ some_vote
  obtain ⟨_, least⟩ := nearest _ (n + 2) (mt List.map_eq_nil_iff.mp some_vote)
    (List.forall_mem_map.mpr fun v _ => Code.length_tailed n v)
  have nearer := least (.tailed n (true, false, false)) (Code.length_tailed n _)
  rw [elected] at nearer
  simp only [totalDistance, List.map_cons, List.map_nil, Code.hamming_tailed whole] at nearer
  exact absurd nearer (by decide)

end Retrieval
