import Retrieval.CodeIndex.Ball
import Retrieval.Proofs.Code.Differences
import Retrieval.Proofs.CodeIndex.Nearest
import Retrieval.Proofs.Sorted

/-!
Sound balls: every ball encloses the codes below it. Growing, inserting and removing keep balls
sound and change the codes as they should, whatever the length of the codes. A search sees as many
of them as it should find (`Ball.search_gathered`). That of a sound ball is a scan of its codes,
because a ball it passes over holds nothing near enough; this is where distances have to fit 32 bits
(`Ball.Encloses.lowerBound_le`).
-/
namespace Retrieval

theorem deal_perm (left right : Code) (toLeft toRight : Nat) (codes : List Code) :
    ((deal left right toLeft toRight codes).1 ++
      (deal left right toLeft toRight codes).2).Perm codes := by
  induction codes generalizing toLeft toRight with
  | nil => exact List.Perm.refl _
  | cons code rest ih =>
    unfold deal
    dsimp only
    split
    · exact (ih (toLeft + 1) toRight).cons code
    · exact List.perm_middle.trans ((ih toLeft (toRight + 1)).cons code)

theorem divide_perm (pivot first : Code) (codes : List Code) :
    ((divide pivot first codes).1 ++ (divide pivot first codes).2).Perm codes := by
  have dealt := deal_perm (farthest pivot first codes)
    (farthest (farthest pivot first codes) first codes) 0 0 codes
  unfold divide
  dsimp only
  split
  · rw [List.take_append_drop]
    exact dealt
  · exact dealt

/-- Neither side of a split of two or more codes is empty. -/
theorem divide_ne_nil (pivot first : Code) {codes : List Code} (many : 1 < codes.length) :
    (divide pivot first codes).1 ≠ [] ∧ (divide pivot first codes).2 ≠ [] := by
  have total := (divide_perm pivot first codes).length_eq
  obtain ⟨fewer, fewer'⟩ := length_divide_lt pivot first codes many
  rw [List.length_append] at total
  constructor
  · intro none
    rw [none, List.length_nil] at total
    omega
  · intro none
    rw [none, List.length_nil] at total
    omega

theorem length_majority {codes : List Code} {length : Nat} (some_code : codes ≠ [])
    (alike : ∀ code ∈ codes, code.length = length) : (majority codes).length = length := by
  cases codes with
  | nil => exact absurd rfl some_code
  | cons code rest => simpa [majority] using alike code List.mem_cons_self

theorem le_max_both (a b : UInt32) : a ≤ max a b ∧ b ≤ max a b := by
  show a ≤ (if a ≤ b then b else a) ∧ b ≤ (if a ≤ b then b else a)
  split
  · rename_i below
    exact ⟨below, UInt32.le_refl b⟩
  · rename_i above
    exact ⟨UInt32.le_refl a, UInt32.le_of_lt (UInt32.not_le.mp above)⟩

theorem le_foldl_max (sizes : List UInt32) (start : UInt32) :
    start ≤ sizes.foldl max start ∧ ∀ size ∈ sizes, size ≤ sizes.foldl max start := by
  induction sizes generalizing start with
  | nil => exact ⟨UInt32.le_refl start, nofun⟩
  | cons size rest ih =>
    obtain ⟨above, covers⟩ := ih (max start size)
    obtain ⟨first, second⟩ := le_max_both start size
    rw [List.foldl_cons]
    refine ⟨UInt32.le_trans first above, ?_⟩
    intro other member
    rcases List.mem_cons.mp member with rfl | later
    · exact UInt32.le_trans second above
    · exact covers other later

/-- No code is farther from the majority of codes than these reach. -/
theorem hamming_le_reach {codes : List Code} {code : Code} (member : code ∈ codes) :
    code.hamming (majority codes) ≤ reach codes :=
  (le_foldl_max _ 0).2 _ (List.mem_map.mpr ⟨code, member, rfl⟩)

namespace Ball

/-- The pivot and the codes of a ball have one length, and the codes lie within its radius. -/
structure Encloses (b : Ball) (length : Nat) : Prop where
  pivot_length : b.pivot.length = length
  code_length : ∀ code ∈ b.codes, code.length = length
  within : ∀ code ∈ b.codes, code.hamming b.pivot ≤ b.radius

/-- The ball and all balls below it enclose their codes, and no leaf is empty. -/
def Sound (length : Nat) : Ball → Prop
  | leaf pivot radius codes => (leaf pivot radius codes).Encloses length ∧ codes ≠ []
  | node pivot radius left right =>
    (node pivot radius left right).Encloses length ∧ left.Sound length ∧ right.Sound length

variable {length : Nat} {b : Ball} {query code : Code} {k : Nat} {best : List Hit}

theorem Sound.encloses (sound : b.Sound length) : b.Encloses length := by
  cases b with
  | leaf pivot radius codes => exact sound.1
  | node pivot radius left right => exact sound.1

theorem Sound.codes_ne_nil (sound : b.Sound length) : b.codes ≠ [] := by
  induction b with
  | leaf pivot radius codes => exact sound.2
  | node pivot radius left right ihLeft ihRight =>
    exact fun none => ihLeft sound.2.1 (List.append_eq_nil_iff.mp none).1

theorem codes_eq_nil_of_isEmpty (empty : b.isEmpty = true) : b.codes = [] := by
  cases b with
  | leaf pivot radius codes => exact List.isEmpty_iff.mp empty
  | node pivot radius left right => cases empty

/-- The bound by which balls are passed over is one for every code below, as long as 32 bits are
enough for the distances. -/
theorem Encloses.lowerBound_le (encloses : b.Encloses length) (fits : query.ExactFor length)
    (member : code ∈ b.codes) : b.lowerBound query ≤ query.hamming code := by
  have sized := encloses.code_length code member
  have alike : code.length = b.pivot.length := by rw [sized, encloses.pivot_length]
  have through := Code.gap_triangle alike query
  have near := UInt32.le_iff_toNat_le.mp (encloses.within code member)
  rw [Code.toNat_hamming_of_lt alike (sized ▸ fits.1)] at near
  have far := fits.toNat_hamming encloses.pivot_length
  have here := fits.toNat_hamming sized
  simp only [lowerBound]
  split
  · exact UInt32.zero_le
  · rename_i beyond
    have beyond := UInt32.le_of_lt (UInt32.not_le.mp beyond)
    rw [UInt32.le_iff_toNat_le, UInt32.toNat_sub_of_le _ _ beyond]
    omega

/-! Growing -/

/-- The sides that codes are divided into. -/
def sides (codes : List Code) : List Code × List Code :=
  divide (majority codes) (codes.headD (majority codes)) codes

theorem grow_eq (leafSize : Nat) (codes : List Code) :
    grow leafSize codes =
      if codes.length ≤ leafSize ∨ reach codes = 0 then leaf (majority codes) (reach codes) codes
      else node (majority codes) (reach codes) (grow leafSize (sides codes).1)
        (grow leafSize (sides codes).2) := by
  rw [grow]
  rfl

theorem grow_perm (leafSize : Nat) (codes : List Code) :
    (grow leafSize codes).codes.Perm codes := by
  induction size : codes.length using Nat.strongRecOn generalizing codes with
  | ind size ih =>
    rw [grow]
    dsimp only
    split
    · exact List.Perm.refl _
    · rename_i large
      have many := one_lt_length_of_reach (not_or.mp large).2
      obtain ⟨fewer, fewer'⟩ :=
        length_divide_lt (majority codes) (codes.headD (majority codes)) codes many
      have left :=
        ih _ (by omega) (divide (majority codes) (codes.headD (majority codes)) codes).1 rfl
      have right :=
        ih _ (by omega) (divide (majority codes) (codes.headD (majority codes)) codes).2 rfl
      exact (left.append right).trans (divide_perm _ _ codes)

private theorem encloses_majority {codes : List Code} (some_code : codes ≠ [])
    (alike : ∀ code ∈ codes, code.length = length) {b : Ball} (pivot : b.pivot = majority codes)
    (radius : b.radius = reach codes) (same : b.codes.Perm codes) : b.Encloses length where
  pivot_length := by rw [pivot, length_majority some_code alike]
  code_length code member := alike code (same.subset member)
  within code member := by
    rw [pivot, radius]
    exact hamming_le_reach (same.subset member)

theorem grow_sound (leafSize : Nat) {codes : List Code} (some_code : codes ≠ [])
    (alike : ∀ code ∈ codes, code.length = length) : (grow leafSize codes).Sound length := by
  induction size : codes.length using Nat.strongRecOn generalizing codes with
  | ind size ih =>
    have same := grow_perm leafSize codes
    rw [grow] at same ⊢
    dsimp only at same ⊢
    split at same <;> rename_i shape
    · simp only [shape, ↓reduceIte]
      exact ⟨encloses_majority some_code alike rfl rfl same, some_code⟩
    · simp only [shape, ↓reduceIte]
      have many := one_lt_length_of_reach (not_or.mp shape).2
      obtain ⟨fewer, fewer'⟩ :=
        length_divide_lt (majority codes) (codes.headD (majority codes)) codes many
      obtain ⟨some_left, some_right⟩ :=
        divide_ne_nil (majority codes) (codes.headD (majority codes)) many
      have parts := divide_perm (majority codes) (codes.headD (majority codes)) codes
      refine ⟨encloses_majority some_code alike rfl rfl same, ?_, ?_⟩
      · refine ih _ (by omega) some_left ?_ rfl
        exact fun code member => alike code (parts.subset (List.mem_append_left _ member))
      · refine ih _ (by omega) some_right ?_ rfl
        exact fun code member => alike code (parts.subset (List.mem_append_right _ member))

/-! Inserting -/

theorem insert_perm (leafSize : Nat) (code : Code) (b : Ball) :
    (b.insert leafSize code).codes.Perm (code :: b.codes) := by
  induction b with
  | leaf pivot radius codes =>
    have held : (codes ++ [code]).Perm (code :: codes) := List.perm_append_singleton code codes
    unfold insert
    dsimp only
    split
    · exact ((grow_perm leafSize _).trans (List.mergeSort_perm _ _)).trans held
    · split
      · exact held
      · exact held
  | node pivot radius left right ihLeft ihRight =>
    unfold insert
    dsimp only
    split
    · exact ihLeft.append_right right.codes
    · exact (ihRight.append_left left.codes).trans List.perm_middle

/-- A ball whose radius is widened to reach a new code encloses it as well. -/
theorem Encloses.widen (encloses : b.Encloses length) (alike : code.length = length) {wider : Ball}
    (pivot : wider.pivot = b.pivot) (radius : wider.radius = max b.radius (code.hamming b.pivot))
    (codes : wider.codes ⊆ code :: b.codes) : wider.Encloses length where
  pivot_length := by rw [pivot, encloses.pivot_length]
  code_length other member := by
    rcases List.mem_cons.mp (codes member) with rfl | old
    · exact alike
    · exact encloses.code_length other old
  within other member := by
    rw [pivot, radius]
    rcases List.mem_cons.mp (codes member) with rfl | old
    · exact (le_max_both _ _).2
    · exact UInt32.le_trans (encloses.within other old) (le_max_both _ _).1

theorem insert_sound (leafSize : Nat) (sound : b.Sound length) (alike : code.length = length) :
    (b.insert leafSize code).Sound length := by
  induction b with
  | leaf pivot radius codes =>
    unfold insert
    dsimp only
    split
    · have listed : ((codes ++ [code]).mergeSort fun a b => (compare a b).isLE).Perm
          (codes ++ [code]) := List.mergeSort_perm _ _
      apply grow_sound
      · intro none
        rw [none] at listed
        simpa using listed.nil_eq
      · intro x member
        rcases List.mem_append.mp (listed.subset member) with old | new
        · exact sound.1.code_length x old
        · rw [List.mem_singleton.mp new, alike]
    · split
      · rename_i none
        exact absurd (List.isEmpty_iff.mp none) sound.2
      · exact ⟨sound.1.widen alike rfl rfl (List.perm_append_singleton code codes).subset, by simp⟩
  | node pivot radius left right ihLeft ihRight =>
    have grown := insert_perm leafSize code (node pivot radius left right)
    obtain ⟨encloses, soundLeft, soundRight⟩ := sound
    unfold insert at grown ⊢
    dsimp only at grown ⊢
    split at grown <;> rename_i side
    · simp only [side, ↓reduceIte]
      exact ⟨encloses.widen alike rfl rfl grown.subset, ihLeft soundLeft, soundRight⟩
    · simp only [side, ↓reduceIte]
      exact ⟨encloses.widen alike rfl rfl grown.subset, soundLeft, ihRight soundRight⟩

/-! Removing -/

theorem join_codes (pivot : Code) (radius : UInt32) (left right : Ball) :
    (join pivot radius left right).codes = left.codes ++ right.codes := by
  unfold join
  split
  · rename_i empty
    rw [codes_eq_nil_of_isEmpty empty, List.nil_append]
  · split
    · rename_i empty
      rw [codes_eq_nil_of_isEmpty empty, List.append_nil]
    · rfl

/-- A removal takes exactly the code out. -/
theorem remove_perm {rest : Ball} (removed : b.remove code = some rest) :
    (code :: rest.codes).Perm b.codes := by
  induction b generalizing rest with
  | leaf pivot radius codes =>
    unfold remove at removed
    split at removed
    · cases removed
    · split at removed
      · rename_i member
        cases removed
        exact (List.perm_cons_erase member).symm
      · cases removed
  | node pivot radius left right ihLeft ihRight =>
    unfold remove at removed
    split at removed
    · cases removed
    · split at removed
      · rename_i left' fromLeft
        cases removed
        rw [join_codes]
        exact (ihLeft fromLeft).append_right right.codes
      · obtain ⟨right', fromRight, rfl⟩ := Option.map_eq_some_iff.mp removed
        rw [join_codes]
        exact List.perm_middle.symm.trans ((ihRight fromRight).append_left left.codes)

/-- A sound ball gives up every code it holds: none is behind a radius that is too small. -/
theorem exists_remove (sound : b.Sound length) (member : code ∈ b.codes) :
    ∃ rest, b.remove code = some rest := by
  have near := UInt32.not_lt.mpr (sound.encloses.within code member)
  induction b with
  | leaf pivot radius held =>
    simp only [Ball.pivot, Ball.radius] at near
    have member : code ∈ held := member
    exact ⟨_, by simp only [remove, near, member, ↓reduceIte]; rfl⟩
  | node pivot radius left right ihLeft ihRight =>
    simp only [Ball.pivot, Ball.radius] at near
    obtain ⟨_, soundLeft, soundRight⟩ := sound
    cases fromLeft : left.remove code with
    | some left' => exact ⟨_, by simp only [remove, near, fromLeft, ↓reduceIte]; rfl⟩
    | none =>
      rcases List.mem_append.mp member with inLeft | inRight
      · obtain ⟨rest, found⟩ :=
          ihLeft soundLeft inLeft (UInt32.not_lt.mpr (soundLeft.encloses.within code inLeft))
        rw [fromLeft] at found
        cases found
      · obtain ⟨rest, found⟩ :=
          ihRight soundRight inRight (UInt32.not_lt.mpr (soundRight.encloses.within code inRight))
        exact ⟨_, by simp only [remove, near, fromLeft, found, ↓reduceIte]; rfl⟩

/-- A ball that keeps its pivot and its radius and only loses codes still encloses them. -/
theorem Encloses.thin (encloses : b.Encloses length) {fewer : Ball} (pivot : fewer.pivot = b.pivot)
    (radius : fewer.radius = b.radius) (codes : fewer.codes ⊆ b.codes) : fewer.Encloses length where
  pivot_length := by rw [pivot, encloses.pivot_length]
  code_length other member := encloses.code_length other (codes member)
  within other member := by
    rw [pivot, radius]
    exact encloses.within other (codes member)

private theorem join_sound {pivot : Code} {radius : UInt32} {left right : Ball}
    (encloses : (node pivot radius left right).Encloses length)
    (soundLeft : left.isEmpty = false → left.Sound length)
    (soundRight : right.isEmpty = false → right.Sound length)
    (held : (join pivot radius left right).isEmpty = false) :
    (join pivot radius left right).Sound length := by
  unfold join at held ⊢
  split
  · rename_i emptyLeft
    rw [if_pos emptyLeft] at held
    exact soundRight held
  · rename_i someLeft
    rw [if_neg someLeft] at held
    split
    · exact soundLeft (by simpa using someLeft)
    · rename_i someRight
      exact ⟨encloses, soundLeft (by simpa using someLeft), soundRight (by simpa using someRight)⟩

/-- What a removal leaves is sound, unless the ball was a leaf that is now empty. -/
theorem remove_sound {rest : Ball} (sound : b.Sound length) (removed : b.remove code = some rest)
    (held : rest.isEmpty = false) : rest.Sound length := by
  induction b generalizing rest with
  | leaf pivot radius codes =>
    unfold remove at removed
    split at removed
    · cases removed
    · split at removed
      · cases removed
        refine ⟨sound.1.thin rfl rfl List.erase_subset, ?_⟩
        simpa [isEmpty] using held
      · cases removed
  | node pivot radius left right ihLeft ihRight =>
    obtain ⟨encloses, soundLeft, soundRight⟩ := sound
    unfold remove at removed
    split at removed
    · cases removed
    · split at removed
      · rename_i left' fromLeft
        cases removed
        have kept := List.Subset.trans (List.subset_cons_self _ _) (remove_perm fromLeft).subset
        refine join_sound (encloses.thin rfl rfl ?_) (ihLeft soundLeft fromLeft)
          (fun _ => soundRight) held
        exact List.append_subset.mpr
          ⟨List.subset_append_of_subset_left _ kept, List.subset_append_right _ _⟩
      · obtain ⟨right', fromRight, rfl⟩ := Option.map_eq_some_iff.mp removed
        have kept := List.Subset.trans (List.subset_cons_self _ _) (remove_perm fromRight).subset
        refine join_sound (encloses.thin rfl rfl ?_) (fun _ => soundLeft)
          (ihRight soundRight fromRight) held
        exact List.append_subset.mpr
          ⟨List.subset_append_left _ _, List.subset_append_of_subset_right _ kept⟩

/-! Searching -/

/-- A ball that a search passes over could not have changed the best hits. -/
theorem Encloses.offerAll_of_hopeless (encloses : b.Encloses length) (fits : query.ExactFor length)
    (hopeless : b.hopeless query k best = true) : offerAll query k best b.codes = best := by
  simp only [Ball.hopeless, Bool.and_eq_true, decide_eq_true_eq, Option.any_eq_true] at hopeless
  obtain ⟨full, worst, last, beyond⟩ := hopeless
  apply offerAll_of_farther full last
  intro code member
  exact UInt32.lt_of_lt_of_le beyond (encloses.lowerBound_le fits member)

/-- A search that passes over a ball has as many hits as it keeps. -/
theorem gathered_of_hopeless {hits : List Hit}
    (hopeless : b.hopeless query k ((sortHits hits).take k) = true) :
    Gathered query k b.codes hits ((sortHits hits).take k) [] where
  part := List.nil_subperm
  enough := by
    simp only [Ball.hopeless, Bool.and_eq_true, decide_eq_true_eq] at hopeless
    have full := hopeless.1
    rw [List.length_take, (sortHits_perm hits).length_eq] at full
    simp only [List.length_nil]
    omega
  best_eq := rfl

/-- Searching any ball gathers the best of its codes that are seen. -/
theorem search_gathered (query : Code) (k : Nat) (b : Ball) (hits : List Hit) :
    ∃ seen, Gathered query k b.codes hits (b.search query k ((sortHits hits).take k)) seen := by
  induction b generalizing hits with
  | leaf pivot radius codes =>
    unfold search
    split
    · exact ⟨[], gathered_of_hopeless ‹_›⟩
    · exact ⟨codes, .all query k codes hits⟩
  | node pivot radius left right ihLeft ihRight =>
    unfold search
    split
    · exact ⟨[], gathered_of_hopeless ‹_›⟩
    · split
      · obtain ⟨seen, first⟩ := ihLeft hits
        obtain ⟨seen', second⟩ := ihRight (seen.map (Hit.of query) ++ hits)
        rw [first.best_eq]
        exact ⟨_, first.append second⟩
      · obtain ⟨seen, first⟩ := ihRight hits
        obtain ⟨seen', second⟩ := ihLeft (seen.map (Hit.of query) ++ hits)
        rw [first.best_eq]
        exact ⟨_, (first.append second).of_perm List.perm_append_comm⟩

/-- Searching a sound ball leaves the best `k` of its codes and of the hits found before. -/
theorem search_take_sortHits (sound : b.Sound length) (fits : query.ExactFor length) (k : Nat)
    (hits : List Hit) : b.search query k ((sortHits hits).take k) =
      (sortHits (b.codes.map (Hit.of query) ++ hits)).take k := by
  induction b generalizing hits with
  | leaf pivot radius codes =>
    rw [← offerAll_take_sortHits]
    unfold search
    split
    · rename_i hopeless
      exact (sound.encloses.offerAll_of_hopeless fits hopeless).symm
    · rfl
  | node pivot radius left right ihLeft ihRight =>
    obtain ⟨encloses, soundLeft, soundRight⟩ := sound
    unfold search
    split
    · rename_i hopeless
      rw [← offerAll_take_sortHits]
      exact (encloses.offerAll_of_hopeless fits hopeless).symm
    · simp only [codes, List.map_append]
      split
      · rw [ihLeft soundLeft, ihRight soundRight, ← List.append_assoc]
        exact congrArg (List.take k) (sortHits_congr (List.perm_append_comm.append_right hits))
      · rw [ihRight soundRight, ihLeft soundLeft, ← List.append_assoc]

/-- Starting with nothing, a search of a sound ball finds the `k` nearest of its codes. -/
theorem search_nil (sound : b.Sound length) (fits : query.ExactFor length) (k : Nat) :
    b.search query k [] = (sortHits (b.codes.map (Hit.of query))).take k := by
  have found := search_take_sortHits sound fits k []
  simpa [sortHits] using found

end Ball
end Retrieval
