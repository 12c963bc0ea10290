import Mathlib.Data.List.Induction
import Retrieval.Proofs.CodeIndex.Lockstep
import Retrieval.Proofs.Traversal

/-!
The shape of a ball tree. Leaves share out the members, one leaf to a code, and stay small: growing
leaves at most `leafSize` codes in each (`Ball.grow_trim`), and calls in between at most twice as
many (`BallTree.shaped_of_run`). Codes at no distance from each other stay in one leaf, and as long
as 32 bits are enough for the distances these are equal.
-/
namespace Retrieval

namespace Ball

/-- The ball and all balls below it. -/
def balls : Ball → List Ball
  | leaf pivot radius codes => [leaf pivot radius codes]
  | node pivot radius left right => node pivot radius left right :: (left.balls ++ right.balls)

/-- The codes of each leaf, from left to right. -/
def leaves : Ball → List (List Code)
  | leaf _ _ codes => [codes]
  | node _ _ left right => left.leaves ++ right.leaves

/-- No leaf holds more than `most` codes. -/
def Trim (most : Nat) (b : Ball) : Prop := ∀ leaf ∈ b.leaves, leaf.length ≤ most

variable {length most leafSize : Nat} {b : Ball} {code : Code}

theorem flatten_leaves (b : Ball) : b.leaves.flatten = b.codes := by
  induction b with
  | leaf pivot radius codes => exact List.append_nil codes
  | node pivot radius left right ihLeft ihRight =>
    rw [leaves, List.flatten_append, ihLeft, ihRight, codes]

@[simp] theorem trim_leaf {pivot : Code} {radius : UInt32} {codes : List Code} :
    (leaf pivot radius codes).Trim most ↔ codes.length ≤ most := by
  simp [Trim, leaves]

@[simp] theorem trim_node {pivot : Code} {radius : UInt32} {left right : Ball} :
    (node pivot radius left right).Trim most ↔ left.Trim most ∧ right.Trim most := by
  simp only [Trim, leaves, List.mem_append]
  constructor
  · exact fun trim => ⟨fun leaf inside => trim leaf (.inl inside),
      fun leaf inside => trim leaf (.inr inside)⟩
  · rintro ⟨trimLeft, trimRight⟩ leaf (inLeft | inRight)
    · exact trimLeft leaf inLeft
    · exact trimRight leaf inRight

theorem Trim.mono {more : Nat} (trim : b.Trim most) (wider : most ≤ more) : b.Trim more :=
  fun leaf inside => Nat.le_trans (trim leaf inside) wider

theorem Sound.leaf_ne_nil (sound : b.Sound length) : ∀ leaf ∈ b.leaves, leaf ≠ [] := by
  induction b with
  | leaf pivot radius codes =>
    intro leaf inside
    rw [List.mem_singleton.mp inside]
    exact sound.2
  | node pivot radius left right ihLeft ihRight =>
    intro leaf inside
    rcases List.mem_append.mp inside with inLeft | inRight
    · exact ihLeft sound.2.1 leaf inLeft
    · exact ihRight sound.2.2 leaf inRight

theorem Sound.of_mem_balls (sound : b.Sound length) :
    ∀ below ∈ b.balls, below.Sound length ∧ below.codes ⊆ b.codes := by
  induction b with
  | leaf pivot radius codes =>
    intro below inside
    rw [List.mem_singleton.mp inside]
    exact ⟨sound, List.Subset.refl _⟩
  | node pivot radius left right ihLeft ihRight =>
    intro below inside
    rcases List.mem_cons.mp inside with rfl | deeper
    · exact ⟨sound, List.Subset.refl _⟩
    · rcases List.mem_append.mp deeper with inLeft | inRight
      · obtain ⟨part, fewer⟩ := ihLeft sound.2.1 below inLeft
        exact ⟨part, List.subset_append_of_subset_left _ fewer⟩
      · obtain ⟨part, fewer⟩ := ihRight sound.2.2 below inRight
        exact ⟨part, List.subset_append_of_subset_right _ fewer⟩

/-! Growing -/

/-- Growing as a recursion that nothing cuts short: codes that fit a leaf or coincide make one, and
others are divided into two sides that are not empty. -/
inductive Grown (leafSize : Nat) : List Code → Ball → Prop where
  | leaf {codes : List Code} (fits : codes.length ≤ leafSize ∨ reach codes = 0) :
    Grown leafSize codes (leaf (majority codes) (reach codes) codes)
  | node {codes : List Code} {left right : Ball} (large : leafSize < codes.length)
    (spread : reach codes ≠ 0) (some_left : (sides codes).1 ≠ [])
    (some_right : (sides codes).2 ≠ []) (first : Grown leafSize (sides codes).1 left)
    (second : Grown leafSize (sides codes).2 right) :
    Grown leafSize codes (node (majority codes) (reach codes) left right)

theorem grown_grow (leafSize : Nat) (codes : List Code) :
    Grown leafSize codes (grow leafSize codes) := by
  induction size : codes.length using Nat.strongRecOn generalizing codes with
  | ind size ih =>
    rw [grow_eq]
    split
    · rename_i fits
      exact .leaf fits
    · rename_i large
      obtain ⟨large, spread⟩ := not_or.mp large
      have many := one_lt_length_of_reach spread
      obtain ⟨some_left, some_right⟩ :=
        divide_ne_nil (majority codes) (codes.headD (majority codes)) many
      obtain ⟨fewer, fewer'⟩ :=
        length_divide_lt (majority codes) (codes.headD (majority codes)) codes many
      exact .node (Nat.not_le.mp large) spread some_left some_right
        (ih _ (size ▸ fewer) _ rfl) (ih _ (size ▸ fewer') _ rfl)

/-- Growing ends, and with one ball only. -/
theorem grown_iff {codes : List Code} : Grown leafSize codes b ↔ b = grow leafSize codes := by
  constructor
  · intro grown
    induction grown with
    | leaf fits => rw [grow_eq, if_pos fits]
    | node large spread _ _ _ _ ihLeft ihRight =>
      rw [grow_eq, if_neg (not_or.mpr ⟨Nat.not_le.mpr large, spread⟩), ihLeft, ihRight]
  · rintro rfl
    exact grown_grow leafSize codes

/-- Different codes of one length, short enough for 32 bits, cannot all coincide with their
majority. -/
theorem length_le_one_of_reach {codes : List Code} (distinct : codes.Nodup)
    (alike : ∀ code ∈ codes, code.length = length) (small : length < 2 ^ 32)
    (none : reach codes = 0) : codes.length ≤ 1 := by
  have same : ∀ code ∈ codes, code = majority codes := by
    intro code member
    have sized := alike code member
    have near : code.hamming (majority codes) = 0 :=
      UInt32.le_zero_iff.mp (none ▸ hamming_le_reach member)
    refine (Code.hamming_eq_zero_iff ?_ (sized ▸ small)).mp near
    rw [sized, length_majority (List.ne_nil_of_mem member) alike]
  match codes with
  | [] => simp
  | [_] => simp
  | first :: second :: rest =>
    have equal : first = second := (same first (by simp)).trans (same second (by simp)).symm
    exact absurd (by simp [equal]) (List.nodup_cons.mp distinct).1

theorem Grown.trim {codes : List Code} (grown : Grown leafSize codes b) (positive : 0 < leafSize)
    (distinct : codes.Nodup) (alike : ∀ code ∈ codes, code.length = length)
    (small : length < 2 ^ 32) : b.Trim leafSize := by
  induction grown with
  | @leaf codes fits =>
    rw [trim_leaf]
    rcases fits with fits | none
    · exact fits
    · exact Nat.le_trans (length_le_one_of_reach distinct alike small none) positive
  | @node codes left right large spread _ _ _ _ ihLeft ihRight =>
    have parts : ((sides codes).1 ++ (sides codes).2).Perm codes := divide_perm _ _ codes
    obtain ⟨inLeft, inRight, _⟩ := List.nodup_append.mp (parts.nodup_iff.mpr distinct)
    rw [trim_node]
    refine ⟨ihLeft inLeft fun code member => ?_, ihRight inRight fun code member => ?_⟩
    · exact alike code (parts.subset (List.mem_append_left _ member))
    · exact alike code (parts.subset (List.mem_append_right _ member))

theorem grow_trim (positive : 0 < leafSize) {codes : List Code} (distinct : codes.Nodup)
    (alike : ∀ code ∈ codes, code.length = length) (small : length < 2 ^ 32) :
    (grow leafSize codes).Trim leafSize :=
  (grown_grow leafSize codes).trim positive distinct alike small

/-! Inserting and removing -/

theorem capacity_le (leafSize : Nat) : capacity leafSize ≤ 2 * leafSize := Nat.mod_le _ _

theorem insert_trim (positive : 0 < leafSize) (sound : b.Sound length)
    (distinct : (code :: b.codes).Nodup) (alike : code.length = length) (small : length < 2 ^ 32)
    (trim : b.Trim (2 * leafSize)) : (b.insert leafSize code).Trim (2 * leafSize) := by
  induction b with
  | leaf pivot radius codes =>
    simp only [insert]
    split
    · -- An overfull leaf is grown anew, from the same codes in order.
      have listed : ((codes ++ [code]).mergeSort fun a b => (compare a b).isLE).Perm
          (code :: codes) := (List.mergeSort_perm _ _).trans (List.perm_append_singleton code codes)
      refine (grow_trim positive (listed.nodup_iff.mpr distinct) (fun other member => ?_)
        small).mono (by omega)
      rcases List.mem_cons.mp (listed.subset member) with rfl | old
      · exact alike
      · exact sound.encloses.code_length other old
    · rename_i fits
      have room := Nat.le_trans (Nat.not_lt.mp fits) (capacity_le leafSize)
      split
      · exact trim_leaf.mpr room
      · exact trim_leaf.mpr room
  | node pivot radius left right ihLeft ihRight =>
    obtain ⟨_, soundLeft, soundRight⟩ := sound
    obtain ⟨trimLeft, trimRight⟩ := trim_node.mp trim
    have inLeft : (code :: left.codes).Sublist (code :: (left.codes ++ right.codes)) :=
      (List.sublist_append_left _ _).cons_cons code
    have inRight : (code :: right.codes).Sublist (code :: (left.codes ++ right.codes)) :=
      (List.sublist_append_right _ _).cons_cons code
    simp only [insert]
    split
    · exact trim_node.mpr ⟨ihLeft soundLeft (inLeft.nodup distinct) trimLeft, trimRight⟩
    · exact trim_node.mpr ⟨trimLeft, ihRight soundRight (inRight.nodup distinct) trimRight⟩

theorem join_trim {pivot : Code} {radius : UInt32} {left right : Ball} (trimLeft : left.Trim most)
    (trimRight : right.Trim most) : (join pivot radius left right).Trim most := by
  unfold join
  split
  · exact trimRight
  · split
    · exact trimLeft
    · exact trim_node.mpr ⟨trimLeft, trimRight⟩

theorem remove_trim {rest : Ball} (trim : b.Trim most) (removed : b.remove code = some rest) :
    rest.Trim most := by
  induction b generalizing rest with
  | leaf pivot radius codes =>
    unfold remove at removed
    split at removed
    · cases removed
    · split at removed
      · cases removed
        exact trim_leaf.mpr (Nat.le_trans List.length_erase_le (trim_leaf.mp trim))
      · cases removed
  | node pivot radius left right ihLeft ihRight =>
    obtain ⟨trimLeft, trimRight⟩ := trim_node.mp trim
    unfold remove at removed
    split at removed
    · cases removed
    · split at removed
      · rename_i left' fromLeft
        cases removed
        exact join_trim (ihLeft trimLeft fromLeft) trimRight
      · obtain ⟨right', fromRight, rfl⟩ := Option.map_eq_some_iff.mp removed
        exact join_trim trimLeft (ihRight trimRight fromRight)

end Ball

namespace BallTree
variable {t : BallTree} {code : Code} {most : Nat}

def balls (t : BallTree) : List Ball := t.root.elim [] Ball.balls

def leaves (t : BallTree) : List (List Code) := t.root.elim [] Ball.leaves

/-- No leaf of the tree holds more than `most` codes. -/
def Trim (most : Nat) (t : BallTree) : Prop := ∀ root ∈ t.root, root.Trim most

/-- The members are short enough for 32 bits to hold distances among them. -/
def Short (t : BallTree) : Prop := ∀ code ∈ t.members, code.length < 2 ^ 32

/-- What can be told from the balls of a tree, if leaves of short codes hold at most `most`. -/
structure Shaped (t : BallTree) (most : Nat) : Prop where
  rooted : t.root = none ↔ ∀ code, code ∉ t.members
  /-- A member is in one leaf, once; no other code is in any. -/
  once : ∀ code, t.leaves.flatten.count code = if code ∈ t.members then 1 else 0
  filled : ∀ leaf ∈ t.leaves, 1 ≤ leaf.length
  small : t.Short → ∀ leaf ∈ t.leaves, leaf.length ≤ most
  pivots : ∀ b ∈ t.balls, ∀ code ∈ t.members, b.pivot.length = code.length
  within : ∀ b ∈ t.balls, ∀ code ∈ b.codes, code.hamming b.pivot ≤ b.radius

theorem Sound.shaped (sound : t.Sound) (trim : t.Short → t.Trim most) : t.Shaped most := by
  have planted := sound.planted
  unfold Planted at planted
  cases root : t.root with
  | none =>
    rw [root] at planted
    refine ⟨by simp [root, planted], fun code => ?_, ?_, ?_, ?_, ?_⟩
    · rw [if_neg (planted code)]
      simp [leaves, root]
    all_goals simp [leaves, balls, root]
  | some ball =>
    rw [root] at planted
    obtain ⟨same, length, balls⟩ := planted
    have held (code : Code) : code ∈ ball.codes ↔ code ∈ t.members := by
      rw [same.mem_iff, SortedSet.mem_toList]
    obtain ⟨one, member⟩ := List.exists_mem_of_ne_nil _ balls.codes_ne_nil
    refine ⟨?_, fun code => ?_, fun leaf inside => ?_, fun short leaf inside => ?_,
      fun b below code member => ?_, fun b below => ?_⟩
    · rw [root]
      exact ⟨nofun, fun none => absurd ((held one).mp member) (none one)⟩
    · have apart : ball.codes.Nodup := same.nodup_iff.mpr t.members.nodup_toList
      simp only [leaves, root, Option.elim_some, Ball.flatten_leaves, apart.count, held]
    · rw [leaves, root] at inside
      exact List.length_pos_iff.mpr (balls.leaf_ne_nil leaf inside)
    · rw [leaves, root] at inside
      exact trim short ball root leaf inside
    · rw [BallTree.balls, root] at below
      obtain ⟨part, _⟩ := balls.of_mem_balls b below
      rw [part.encloses.pivot_length, balls.encloses.code_length code ((held code).mpr member)]
    · rw [BallTree.balls, root] at below
      exact (balls.of_mem_balls b below).1.encloses.within

/-! Calls -/

theorem Sound.exists_member {root : Ball} (sound : t.Sound) (planted : t.root = some root) :
    ∃ code, code ∈ t.members := by
  have balls := sound.planted
  unfold Planted at balls
  rw [planted] at balls
  obtain ⟨same, _, whole⟩ := balls
  obtain ⟨code, inside⟩ := List.exists_mem_of_ne_nil _ whole.codes_ne_nil
  exact ⟨code, SortedSet.mem_toList.mp (same.subset inside)⟩

theorem trim_of_plant (positive : 0 < t.leafSize) (sound : t.Sound)
    (root : t.root = plant t.leafSize t.members) (short : t.Short) : t.Trim t.leafSize := by
  obtain ⟨length, alike⟩ := sound.lengths.exists_length
  intro ball planted
  obtain ⟨code, member⟩ := sound.exists_member planted
  rw [root, plant] at planted
  split at planted
  · cases planted
  · cases planted
    refine Ball.grow_trim positive t.members.nodup_toList (fun code member => ?_)
      (alike code member ▸ short code member)
    exact alike code (SortedSet.mem_toList.mp member)

theorem build_trim {after : BallTree} {codes : List Code} (positive : 0 < t.leafSize)
    (built : t.build codes = .ok after) :
    (after.Short → after.Trim t.leafSize) ∧ after.leafSize = t.leafSize := by
  obtain ⟨sound, _⟩ := build_sound built
  unfold build at built
  obtain ⟨held, _, same⟩ := exists_of_bind_ok built
  cases same
  exact ⟨trim_of_plant positive sound rfl, rfl⟩

theorem rebuild_trim (positive : 0 < t.leafSize) (sound : t.Sound) (short : t.Short) :
    t.rebuild.Trim t.leafSize :=
  trim_of_plant (t := t.rebuild) positive (rebuild_sound sound) rfl short

theorem leafSize_foldl_add (t : BallTree) (codes : List Code) :
    (codes.foldl add t).leafSize = t.leafSize := by
  induction codes generalizing t with
  | nil => rfl
  | cons code rest ih => exact ih (t.add code)

theorem add_trim (positive : 0 < t.leafSize) (planted : t.Planted) (fresh : code ∉ t.members)
    (alike : ∀ other ∈ t.members, other.length = code.length) (short : code.length < 2 ^ 32)
    (trim : t.Trim (2 * t.leafSize)) : (t.add code).Trim (2 * t.leafSize) := by
  intro ball grown
  unfold Planted at planted
  unfold add at grown
  cases root : t.root with
  | none =>
    rw [root] at grown
    cases grown
    rw [Ball.trim_leaf]
    show 1 ≤ 2 * t.leafSize
    omega
  | some old =>
    rw [root] at planted grown
    cases grown
    obtain ⟨same, length, sound⟩ := planted
    have held (x : Code) : x ∈ old.codes ↔ x ∈ t.members := by
      rw [same.mem_iff, SortedSet.mem_toList]
    have distinct : (code :: old.codes).Nodup :=
      List.nodup_cons.mpr ⟨fun member => fresh ((held code).mp member),
        same.nodup_iff.mpr t.members.nodup_toList⟩
    obtain ⟨other, inside⟩ := List.exists_mem_of_ne_nil _ sound.codes_ne_nil
    have fits : code.length = length := by
      rw [← alike other ((held other).mp inside), sound.encloses.code_length other inside]
    exact Ball.insert_trim positive sound distinct fits (fits ▸ short) (trim old root)

/-- Adding codes one after the other keeps the leaves small, because the tree is planted before
each. -/
theorem foldl_add_trim {length : Nat} (positive : 0 < t.leafSize) (planted : t.Planted)
    (alike : ∀ code ∈ t.members, code.length = length) (trim : t.Trim (2 * t.leafSize))
    {codes : List Code} (distinct : codes.Nodup) (fresh : ∀ code ∈ codes, code ∉ t.members)
    (fits : ∀ code ∈ codes, code.length = length) (short : ∀ code ∈ codes, code.length < 2 ^ 32) :
    (codes.foldl add t).Trim (2 * t.leafSize) := by
  induction codes using List.reverseRecOn with
  | nil => exact trim
  | append_singleton codes code ih =>
    obtain ⟨apart, _, others⟩ := List.nodup_append.mp distinct
    have fresh' : ∀ code ∈ codes, code ∉ t.members := fun code member =>
      fresh code (List.mem_append_left _ member)
    have fits' : ∀ code ∈ codes, code.length = length := fun code member =>
      fits code (List.mem_append_left _ member)
    have trim' := ih apart fresh' fits' fun code member => short code (List.mem_append_left _ member)
    obtain ⟨planted', _, members⟩ := foldl_add_planted planted alike apart fresh' fits'
    rw [List.foldl_append, List.foldl_cons, List.foldl_nil, ← leafSize_foldl_add t codes]
    rw [← leafSize_foldl_add t codes] at trim' positive
    refine add_trim positive planted' (fun held => ?_) (fun other member => ?_)
      (short code (by simp)) trim'
    · rw [members] at held
      rcases SortedSet.mem_insertMany.mp held with new | old
      · exact others code new code List.mem_cons_self rfl
      · exact fresh code (by simp) old
    · rw [fits code (by simp)]
      rw [members] at member
      rcases SortedSet.mem_insertMany.mp member with new | old
      · exact fits' other new
      · exact alike other old

theorem update_trim {after : BallTree} {codes : List Code} (positive : 0 < t.leafSize)
    (sound : t.Sound) (trim : t.Short → t.Trim (2 * t.leafSize))
    (updated : t.update codes = .ok after) :
    (after.Short → after.Trim (2 * t.leafSize)) ∧ after.leafSize = t.leafSize := by
  obtain ⟨grown, _, members⟩ := update_sound sound updated
  obtain ⟨length, alike⟩ := grown.lengths.exists_length
  unfold Short
  rw [members] at alike ⊢
  have old (code : Code) (member : code ∈ t.members) : code ∈ t.members.insertMany codes :=
    SortedSet.mem_insertMany.mpr (.inr member)
  have chosen (code : Code) (member : code ∈ (SortedSet.ofList
      (codes.filter fun code => !t.members.contains code)).toList) :
      code ∈ t.members.insertMany codes ∧ code ∉ t.members := by
    have picked : code ∈ codes ∧ code ∉ t.members := by simpa using member
    exact ⟨SortedSet.mem_insertMany.mpr (.inl picked.1), picked.2⟩
  unfold update at updated
  obtain ⟨held, _, same⟩ := exists_of_bind_ok updated
  cases same
  refine ⟨fun short => ?_, leafSize_foldl_add _ _⟩
  exact foldl_add_trim (t := { t with codeLength := held }) positive sound.planted
    (fun code member => alike code (old code member))
    (trim fun code member => short code (old code member)) (SortedSet.nodup_toList _)
    (fun code member => (chosen code member).2)
    (fun code member => alike code (chosen code member).1)
    (fun code member => short code (chosen code member).1)

theorem drop_trim (trim : t.Trim most) (code : Code) : (t.drop code).Trim most := by
  unfold drop
  split
  · intro ball left
    obtain ⟨root, planted, left⟩ := Option.bind_eq_some_iff.mp left
    have rest : ((root.remove code).getD root).Trim most := by
      cases removed : root.remove code with
      | none => exact trim root planted
      | some rest => exact Ball.remove_trim (trim root planted) removed
    dsimp only at left
    split at left
    · cases left
    · cases left
      exact rest
  · exact trim

theorem foldl_drop_trim (trim : t.Trim most) (codes : List Code) :
    (codes.foldl drop t).Trim most := by
  induction codes generalizing t with
  | nil => exact trim
  | cons code rest ih => exact ih (drop_trim trim code)

theorem leafSize_foldl_drop (t : BallTree) (codes : List Code) :
    (codes.foldl drop t).leafSize = t.leafSize := by
  induction codes generalizing t with
  | nil => rfl
  | cons code rest ih =>
    rw [List.foldl_cons, ih, drop]
    split <;> rfl

theorem remove_trim {after : BallTree} {codes : List Code} (sound : t.Sound)
    (trim : t.Short → t.Trim most) (removed : t.remove codes = .ok after) :
    (after.Short → after.Trim most) ∧ after.leafSize = t.leafSize := by
  obtain ⟨sound', members, _⟩ := remove_sound sound removed
  obtain ⟨length, alike⟩ := sound.lengths.exists_length
  -- What is left tells how long all codes were.
  have was (short : after.Short) {root : Ball} (planted : after.root = some root) : t.Short := by
    obtain ⟨code, member⟩ := sound'.exists_member planted
    have small := short code member
    rw [members] at member
    rw [alike code (SortedSet.mem_eraseMany.mp member).2] at small
    exact fun other held => alike other held ▸ small
  unfold remove at removed
  split at removed
  · cases removed
  · cases removed
    refine ⟨fun short root planted => ?_, leafSize_foldl_drop t codes⟩
    exact foldl_drop_trim (trim (was short planted)) codes root planted

/-- What calls keep of a tree with leaves of `leafSize` codes. -/
structure Kept (leafSize : Nat) (t : BallTree) : Prop where
  size : t.leafSize = leafSize
  sound : t.Sound
  trim : t.Short → t.Trim (2 * leafSize)

theorem Kept.attempt {leafSize : Nat} {call : CodeCall} {after : CodeIndex}
    (positive : 0 < leafSize) (kept : t.Kept leafSize)
    (done : (CodeIndex.tree t).attempt call = .ok after) :
    ∃ t', after = .tree t' ∧ t'.Kept leafSize := by
  obtain ⟨rfl, sound, trim⟩ := kept
  have wider {t' : BallTree} (small : t'.Trim t.leafSize) : t'.Trim (2 * t.leafSize) :=
    fun root planted => (small root planted).mono (by omega)
  cases call with
  | build codes =>
    obtain ⟨t', built, rfl⟩ := exists_of_map_ok done
    obtain ⟨small, size⟩ := build_trim positive built
    exact ⟨t', rfl, size, (build_sound built).1, fun short => wider (small short)⟩
  | update codes =>
    obtain ⟨t', updated, rfl⟩ := exists_of_map_ok done
    obtain ⟨small, size⟩ := update_trim positive sound trim updated
    exact ⟨t', rfl, size, (update_sound sound updated).1, small⟩
  | remove codes =>
    obtain ⟨t', removed, rfl⟩ := exists_of_map_ok done
    obtain ⟨small, size⟩ := remove_trim sound trim removed
    exact ⟨t', rfl, size, (remove_sound sound removed).1, small⟩
  | rebuild =>
    cases done
    exact ⟨t.rebuild, rfl, rfl, rebuild_sound sound, fun short =>
      wider (rebuild_trim positive sound short)⟩

theorem Kept.run {leafSize : Nat} (positive : 0 < leafSize) (kept : t.Kept leafSize)
    (calls : List CodeCall) :
    ∃ t', ((CodeIndex.tree t).run calls).1 = .tree t' ∧ t'.Kept leafSize := by
  induction calls generalizing t with
  | nil => exact ⟨t, rfl, kept⟩
  | cons call rest ih =>
    simp only [CodeIndex.run, CodeIndex.step]
    cases done : (CodeIndex.tree t).attempt call with
    | error e => exact ih kept
    | ok after =>
      obtain ⟨t', rfl, still⟩ := kept.attempt positive done
      exact ih still

/-- Whatever calls are made of a new tree, refused ones among them, its leaves share out the
members. As long as these are short enough for distances of 32 bits, there are at most
`2 * leafSize` codes in each leaf, and at most `leafSize` in each when the tree is built or rebuilt.
The balls are those that growing comes to in the end. -/
theorem shaped_of_run {leafSize : Nat} (positive : 1 ≤ leafSize) (calls : List CodeCall) :
    ∃ start t, create leafSize = .ok start ∧
      ((CodeIndex.tree start).run calls).1 = .tree t ∧ t.Shaped (2 * leafSize) ∧
      (∀ codes after, t.build codes = .ok after → after.Shaped leafSize) ∧
      t.rebuild.Shaped leafSize ∧
      ∀ codes b, Ball.Grown leafSize codes b ↔ b = Ball.grow leafSize codes := by
  have made : create leafSize = .ok (empty leafSize) := if_neg (Nat.ne_of_gt positive)
  have planted : (empty leafSize).Kept leafSize := ⟨rfl, empty_sound leafSize, fun _ => nofun⟩
  obtain ⟨t, reached, rfl, sound, trim⟩ := planted.run positive calls
  refine ⟨_, t, made, reached, sound.shaped trim, fun codes after built => ?_, ?_, ?_⟩
  · exact (build_sound built).1.shaped (build_trim positive built).1
  · exact (rebuild_sound sound).shaped fun short => rebuild_trim positive sound short
  · exact fun codes b => Ball.grown_iff

/-- Leaves of one code that overflow, and a code that is taken out again. -/
theorem shaped_of_run_overflow :
    1 ≤ 1 ∧ ∃ start t, create 1 = .ok start ∧
      ((CodeIndex.tree start).run [.build [.ofBools [true, false], .ofBools [true, true]],
        .update [.zeros 2, .ofBools [false, true]], .remove [.zeros 2], .rebuild]).1 = .tree t ∧
      t.Shaped (2 * 1) ∧ (∀ codes after, t.build codes = .ok after → after.Shaped 1) ∧
      t.rebuild.Shaped 1 ∧ ∀ codes b, Ball.Grown 1 codes b ↔ b = Ball.grow 1 codes :=
  ⟨Nat.le_refl 1, shaped_of_run (Nat.le_refl 1) _⟩

/-- A clear code and its complement, with `2 ^ 32` bits each, are at no distance from their
majority, so that they stay in one leaf even if it should hold one code only. -/
theorem not_shaped_of_long :
    ¬ ∀ (leafSize : Nat) (codes : List Code) (after : BallTree), 1 ≤ leafSize →
      (empty leafSize).build codes = .ok after → ∀ leaf ∈ after.leaves, leaf.length ≤ leafSize := by
  intro small
  obtain ⟨n, whole⟩ : ∃ n, n + 2 = 2 ^ 32 := ⟨2 ^ 32 - 2, rfl⟩
  let votes := [(false, false, false), (true, true, true)]
  have ascending : (votes.map (Code.tailed n)).Pairwise fun a b => compare a b = .lt :=
    List.pairwise_pair.mpr (Code.compare_tailed_first n _ _)
  obtain ⟨after, built, _, root⟩ := exists_build_root (empty 1) ascending (List.cons_ne_nil _ _)
    (List.forall_mem_map.mpr fun v _ => Code.length_tailed n v)
  have near : reach (votes.map (Code.tailed n)) = 0 := by
    have elected := majority_tailed n votes (List.cons_ne_nil _ _)
    rw [reach, elected]
    simp only [votes, List.map_cons, List.map_nil, Code.hamming_tailed whole]
    decide
  have held : after.leaves = [votes.map (Code.tailed n)] := by
    rw [leaves, root, Option.elim_some, Ball.grow_eq, if_pos (.inr near)]
    rfl
  have few := small 1 _ after (Nat.le_refl 1) built (votes.map (Code.tailed n)) (by simp [held])
  exact absurd few (by simp [votes])

end BallTree
end Retrieval
