import Retrieval.CodeIndex.Basic
import Retrieval.Proofs.CodeIndex.Ball

/-!
Sound trees: the balls of a tree hold exactly its members, and all codes have the announced length.
Every change keeps a tree sound, and a sound tree answers a query with the first of all its members
in the order of hits (`BallTree.nearest_eq`), as long as 32 bits are enough for the distances.
-/
namespace Retrieval

theorem length_sortHits (members : SortedSet Code) (query : Code) :
    (sortHits (members.toList.map (Hit.of query))).length = members.size := by
  rw [(sortHits_perm _).length_eq, List.length_map, SortedSet.length_toList]

/-- All codes held have the announced length; none is announced when no code is held. -/
structure LengthOf (members : SortedSet Code) (held : Option Nat) : Prop where
  alike : ∀ code ∈ members, held = some code.length
  unset : (∀ code, code ∉ members) → held = none

theorem commonLength_ok {held result : Option Nat} {codes : List Code}
    (agreed : commonLength held codes = .ok result) :
    (∀ code ∈ codes, result = some code.length) ∧
      (∀ length, held = some length → result = some length) ∧ (codes = [] → result = held) := by
  induction codes generalizing held with
  | nil =>
    cases agreed
    exact ⟨by simp, fun _ same => same, fun _ => rfl⟩
  | cons code rest ih =>
    unfold commonLength at agreed
    cases held with
    | none =>
      obtain ⟨later, first, _⟩ := ih agreed
      refine ⟨?_, by simp, by simp⟩
      intro other member
      rcases List.mem_cons.mp member with rfl | member
      · exact first _ rfl
      · exact later other member
    | some length =>
      dsimp only at agreed
      split at agreed
      · rename_i same
        obtain ⟨later, first, _⟩ := ih agreed
        refine ⟨?_, first, by simp⟩
        intro other member
        rcases List.mem_cons.mp member with rfl | member
        · rw [first length rfl, same]
        · exact later other member
      · cases agreed

/-- Codes of one length are agreed on, unless another length is held. -/
theorem exists_commonLength {held : Option Nat} {codes : List Code} {length : Nat}
    (alike : ∀ code ∈ codes, code.length = length)
    (fits : ∀ other, held = some other → other = length) :
    ∃ result, commonLength held codes = .ok result := by
  induction codes generalizing held with
  | nil => exact ⟨held, rfl⟩
  | cons code rest ih =>
    have same := alike code List.mem_cons_self
    have later : ∀ other ∈ rest, other.length = length :=
      fun other member => alike other (List.mem_cons_of_mem _ member)
    unfold commonLength
    cases held with
    | none => exact ih later fun other first => by rw [← Option.some.inj first, same]
    | some other =>
      have : code.length = other := by rw [same, fits other rfl]
      simp only [this, ↓reduceIte]
      exact ih later fits

theorem LengthOf.agreed {members grown : SortedSet Code} {held result : Option Nat}
    {codes : List Code} (lengths : LengthOf members held)
    (agreed : commonLength held codes = .ok result)
    (grows : ∀ code, code ∈ grown ↔ code ∈ codes ∨ code ∈ members) : LengthOf grown result := by
  obtain ⟨added, kept, unchanged⟩ := commonLength_ok agreed
  refine ⟨?_, ?_⟩
  · intro code member
    rcases (grows code).mp member with new | old
    · exact added code new
    · exact kept code.length (lengths.alike code old)
  · intro none
    have noCode : codes = [] := List.eq_nil_iff_forall_not_mem.mpr
      fun code member => none code ((grows code).mpr (.inl member))
    rw [unchanged noCode]
    exact lengths.unset fun code member => none code ((grows code).mpr (.inr member))

theorem LengthOf.thin {members fewer : SortedSet Code} {held : Option Nat}
    (lengths : LengthOf members held) (fewer_mem : ∀ code ∈ fewer, code ∈ members) :
    LengthOf fewer (if fewer.isEmpty then none else held) := by
  cases empty : fewer.isEmpty with
  | true =>
    exact ⟨fun code member => absurd member (SortedSet.isEmpty_iff.mp empty code), fun _ => rfl⟩
  | false =>
    refine ⟨fun code member => lengths.alike code (fewer_mem code member), ?_⟩
    intro none
    rw [SortedSet.isEmpty_iff.mpr none] at empty
    cases empty

theorem LengthOf.exists_length {members : SortedSet Code} {held : Option Nat}
    (lengths : LengthOf members held) : ∃ length, ∀ code ∈ members, code.length = length := by
  cases held with
  | none => exact ⟨0, fun code member => absurd (lengths.alike code member) (by simp)⟩
  | some length =>
    exact ⟨length, fun code member => (Option.some.inj (lengths.alike code member)).symm⟩

theorem LengthOf.empty : LengthOf ∅ none :=
  ⟨fun code member => absurd member (SortedSet.not_mem_empty code), fun _ => rfl⟩

namespace BallTree
variable {t : BallTree} {code : Code}

/-- The balls are sound and hold exactly the members; without members there is no ball. -/
def Planted (t : BallTree) : Prop :=
  match t.root with
  | none => ∀ code, code ∉ t.members
  | some root => root.codes.Perm t.members.toList ∧ ∃ length, root.Sound length

structure Sound (t : BallTree) : Prop where
  lengths : LengthOf t.members t.codeLength
  planted : t.Planted

theorem empty_sound (leafSize : Nat) : (empty leafSize).Sound :=
  ⟨.empty, SortedSet.not_mem_empty⟩

theorem planted_of_plant {members : SortedSet Code} {length : Nat}
    (root : t.root = plant t.leafSize members) (same : t.members = members)
    (alike : ∀ code ∈ members, code.length = length) : t.Planted := by
  unfold Planted
  rw [root, same]
  unfold plant
  cases empty : members.isEmpty with
  | true => exact SortedSet.isEmpty_iff.mp empty
  | false =>
    refine ⟨Ball.grow_perm t.leafSize members.toList, length, Ball.grow_sound t.leafSize ?_ ?_⟩
    · intro none
      rw [SortedSet.toList_eq_nil_iff.mp none] at empty
      cases empty
    · exact fun code member => alike code (SortedSet.mem_toList.mp member)

theorem build_sound {after : BallTree} {codes : List Code} (built : t.build codes = .ok after) :
    after.Sound ∧ after.members = .ofList codes := by
  unfold build at built
  cases agreed : commonLength none codes with
  | error e => rw [agreed] at built; cases built
  | ok held =>
    rw [agreed] at built
    cases built
    have lengths : LengthOf (SortedSet.ofList codes) held := LengthOf.empty.agreed agreed (by simp)
    obtain ⟨length, alike⟩ := lengths.exists_length
    exact ⟨⟨lengths, planted_of_plant rfl rfl alike⟩, rfl⟩

/-- Codes of one length in ascending order are built into the ball that they grow. -/
theorem exists_build_root (t : BallTree) {codes : List Code} {length : Nat}
    (ascending : codes.Pairwise fun a b => compare a b = .lt) (some_code : codes ≠ [])
    (alike : ∀ code ∈ codes, code.length = length) :
    ∃ after, t.build codes = .ok after ∧ after.members = .ofList codes ∧
      after.root = some (Ball.grow t.leafSize codes) := by
  obtain ⟨held, agreed⟩ : ∃ held, commonLength none codes = .ok held :=
    exists_commonLength alike nofun
  refine ⟨_, by rw [build, agreed]; rfl, rfl, ?_⟩
  have listed := SortedSet.toList_ofList_of_ascending ascending
  show plant t.leafSize (.ofList codes) = _
  rw [plant, listed, if_neg]
  rw [← SortedSet.toList_eq_nil_iff, listed]
  exact some_code

theorem rebuild_sound (sound : t.Sound) : t.rebuild.Sound := by
  obtain ⟨length, alike⟩ := sound.lengths.exists_length
  exact ⟨sound.lengths, planted_of_plant rfl rfl alike⟩

/-! Updates -/

theorem add_planted (planted : t.Planted) (fresh : code ∉ t.members)
    (alike : ∀ other ∈ t.members, other.length = code.length) : (t.add code).Planted := by
  unfold Planted at planted ⊢
  unfold add
  cases root : t.root with
  | none =>
    rw [root] at planted
    refine ⟨?_, code.length, ⟨rfl, by simp [Ball.codes], ?_⟩, by simp⟩
    · apply SortedSet.perm_toList (by simp [Ball.codes])
      intro x
      simp [Ball.codes, planted x]
    · intro other member
      rw [List.mem_singleton.mp member]
      exact UInt32.le_of_eq (Code.hamming_self code)
  | some root' =>
    rw [root] at planted
    obtain ⟨same, length, sound⟩ := planted
    have held (x : Code) : x ∈ root'.codes ↔ x ∈ t.members := by
      rw [same.mem_iff, SortedSet.mem_toList]
    have distinct : (code :: root'.codes).Nodup :=
      List.nodup_cons.mpr ⟨fun member => fresh ((held code).mp member),
        same.nodup_iff.mpr t.members.nodup_toList⟩
    obtain ⟨other, member⟩ := List.exists_mem_of_ne_nil _ sound.codes_ne_nil
    have fits : code.length = length := by
      rw [← alike other ((held other).mp member), sound.encloses.code_length other member]
    refine ⟨?_, length, Ball.insert_sound t.leafSize sound fits⟩
    refine (Ball.insert_perm t.leafSize code root').trans
      (SortedSet.perm_toList distinct fun x => ?_)
    rw [List.mem_cons, SortedSet.mem_insert, held]

theorem foldl_add_planted {length : Nat} (planted : t.Planted)
    (alike : ∀ code ∈ t.members, code.length = length) {codes : List Code} (distinct : codes.Nodup)
    (fresh : ∀ code ∈ codes, code ∉ t.members) (fits : ∀ code ∈ codes, code.length = length) :
    (codes.foldl add t).Planted ∧ (codes.foldl add t).codeLength = t.codeLength ∧
      (codes.foldl add t).members = t.members.insertMany codes := by
  induction codes generalizing t with
  | nil => exact ⟨planted, rfl, rfl⟩
  | cons code rest ih =>
    have here := fits code List.mem_cons_self
    obtain ⟨first, apart⟩ := List.nodup_cons.mp distinct
    have step : (t.add code).Planted := add_planted planted (fresh code List.mem_cons_self)
      fun other member => by rw [alike other member, here]
    refine ih step ?_ apart ?_ fun other member => fits other (List.mem_cons_of_mem _ member)
    · intro other member
      rcases SortedSet.mem_insert.mp member with rfl | old
      · exact here
      · exact alike other old
    · intro other member inside
      rcases SortedSet.mem_insert.mp inside with rfl | old
      · exact first member
      · exact fresh other (List.mem_cons_of_mem _ member) old

theorem update_sound {after : BallTree} {codes : List Code} (sound : t.Sound)
    (updated : t.update codes = .ok after) :
    after.Sound ∧ commonLength t.codeLength codes = .ok after.codeLength ∧
      after.members = t.members.insertMany codes := by
  unfold update at updated
  cases agreed : commonLength t.codeLength codes with
  | error e => rw [agreed] at updated; cases updated
  | ok held =>
    rw [agreed] at updated
    cases updated
    have lengths : LengthOf (t.members.insertMany codes) held :=
      sound.lengths.agreed agreed fun code => SortedSet.mem_insertMany
    obtain ⟨length, alike⟩ := lengths.exists_length
    have chosen (code : Code) (member : code ∈ (SortedSet.ofList
        (codes.filter fun code => !t.members.contains code)).toList) :
        code ∈ codes ∧ code ∉ t.members := by
      simpa using member
    obtain ⟨planted, unchanged, grown⟩ := foldl_add_planted
      (t := { t with codeLength := held }) sound.planted
      (fun code member => alike code (SortedSet.mem_insertMany.mpr (.inr member)))
      (SortedSet.nodup_toList _) (fun code member => (chosen code member).2)
      (fun code member => alike code (SortedSet.mem_insertMany.mpr (.inl (chosen code member).1)))
    have complete : t.members.insertMany (SortedSet.ofList
        (codes.filter fun code => !t.members.contains code)).toList =
          t.members.insertMany codes := by
      apply SortedSet.ext_mem
      intro code
      by_cases old : code ∈ t.members
      · simp [old]
      · simp [old]
    have members := grown.trans complete
    refine ⟨⟨?_, planted⟩, ?_, members⟩
    · rw [members, unchanged]
      exact lengths
    · rw [unchanged]

/-! Removals -/

@[simp] theorem mem_members_drop {other : Code} :
    other ∈ (t.drop code).members ↔ other ≠ code ∧ other ∈ t.members := by
  unfold drop
  split
  · exact SortedSet.mem_erase
  · rename_i absent
    have absent : code ∉ t.members := by simpa using absent
    constructor
    · intro member
      exact ⟨fun same => absent (same ▸ member), member⟩
    · exact And.right

theorem drop_planted (planted : t.Planted) : (t.drop code).Planted := by
  have members := @mem_members_drop t code
  unfold drop at members ⊢
  split
  · rename_i member
    simp only [member, ↓reduceIte] at members
    unfold Planted at planted ⊢
    cases root : t.root with
    | none =>
      rw [root] at planted
      exact absurd member (planted code)
    | some root' =>
      rw [root] at planted
      obtain ⟨same, length, sound⟩ := planted
      have held (x : Code) : x ∈ root'.codes ↔ x ∈ t.members := by
        rw [same.mem_iff, SortedSet.mem_toList]
      obtain ⟨rest, removed⟩ := Ball.exists_remove sound ((held code).mpr member)
      have parts := Ball.remove_perm removed
      have apart := List.nodup_cons.mp
        (parts.nodup_iff.mpr (same.nodup_iff.mpr t.members.nodup_toList))
      have kept (x : Code) : x ∈ rest.codes ↔ x ∈ t.members.erase code := by
        rw [members, ← held, ← parts.mem_iff, List.mem_cons]
        constructor
        · intro inside
          exact ⟨fun same => apart.1 (same ▸ inside), .inr inside⟩
        · intro left
          obtain ⟨other, rfl | inside⟩ := left
          · exact absurd rfl other
          · exact inside
      simp only [Option.bind_some, removed, Option.getD_some]
      cases empty : rest.isEmpty with
      | true =>
        intro x inside
        have := (kept x).mpr inside
        rw [Ball.codes_eq_nil_of_isEmpty empty] at this
        cases this
      | false =>
        exact ⟨SortedSet.perm_toList apart.2 kept, length, Ball.remove_sound sound removed empty⟩
  · exact planted

theorem foldl_drop_planted (planted : t.Planted) (codes : List Code) :
    (codes.foldl drop t).Planted ∧ (codes.foldl drop t).codeLength = t.codeLength ∧
      (codes.foldl drop t).members = t.members.eraseMany codes := by
  induction codes generalizing t with
  | nil => exact ⟨planted, rfl, rfl⟩
  | cons code rest ih =>
    have members : (t.drop code).members = t.members.erase code := by
      apply SortedSet.ext_mem
      intro x
      rw [mem_members_drop, SortedSet.mem_erase]
    have dropped : (t.drop code).Planted := drop_planted planted
    obtain ⟨later, unchanged, erased⟩ := ih dropped
    refine ⟨later, ?_, ?_⟩
    · rw [List.foldl_cons, unchanged]
      unfold drop
      split <;> rfl
    · rw [List.foldl_cons, erased, members]
      rfl

theorem remove_sound {after : BallTree} {codes : List Code} (sound : t.Sound)
    (removed : t.remove codes = .ok after) :
    after.Sound ∧ after.members = t.members.eraseMany codes ∧
      after.codeLength = if after.members.isEmpty then none else t.codeLength := by
  unfold remove at removed
  split at removed
  · cases removed
  · cases removed
    obtain ⟨planted, unchanged, erased⟩ := foldl_drop_planted sound.planted codes
    refine ⟨⟨?_, planted⟩, erased, by rw [unchanged]⟩
    dsimp only
    rw [unchanged]
    apply sound.lengths.thin
    intro code member
    rw [erased] at member
    exact (SortedSet.mem_eraseMany.mp member).2

/-- What a sound tree answers is gathered from its members, however long these are. -/
theorem nearest_gathered (sound : t.Sound) (query : Code) (k : Nat) :
    ∃ seen, Gathered query k t.members.toList [] (t.nearest query k) seen := by
  have planted := sound.planted
  unfold Planted at planted
  unfold nearest
  dsimp only
  suffices ∃ seen, Gathered query (min k t.members.size) t.members.toList [] _ seen by
    obtain ⟨seen, gathered⟩ := this
    rw [← SortedSet.length_toList] at gathered
    exact ⟨seen, gathered.of_min⟩
  cases root : t.root with
  | none =>
    rw [root] at planted
    have none : t.members.size = 0 := by
      rw [← SortedSet.length_toList, List.length_eq_zero_iff, SortedSet.toList_eq_nil_iff]
      exact SortedSet.isEmpty_iff.mpr planted
    rw [none, Nat.min_zero]
    exact ⟨[], .zero query _⟩
  | some root' =>
    rw [root] at planted
    obtain ⟨same, _⟩ := planted
    dsimp only
    split
    · rename_i nothing
      rw [nothing]
      exact ⟨[], .zero query _⟩
    · obtain ⟨seen, gathered⟩ := root'.search_gathered query (min k t.members.size) []
      rw [show sortHits [] = [] from List.mergeSort_nil, List.take_nil] at gathered
      exact ⟨seen, gathered.of_perm same⟩

/-- A sound tree answers a query like the full list of its members. -/
theorem nearest_eq (sound : t.Sound) {query : Code}
    (fits : ∀ code ∈ t.members, query.ExactFor code.length) (k : Nat) :
    t.nearest query k = (sortHits (t.members.toList.map (Hit.of query))).take k := by
  have size := length_sortHits t.members query
  have planted := sound.planted
  unfold Planted at planted
  unfold nearest
  dsimp only
  cases root : t.root with
  | none =>
    rw [root] at planted
    have none : t.members.toList = [] :=
      SortedSet.toList_eq_nil_iff.mpr (SortedSet.isEmpty_iff.mpr planted)
    simp [none, sortHits]
  | some root' =>
    rw [root] at planted
    obtain ⟨same, length, balls⟩ := planted
    obtain ⟨code, inside⟩ := List.exists_mem_of_ne_nil _ balls.codes_ne_nil
    have exactly : query.ExactFor length := by
      rw [← balls.encloses.code_length code inside]
      exact fits code (SortedSet.mem_toList.mp (same.subset inside))
    dsimp only
    split
    · rename_i nothing
      rw [List.take_eq_take_min, size, nothing, List.take_zero]
    · rw [Ball.search_nil balls exactly, sortHits_congr (same.map (Hit.of query)), ← size,
        ← List.take_eq_take_min]

end BallTree
end Retrieval
