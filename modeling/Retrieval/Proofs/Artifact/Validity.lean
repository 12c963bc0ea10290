import Retrieval.Artifact.Basic
import Retrieval.Proofs.Sorted

/-!
An artifact passes its check exactly if it could have come from an index: its codes have its length,
each has an id, and no id is under two codes (`Artifact.validate_ok_iff`).
-/
namespace Retrieval.Artifact

structure Valid (a : Artifact) : Prop where
  lengths : ∀ code ids, a.entries.get? code = some ids → code.length = a.bitLength
  used : ∀ code ids, a.entries.get? code = some ids → ∃ id, id ∈ ids
  once : ∀ code ids code' ids' id, a.entries.get? code = some ids →
    a.entries.get? code' = some ids' → id ∈ ids → id ∈ ids' → code = code'

theorem seeAll_ok_iff {seen after : SortedSet String} {ids : List String} :
    seeAll seen ids = .ok after ↔
      ids.Nodup ∧ (∀ id ∈ ids, id ∉ seen) ∧ seen.insertMany ids = after := by
  induction ids generalizing seen with
  | nil => simp [seeAll, SortedSet.insertMany]
  | cons id rest ih =>
    unfold seeAll
    cases again : seen.contains id with
    | true =>
      constructor
      · intro passed
        cases passed
      · intro valid
        obtain ⟨_, unseen, _⟩ := valid
        exact absurd again (unseen id (List.mem_cons_self))
    | false =>
      rw [if_neg (by simp), ih, List.nodup_cons]
      show _ ↔ _ ∧ _ ∧ (seen.insert id).insertMany rest = after
      constructor
      · intro valid
        obtain ⟨distinct, unseen, same⟩ := valid
        refine ⟨⟨?_, distinct⟩, ?_, same⟩
        · intro member
          exact unseen id member (SortedSet.mem_insert.mpr (.inl rfl))
        · intro x member
          rcases List.mem_cons.mp member with rfl | later
          · exact SortedSet.contains_eq_false.mp again
          · exact fun was => unseen x later (SortedSet.mem_insert.mpr (.inr was))
      · intro valid
        obtain ⟨⟨here, distinct⟩, unseen, same⟩ := valid
        refine ⟨distinct, ?_, same⟩
        intro x member was
        rcases SortedSet.mem_insert.mp was with rfl | old
        · exact here member
        · exact unseen x (List.mem_cons_of_mem _ member) old

/-- Going on once the ids of a bucket are seen: none of them was seen before. -/
theorem seeAll_bind_ok_iff {seen ids : SortedSet String}
    {next : SortedSet String → Except Error Unit} :
    (seeAll seen ids.toList).bind next = .ok () ↔
      (∀ id ∈ ids, id ∉ seen) ∧ next (seen.insertMany ids.toList) = .ok () := by
  cases result : seeAll seen ids.toList with
  | ok both =>
    obtain ⟨_, unseen, rfl⟩ := seeAll_ok_iff.mp result
    simp only [SortedSet.mem_toList] at unseen
    exact (and_iff_right unseen).symm
  | error e =>
    constructor
    · intro passed
      cases passed
    · intro valid
      obtain ⟨unseen, _⟩ := valid
      rw [seeAll_ok_iff.mpr ⟨ids.nodup_toList, by simpa using unseen, rfl⟩] at result
      cases result

/-- Entries pass if each is in place and their ids are apart, from each other and from those seen.
-/
theorem checkEntries_ok_iff {bitLength : Nat} {seen : SortedSet String}
    {entries : List (Code × SortedSet String)} :
    checkEntries bitLength seen entries = .ok () ↔
      (∀ entry ∈ entries, entry.1.length = bitLength ∧ entry.2.isEmpty = false) ∧
        (∀ entry ∈ entries, ∀ id ∈ entry.2, id ∉ seen) ∧
          entries.Pairwise fun a b => ∀ id ∈ a.2, id ∉ b.2 := by
  induction entries generalizing seen with
  | nil => simp [checkEntries]
  | cons entry rest ih =>
    obtain ⟨code, ids⟩ := entry
    unfold checkEntries
    by_cases length : code.length = bitLength
    · rw [if_neg (by simpa using length)]
      cases empty : ids.isEmpty with
      | true =>
        constructor
        · intro passed
          cases passed
        · intro valid
          obtain ⟨placed, _⟩ := valid
          have := (placed (code, ids) List.mem_cons_self).2
          rw [empty] at this
          cases this
      | false =>
        rw [if_neg (by simp), List.pairwise_cons, List.forall_mem_cons, List.forall_mem_cons]
        have next : (seeAll seen ids.toList).bind (fun seen => checkEntries bitLength seen rest) =
            .ok () ↔ _ := seeAll_bind_ok_iff
        rw [next, ih]
        simp only [SortedSet.mem_insertMany, SortedSet.mem_toList, not_or]
        constructor
        · intro valid
          obtain ⟨unseen, placed, later, apart⟩ := valid
          refine ⟨⟨⟨length, empty⟩, placed⟩, ⟨unseen, ?_⟩, ?_, apart⟩
          · exact fun entry member id held => (later entry member id held).2
          · exact fun entry member id first second => (later entry member id second).1 first
        · intro valid
          obtain ⟨⟨_, placed⟩, ⟨unseen, later⟩, first, apart⟩ := valid
          refine ⟨unseen, placed, ?_, apart⟩
          exact fun entry member id held =>
            ⟨fun here => first entry member id here held, later entry member id held⟩
    · rw [if_pos length]
      constructor
      · intro passed
        cases passed
      · intro valid
        obtain ⟨placed, _⟩ := valid
        exact absurd (placed (code, ids) List.mem_cons_self).1 length

theorem validate_ok_iff {a : Artifact} : a.validate = .ok () ↔ a.Valid := by
  rw [validate, checkEntries_ok_iff]
  constructor
  · intro valid
    obtain ⟨placed, _, apart⟩ := valid
    refine ⟨?_, ?_, ?_⟩
    · intro code ids found
      exact (placed (code, ids) (SortedMap.mem_entries_iff.mpr found)).1
    · intro code ids found
      have placed := placed (code, ids) (SortedMap.mem_entries_iff.mpr found)
      exact SortedSet.isEmpty_eq_false_iff.mp placed.2
    · have shared : ∀ one ∈ a.entries.entries, ∀ other ∈ a.entries.entries,
          ∀ id, id ∈ one.2 → id ∈ other.2 → one.1 = other.1 :=
        List.Pairwise.forall_of_forall_of_flip (fun _ _ _ _ _ => rfl)
          (apart.imp fun disjoint id first second => absurd second (disjoint id first))
          (apart.imp fun disjoint id first second => absurd first (disjoint id second))
      intro code ids code' ids' id found found' member member'
      exact shared (code, ids) (SortedMap.mem_entries_iff.mpr found) (code', ids')
        (SortedMap.mem_entries_iff.mpr found') id member member'
  · intro valid
    refine ⟨?_, by simp, ?_⟩
    · intro entry member
      obtain ⟨code, ids⟩ := entry
      have found := SortedMap.mem_entries_iff.mp member
      exact ⟨valid.lengths code ids found,
        SortedSet.isEmpty_eq_false_iff.mpr (valid.used code ids found)⟩
    · apply a.entries.ascending.imp_of_mem
      intro entry entry' first second before id member member'
      obtain ⟨code, ids⟩ := entry
      obtain ⟨code', ids'⟩ := entry'
      have same := valid.once code ids code' ids' id (SortedMap.mem_entries_iff.mp first)
        (SortedMap.mem_entries_iff.mp second) member member'
      simp [same] at before

end Retrieval.Artifact
