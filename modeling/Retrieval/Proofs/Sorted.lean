import Retrieval.Sorted.Set

/-!
Sorted maps and sets as lists and as lookups. A set is listed without repetition by `toList`, whose
order is that of its members, and a map lists its keys in the same way.
-/
namespace Retrieval

namespace SortedMap
variable {κ ν : Type} [Ord κ]

theorem contains_iff {m : SortedMap κ ν} {key : κ} :
    m.contains key = true ↔ ∃ value, m.get? key = some value := Option.isSome_iff_exists

theorem keys_ascending (m : SortedMap κ ν) : m.keys.Pairwise fun a b => compare a b = .lt :=
  List.pairwise_map.mpr m.ascending

@[simp] theorem length_keys (m : SortedMap κ ν) : m.keys.length = m.size := by
  simp [keys, size]

variable [Std.TransOrd κ] [Std.LawfulEqOrd κ]

theorem get?_insert_self (m : SortedMap κ ν) (key : κ) (value : ν) :
    (m.insert key value).get? key = some value := by simp [get?_insert]

theorem get?_insert_of_ne {m : SortedMap κ ν} {key other : κ} {value : ν}
    (different : other ≠ key) :
    (m.insert key value).get? other = m.get? other := by
  have : compare other key ≠ .eq := fun same => different (Std.LawfulEqOrd.eq_of_compare same)
  simp [get?_insert, this]

theorem get?_erase_self (m : SortedMap κ ν) (key : κ) : (m.erase key).get? key = none := by
  simp [get?_erase]

theorem get?_erase_of_ne {m : SortedMap κ ν} {key other : κ} (different : other ≠ key) :
    (m.erase key).get? other = m.get? other := by
  have : compare other key ≠ .eq := fun same => different (Std.LawfulEqOrd.eq_of_compare same)
  simp [get?_erase, this]

/-- There is nothing to erase under a key that is missing. -/
theorem erase_of_missing {m : SortedMap κ ν} {key : κ} (missing : m.get? key = none) :
    m.erase key = m := by
  refine ext_get? fun other => ?_
  by_cases same : other = key
  · rw [same, get?_erase_self, missing]
  · rw [get?_erase_of_ne same]

theorem mem_keys {m : SortedMap κ ν} {key : κ} : key ∈ m.keys ↔ m.contains key = true := by
  rw [contains_iff, keys, List.mem_map]
  constructor
  · intro listed
    obtain ⟨⟨_, value⟩, member, rfl⟩ := listed
    exact ⟨value, mem_entries_iff.mp member⟩
  · intro held
    obtain ⟨value, found⟩ := held
    exact ⟨(key, value), mem_entries_iff.mpr found, rfl⟩

omit [Std.TransOrd κ] in
theorem nodup_of_ascending {keys : List κ}
    (ascending : keys.Pairwise fun a b => compare a b = .lt) :
    keys.Nodup := by
  apply ascending.imp
  rintro a _ before rfl
  simp at before

omit [Std.TransOrd κ] in
theorem nodup_keys (m : SortedMap κ ν) : m.keys.Nodup := nodup_of_ascending m.keys_ascending

theorem isEmpty_iff {m : SortedMap κ ν} : m.isEmpty = true ↔ ∀ key, m.get? key = none := by
  rw [isEmpty, List.isEmpty_iff, List.eq_nil_iff_forall_not_mem]
  constructor
  · intro empty key
    cases found : m.get? key with
    | none => rfl
    | some value => exact absurd (mem_entries_iff.mpr found) (empty (key, value))
  · intro absent entry member
    obtain ⟨key, value⟩ := entry
    have found := mem_entries_iff.mp member
    rw [absent key] at found
    cases found

/-- Keys that ascend strictly and are filed exactly in `m` are the keys of `m`. -/
theorem keys_eq_of_ascending {m : SortedMap κ ν} {keys : List κ}
    (ascending : keys.Pairwise fun a b => compare a b = .lt)
    (agree : ∀ key, key ∈ keys ↔ m.contains key = true) : m.keys = keys := by
  refine List.Perm.eq_of_pairwise ?_ m.keys_ascending ascending ?_
  · intro a b _ _ before after
    have := Std.OrientedCmp.gt_iff_lt.mpr after
    rw [before] at this
    cases this
  · apply (List.perm_ext_iff_of_nodup m.nodup_keys (nodup_of_ascending ascending)).mpr
    intro key
    rw [mem_keys, agree]

/-- After filing entries in turn, a lookup answers the last value filed under its key, or what was
there before. -/
theorem get?_foldl_insert (entries : List (κ × ν)) (m : SortedMap κ ν) (key : κ) :
    (entries.foldl (fun m entry => m.insert entry.1 entry.2) m).get? key =
      ((entries.reverse.find? fun entry => compare key entry.1 = .eq).map (·.2)).or
        (m.get? key) := by
  induction entries generalizing m with
  | nil => simp
  | cons entry rest ih =>
    rw [List.foldl_cons, ih, get?_insert, List.reverse_cons, List.find?_append]
    cases later : rest.reverse.find? fun entry => compare key entry.1 = .eq with
    | some _ => simp
    | none =>
      by_cases same : compare key entry.1 = .eq
      · simp [same]
      · simp [same]

/-- Filing the entries of a map one after the other makes the map again. -/
@[simp] theorem ofList_entries (m : SortedMap κ ν) : ofList m.entries = m := by
  refine ext_get? fun key => ?_
  rw [ofList, get?_foldl_insert, get?_empty, Option.or_none]
  cases last : m.entries.reverse.find? fun entry => compare key entry.1 = .eq with
  | some entry =>
    have same : key = entry.1 := by
      have equal := List.find?_some last
      exact Std.LawfulEqOrd.eq_of_compare (of_decide_eq_true equal)
    have member := List.mem_reverse.mp (List.mem_of_find?_eq_some last)
    rw [same, mem_entries_iff.mp member]
    rfl
  | none =>
    cases found : m.get? key with
    | none => rfl
    | some value =>
      have member := List.mem_reverse.mpr (mem_entries_iff.mpr found)
      have differs := List.find?_eq_none.mp last _ member
      simp at differs

end SortedMap

namespace SortedSet
variable {α : Type} [Ord α]

@[simp] theorem contains_eq_true {s : SortedSet α} {x : α} : s.contains x = true ↔ x ∈ s := Iff.rfl

@[simp] theorem contains_eq_false {s : SortedSet α} {x : α} : s.contains x = false ↔ x ∉ s :=
  (Bool.not_eq_true _).symm ▸ Iff.rfl

theorem toList_ascending (s : SortedSet α) : s.toList.Pairwise fun a b => compare a b = .lt :=
  s.index.keys_ascending

@[simp] theorem length_toList (s : SortedSet α) : s.toList.length = s.size := s.index.length_keys

variable [Std.TransOrd α] [Std.LawfulEqOrd α]

@[simp] theorem mem_toList {s : SortedSet α} {x : α} : x ∈ s.toList ↔ x ∈ s := SortedMap.mem_keys

omit [Std.TransOrd α] in
theorem nodup_toList (s : SortedSet α) : s.toList.Nodup := s.index.nodup_keys

theorem isEmpty_iff {s : SortedSet α} : s.isEmpty = true ↔ ∀ x, x ∉ s := by
  show s.index.isEmpty = true ↔ ∀ x, ¬ (s.index.get? x).isSome = true
  rw [SortedMap.isEmpty_iff]
  simp

theorem isEmpty_eq_false_iff {s : SortedSet α} : s.isEmpty = false ↔ ∃ x, x ∈ s := by
  rw [← Bool.not_eq_true, isEmpty_iff, Classical.not_forall]
  simp only [Classical.not_not]

omit [Std.TransOrd α] [Std.LawfulEqOrd α] in
theorem toList_eq_nil_iff {s : SortedSet α} : s.toList = [] ↔ s.isEmpty = true := by
  simp [toList, SortedMap.keys, isEmpty, SortedMap.isEmpty]

@[simp] theorem ofList_toList (s : SortedSet α) : ofList s.toList = s :=
  ext_mem fun x => by rw [mem_ofList, mem_toList]

/-- A list that ascends strictly lists the set of its members. -/
theorem toList_ofList_of_ascending {members : List α}
    (ascending : members.Pairwise fun a b => compare a b = .lt) :
    (ofList members).toList = members :=
  SortedMap.keys_eq_of_ascending ascending fun _ => mem_ofList.symm

/-- A list without repetition that has the members of a set lists the set, up to order. -/
theorem perm_toList {s : SortedSet α} {members : List α} (distinct : members.Nodup)
    (agree : ∀ x, x ∈ members ↔ x ∈ s) : members.Perm s.toList :=
  (List.perm_ext_iff_of_nodup distinct s.nodup_toList).mpr fun x => by rw [agree, mem_toList]

end SortedSet
end Retrieval
