import Mathlib.Data.List.DropRight
import Retrieval.Proofs.Sorted
import Retrieval.Session.Registry

/-!
The memory of a registry is a window on what was put into it: it holds the last entries, as many as
it has room for (`Retired.addAll_holds`).
-/
namespace Retrieval.Retired
variable {r : Retired} {entries gone : List (String × Phase)} {capacity : Nat}

/-- The memory holds these entries, oldest first, and no id twice. -/
structure Holds (r : Retired) (entries : List (String × Phase)) : Prop where
  order : r.order = entries.map (·.1)
  distinct : (entries.map (·.1)).Nodup
  phases : ∀ id phase, r.phases.get? id = some phase ↔ (id, phase) ∈ entries

theorem empty_holds : empty.Holds [] := by
  refine ⟨rfl, List.nodup_nil, fun id phase => ⟨fun found => ?_, fun member => ?_⟩⟩
  · cases found
  · cases member

theorem Holds.contains_iff (holds : r.Holds entries) {id : String} :
    r.phases.contains id = true ↔ ∃ phase, (id, phase) ∈ entries := by
  simp only [SortedMap.contains_iff, holds.phases]

theorem rtake_length_le {α : Type} (xs : List α) (n : Nat) : (xs.rtake n).length ≤ n := by
  rw [List.rtake, List.length_drop]
  omega

theorem rtake_of_length_le {α : Type} {xs : List α} {n : Nat} (fits : xs.length ≤ n) :
    xs.rtake n = xs := by
  rw [List.rtake, Nat.sub_eq_zero_of_le fits, List.drop_zero]

/-- Keeping the last ones early makes no difference to the last ones later. -/
theorem rtake_append_rtake {α : Type} (xs ys : List α) (n : Nat) :
    (xs.rtake n ++ ys).rtake n = (xs ++ ys).rtake n := by
  simp only [List.rtake_eq_reverse_take_reverse, List.reverse_append, List.reverse_reverse,
    List.take_append, List.take_take]
  congr 3
  omega

/-- What is forgotten is what does not fit, oldest first. -/
theorem forget_holds (distinct : (entries.map (·.1)).Nodup)
    (phases : ∀ id phase, r.phases.get? id = some phase ↔ (id, phase) ∈ entries) (capacity : Nat) :
    (forget capacity r (entries.map (·.1))).Holds (entries.rtake capacity) := by
  induction entries generalizing r with
  | nil =>
    rw [List.rtake_nil]
    exact ⟨rfl, distinct, phases⟩
  | cons entry rest ih =>
    obtain ⟨oldest, ended⟩ := entry
    obtain ⟨new, distinct'⟩ := List.nodup_cons.mp distinct
    rw [List.map_cons, forget]
    split
    · rename_i full
      have shorter : ((oldest, ended) :: rest).rtake capacity = rest.rtake capacity := by
        have room : capacity ≤ rest.length := by simpa [Nat.lt_succ_iff] using full
        rw [List.rtake, List.length_cons, Nat.succ_sub room, List.drop_succ_cons, List.rtake]
      rw [shorter]
      refine ih distinct' fun id phase => ?_
      by_cases same : id = oldest
      · rw [same, SortedMap.get?_erase_self]
        refine ⟨nofun, fun member => absurd (List.mem_map_of_mem member) new⟩
      · rw [SortedMap.get?_erase_of_ne same, phases]
        simp [same]
    · rename_i room
      rw [rtake_of_length_le (by simpa using room)]
      exact ⟨rfl, distinct, phases⟩

/-- A new end is remembered as the last one. -/
theorem add_holds (holds : r.Holds entries) (fits : entries.length ≤ capacity) {id : String}
    (new : id ∉ entries.map (·.1)) (phase : Phase) :
    (r.add id phase capacity).Holds ((entries ++ [(id, phase)]).rtake capacity) := by
  unfold add
  split
  · rename_i none
    rw [none, Nat.le_zero] at fits
    rw [none, List.rtake_zero, ← List.length_eq_zero_iff.mp fits]
    exact holds
  · have unknown : r.phases.contains id = false := by
      rw [Bool.eq_false_iff, ne_eq, holds.contains_iff]
      rintro ⟨_, member⟩
      exact new (List.mem_map_of_mem member)
    have order : r.order ++ [id] = (entries ++ [(id, phase)]).map (·.1) := by
      rw [holds.order, List.map_append]
      rfl
    simp only [unknown, Bool.false_eq_true, if_false, order]
    refine forget_holds ?_ (fun other ended => ?_) capacity
    · rw [← order, holds.order]
      refine List.nodup_append.mpr ⟨holds.distinct, by simp, fun other member single last => ?_⟩
      rw [List.mem_singleton] at last
      rintro rfl
      exact new (last ▸ member)
    · by_cases same : other = id
      · rw [same, SortedMap.get?_insert_self]
        have absent : (id, ended) ∉ entries := fun member => new (List.mem_map_of_mem member)
        simp [absent, eq_comm]
      · rw [SortedMap.get?_insert_of_ne same, holds.phases]
        simp [same]

/-- Remember several ends, one after the other. -/
def addAll (r : Retired) (gone : List (String × Phase)) (capacity : Nat) : Retired :=
  gone.foldl (fun r entry => r.add entry.1 entry.2 capacity) r

theorem addAll_holds (holds : r.Holds entries) (fits : entries.length ≤ capacity)
    (distinct : (gone.map (·.1)).Nodup) (new : ∀ id ∈ gone.map (·.1), id ∉ entries.map (·.1)) :
    (r.addAll gone capacity).Holds ((entries ++ gone).rtake capacity) := by
  induction gone generalizing r entries with
  | nil =>
    rw [List.append_nil, rtake_of_length_le fits]
    exact holds
  | cons entry rest ih =>
    obtain ⟨apart, distinct'⟩ := List.nodup_cons.mp distinct
    have added := add_holds holds fits (new _ List.mem_cons_self) entry.2
    have all := ih added (rtake_length_le _ _) distinct' fun id member recent => by
      have old : id ∈ (entries ++ [entry]).map (·.1) :=
        ((List.drop_sublist _ _).map _).subset recent
      rw [List.map_append, List.mem_append] at old
      rcases old with old | same
      · exact new id (List.mem_cons_of_mem _ member) old
      · exact apart (List.mem_singleton.mp same ▸ member)
    rwa [rtake_append_rtake, List.append_assoc] at all

end Retrieval.Retired
