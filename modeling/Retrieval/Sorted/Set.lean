import Retrieval.Sorted.Map

/-!
Finite sets kept as ascending lists. Iteration order is the order of the members, and sets with the
same members are equal.
-/
namespace Retrieval

/-- A finite set listed in strictly ascending order. -/
structure SortedSet (α : Type) [Ord α] where
  index : SortedMap α Unit
deriving DecidableEq

namespace SortedSet
variable {α : Type} [Ord α]

def empty : SortedSet α := ⟨∅⟩

instance : EmptyCollection (SortedSet α) := ⟨empty⟩
instance : Inhabited (SortedSet α) := ⟨empty⟩

/-- The members in ascending order. -/
def toList (s : SortedSet α) : List α := s.index.keys

def contains (s : SortedSet α) (x : α) : Bool := s.index.contains x

def size (s : SortedSet α) : Nat := s.index.size

def isEmpty (s : SortedSet α) : Bool := s.index.isEmpty

instance : Membership α (SortedSet α) := ⟨fun s x => s.contains x = true⟩

instance (x : α) (s : SortedSet α) : Decidable (x ∈ s) :=
  inferInstanceAs (Decidable (s.contains x = true))

variable [Std.TransOrd α]

def insert (s : SortedSet α) (x : α) : SortedSet α := ⟨s.index.insert x ()⟩

def erase (s : SortedSet α) (x : α) : SortedSet α := ⟨s.index.erase x⟩

def insertMany (s : SortedSet α) (xs : List α) : SortedSet α := xs.foldl insert s

def eraseMany (s : SortedSet α) (xs : List α) : SortedSet α := xs.foldl erase s

def ofList (xs : List α) : SortedSet α := empty.insertMany xs

variable [Std.LawfulEqOrd α]

omit [Std.TransOrd α] [Std.LawfulEqOrd α] in
@[simp] theorem not_mem_empty (x : α) : x ∉ (∅ : SortedSet α) := Bool.false_ne_true

@[simp] theorem mem_insert {s : SortedSet α} {x y : α} : y ∈ s.insert x ↔ y = x ∨ y ∈ s := by
  show (((s.index.insert x ()).get? y).isSome = true) ↔ y = x ∨ (s.index.get? y).isSome = true
  rw [SortedMap.get?_insert]
  by_cases same : compare y x = .eq
  · simp [Std.LawfulEqOrd.eq_of_compare same]
  · have : y ≠ x := fun h => same (by simp [h])
    simp [same, this]

@[simp] theorem mem_erase {s : SortedSet α} {x y : α} : y ∈ s.erase x ↔ y ≠ x ∧ y ∈ s := by
  show (((s.index.erase x).get? y).isSome = true) ↔ y ≠ x ∧ (s.index.get? y).isSome = true
  rw [SortedMap.get?_erase]
  by_cases same : compare y x = .eq
  · simp [Std.LawfulEqOrd.eq_of_compare same]
  · have : y ≠ x := fun h => same (by simp [h])
    simp [same, this]

@[simp] theorem mem_insertMany {s : SortedSet α} {xs : List α} {y : α} :
    y ∈ s.insertMany xs ↔ y ∈ xs ∨ y ∈ s := by
  induction xs generalizing s with
  | nil => simp [insertMany]
  | cons x xs ih =>
    have step := @ih (s.insert x)
    simp only [insertMany, List.foldl_cons] at step ⊢
    rw [step]
    simp only [mem_insert, List.mem_cons]
    constructor
    · rintro (later | rfl | old)
      · exact .inl (.inr later)
      · exact .inl (.inl rfl)
      · exact .inr old
    · rintro ((rfl | later) | old)
      · exact .inr (.inl rfl)
      · exact .inl later
      · exact .inr (.inr old)

@[simp] theorem mem_eraseMany {s : SortedSet α} {xs : List α} {y : α} :
    y ∈ s.eraseMany xs ↔ y ∉ xs ∧ y ∈ s := by
  induction xs generalizing s with
  | nil => simp [eraseMany]
  | cons x xs ih =>
    have step := @ih (s.erase x)
    simp only [eraseMany, List.foldl_cons] at step ⊢
    rw [step]
    simp only [mem_erase, List.mem_cons, not_or]
    constructor
    · rintro ⟨later, different, old⟩; exact ⟨⟨different, later⟩, old⟩
    · rintro ⟨⟨different, later⟩, old⟩; exact ⟨later, different, old⟩

@[simp] theorem mem_ofList {xs : List α} {y : α} : y ∈ ofList xs ↔ y ∈ xs := by
  rw [ofList, mem_insertMany]
  exact or_iff_left (not_mem_empty y)

/-- Sets with the same members are equal. -/
theorem ext_mem {first second : SortedSet α} (agree : ∀ x, x ∈ first ↔ x ∈ second) :
    first = second := by
  have : first.index = second.index := SortedMap.ext_get? fun key => by
    have here : (first.index.get? key).isSome = true ↔ (second.index.get? key).isSome = true :=
      agree key
    cases one : first.index.get? key <;> cases two : second.index.get? key <;>
      simp_all
  cases first; cases second; cases this; rfl

end SortedSet
end Retrieval
