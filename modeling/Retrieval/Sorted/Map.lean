/-!
Finite maps kept as ascending lists of entries, one entry per key. The list form is canonical:
two maps that answer every lookup alike are equal (`SortedMap.ext_get?`).
-/
namespace Retrieval

/-- A finite map whose entries ascend strictly by key. -/
structure SortedMap (κ ν : Type) [Ord κ] where
  entries : List (κ × ν)
  ascending : entries.Pairwise fun a b => compare a.1 b.1 = .lt

namespace SortedMap
variable {κ ν : Type} [Ord κ]

instance [DecidableEq κ] [DecidableEq ν] : DecidableEq (SortedMap κ ν) := fun a b =>
  if same : a.entries = b.entries then
    .isTrue (by cases a; cases b; cases same; rfl)
  else .isFalse fun h => same (congrArg entries h)

def empty : SortedMap κ ν := ⟨[], .nil⟩

instance : EmptyCollection (SortedMap κ ν) := ⟨empty⟩
instance : Inhabited (SortedMap κ ν) := ⟨empty⟩

private def findEntry (key : κ) : List (κ × ν) → Option ν
  | [] => none
  | (k, v) :: rest =>
    match compare key k with
    | .lt => none
    | .eq => some v
    | .gt => findEntry key rest

/-- The value filed under `key`. -/
def get? (m : SortedMap κ ν) (key : κ) : Option ν := findEntry key m.entries

def contains (m : SortedMap κ ν) (key : κ) : Bool := (m.get? key).isSome

def keys (m : SortedMap κ ν) : List κ := m.entries.map (·.1)

def values (m : SortedMap κ ν) : List ν := m.entries.map (·.2)

def size (m : SortedMap κ ν) : Nat := m.entries.length

def isEmpty (m : SortedMap κ ν) : Bool := m.entries.isEmpty

private def insertEntry (key : κ) (value : ν) : List (κ × ν) → List (κ × ν)
  | [] => [(key, value)]
  | (k, v) :: rest =>
    match compare key k with
    | .lt => (key, value) :: (k, v) :: rest
    | .eq => (key, value) :: rest
    | .gt => (k, v) :: insertEntry key value rest

private def eraseEntry (key : κ) : List (κ × ν) → List (κ × ν)
  | [] => []
  | (k, v) :: rest =>
    match compare key k with
    | .lt => (k, v) :: rest
    | .eq => rest
    | .gt => (k, v) :: eraseEntry key rest

private theorem mem_insertEntry {key : κ} {value : ν} {entry : κ × ν} :
    {list : List (κ × ν)} → entry ∈ insertEntry key value list → entry = (key, value) ∨ entry ∈ list
  | [], member => by simpa [insertEntry] using member
  | (k, v) :: rest, member => by
    unfold insertEntry at member
    split at member
    · simpa using member
    · rcases List.mem_cons.1 member with same | later
      · exact .inl same
      · exact .inr (List.mem_cons_of_mem _ later)
    · rcases List.mem_cons.1 member with same | later
      · exact .inr (same ▸ List.mem_cons_self)
      · rcases mem_insertEntry later with same | old
        · exact .inl same
        · exact .inr (List.mem_cons_of_mem _ old)

private theorem mem_of_mem_eraseEntry {key : κ} {entry : κ × ν} :
    {list : List (κ × ν)} → entry ∈ eraseEntry key list → entry ∈ list
  | [], member => by simp [eraseEntry] at member
  | (k, v) :: rest, member => by
    unfold eraseEntry at member
    split at member
    · exact member
    · exact List.mem_cons_of_mem _ member
    · rcases List.mem_cons.1 member with same | later
      · exact same ▸ List.mem_cons_self
      · exact List.mem_cons_of_mem _ (mem_of_mem_eraseEntry later)

private theorem insertEntry_ascending [Std.TransOrd κ] {key : κ} {value : ν} :
    {list : List (κ × ν)} → list.Pairwise (fun a b => compare a.1 b.1 = .lt) →
      (insertEntry key value list).Pairwise fun a b => compare a.1 b.1 = .lt
  | [], _ => by simp [insertEntry]
  | (k, v) :: rest, ascending => by
    have split_list := List.pairwise_cons.1 ascending
    unfold insertEntry
    split
    · rename_i before
      refine List.pairwise_cons.2 ⟨fun entry member => ?_, ascending⟩
      rcases List.mem_cons.1 member with same | later
      · exact same ▸ before
      · exact Std.TransCmp.lt_trans before (split_list.1 entry later)
    · rename_i same
      refine List.pairwise_cons.2 ⟨fun entry member => ?_, split_list.2⟩
      exact Std.TransCmp.lt_of_eq_of_lt same (split_list.1 entry member)
    · rename_i after
      refine List.pairwise_cons.2 ⟨fun entry member => ?_, insertEntry_ascending split_list.2⟩
      rcases mem_insertEntry member with same | old
      · exact same ▸ Std.OrientedCmp.gt_iff_lt.1 after
      · exact split_list.1 entry old

private theorem eraseEntry_ascending {key : κ} :
    {list : List (κ × ν)} → list.Pairwise (fun a b => compare a.1 b.1 = .lt) →
      (eraseEntry key list).Pairwise fun a b => compare a.1 b.1 = .lt
  | [], _ => by simp [eraseEntry]
  | (k, v) :: rest, ascending => by
    have split_list := List.pairwise_cons.1 ascending
    unfold eraseEntry
    split
    · exact ascending
    · exact split_list.2
    · exact List.pairwise_cons.2
        ⟨fun entry member => split_list.1 entry (mem_of_mem_eraseEntry member),
          eraseEntry_ascending split_list.2⟩

variable [Std.TransOrd κ]

/-- File `value` under `key`, replacing what was there. -/
def insert (m : SortedMap κ ν) (key : κ) (value : ν) : SortedMap κ ν :=
  ⟨insertEntry key value m.entries, insertEntry_ascending m.ascending⟩

/-- Drop whatever is filed under `key`. -/
def erase (m : SortedMap κ ν) (key : κ) : SortedMap κ ν :=
  ⟨eraseEntry key m.entries, eraseEntry_ascending m.ascending⟩

/-- Later entries win over earlier ones with the same key. -/
def ofList (entries : List (κ × ν)) : SortedMap κ ν :=
  entries.foldl (fun m entry => m.insert entry.1 entry.2) empty

omit [Std.TransOrd κ] in
@[simp] theorem get?_empty (key : κ) : (empty : SortedMap κ ν).get? key = none := rfl

omit [Std.TransOrd κ] in
private theorem findEntry_eq_none {key : κ} :
    {list : List (κ × ν)} → (∀ entry ∈ list, compare key entry.1 = .lt) →
      findEntry key list = none
  | [], _ => rfl
  | (k, v) :: rest, below => by
    simp [findEntry, below (k, v) List.mem_cons_self]

private theorem findEntry_insertEntry [Std.LawfulEqOrd κ] (key other : κ) (value : ν) :
    (list : List (κ × ν)) →
      findEntry other (insertEntry key value list) =
        if compare other key = .eq then some value else findEntry other list
  | [] => by
    simp only [insertEntry, findEntry]
    cases order : compare other key <;> simp
  | (k, v) :: rest => by
    have later := findEntry_insertEntry key other value rest
    unfold insertEntry
    split
    · rename_i before
      cases order : compare other key with
      | lt =>
        simp [findEntry, order, Std.TransCmp.lt_trans order before]
      | eq => simp [findEntry, order]
      | gt => simp [findEntry, order]
    · rename_i same
      cases Std.LawfulEqOrd.eq_of_compare same
      cases order : compare other key <;> simp [findEntry, order]
    · rename_i after
      have behind : compare k key = .lt := Std.OrientedCmp.gt_iff_lt.1 after
      cases order : compare other k with
      | lt =>
        have : compare other key = .lt := Std.TransCmp.lt_trans order behind
        simp [findEntry, order, this]
      | eq =>
        have : compare other key = .lt := Std.TransCmp.lt_of_eq_of_lt order behind
        simp [findEntry, order, this]
      | gt => simp [findEntry, order, later]

/-- A lookup after filing sees the new value under its key and the old ones elsewhere. -/
theorem get?_insert [Std.LawfulEqOrd κ] (m : SortedMap κ ν) (key other : κ) (value : ν) :
    (m.insert key value).get? other =
      if compare other key = .eq then some value else m.get? other :=
  findEntry_insertEntry key other value m.entries

private theorem findEntry_eraseEntry [Std.LawfulEqOrd κ] (key other : κ) :
    (list : List (κ × ν)) → list.Pairwise (fun a b => compare a.1 b.1 = .lt) →
      findEntry other (eraseEntry key list) =
        if compare other key = .eq then none else findEntry other list
  | [], _ => by simp [eraseEntry, findEntry]
  | (k, v) :: rest, ascending => by
    have split_list := List.pairwise_cons.1 ascending
    have later := findEntry_eraseEntry key other rest split_list.2
    unfold eraseEntry
    split
    · rename_i before
      cases order : compare other key with
      | eq => simp [findEntry, Std.TransCmp.lt_of_eq_of_lt order before]
      | lt => simp
      | gt => simp
    · rename_i same
      cases Std.LawfulEqOrd.eq_of_compare same
      have above : ∀ entry ∈ rest, compare key entry.1 = .lt := split_list.1
      cases order : compare other key with
      | lt =>
        have : findEntry other rest = none := findEntry_eq_none fun entry member =>
          Std.TransCmp.lt_trans order (above entry member)
        simp [findEntry, order, this]
      | eq =>
        cases Std.LawfulEqOrd.eq_of_compare order
        simp [findEntry_eq_none above]
      | gt => simp [findEntry, order]
    · rename_i after
      have behind : compare k key = .lt := Std.OrientedCmp.gt_iff_lt.1 after
      cases order : compare other k with
      | lt =>
        have : compare other key = .lt := Std.TransCmp.lt_trans order behind
        simp [findEntry, order, this]
      | eq =>
        have : compare other key = .lt := Std.TransCmp.lt_of_eq_of_lt order behind
        simp [findEntry, order, this]
      | gt => simp [findEntry, order, later]

/-- A lookup after dropping misses the dropped key and sees the old values elsewhere. -/
theorem get?_erase [Std.LawfulEqOrd κ] (m : SortedMap κ ν) (key other : κ) :
    (m.erase key).get? other = if compare other key = .eq then none else m.get? other :=
  findEntry_eraseEntry key other m.entries m.ascending

private theorem findEntry_eq_some_iff [Std.LawfulEqOrd κ] {key : κ} {value : ν} :
    {list : List (κ × ν)} → list.Pairwise (fun a b => compare a.1 b.1 = .lt) →
      (findEntry key list = some value ↔ (key, value) ∈ list)
  | [], _ => by simp [findEntry]
  | (k, v) :: rest, ascending => by
    have split_list := List.pairwise_cons.1 ascending
    have later : findEntry key rest = some value ↔ (key, value) ∈ rest :=
      findEntry_eq_some_iff split_list.2
    unfold findEntry
    split
    · rename_i before
      have : (key, value) ∉ (k, v) :: rest := fun member => by
        rcases List.mem_cons.1 member with same | old
        · cases same; simp at before
        · have := Std.TransCmp.lt_trans before (split_list.1 _ old)
          simp at this
      simp [this]
    · rename_i same
      cases Std.LawfulEqOrd.eq_of_compare same
      have : (key, value) ∉ rest := fun member => by
        have := split_list.1 _ member
        simp at this
      simp [this, eq_comm]
    · rename_i after
      have : key ≠ k := fun same => by cases same; simp at after
      simp [this, later]

/-- The entries are exactly the pairs that a lookup answers. -/
theorem mem_entries_iff [Std.LawfulEqOrd κ] {m : SortedMap κ ν} {key : κ} {value : ν} :
    (key, value) ∈ m.entries ↔ m.get? key = some value :=
  (findEntry_eq_some_iff m.ascending).symm

private theorem entries_eq_of_findEntry [Std.LawfulEqOrd κ] :
    {first second : List (κ × ν)} → first.Pairwise (fun a b => compare a.1 b.1 = .lt) →
      second.Pairwise (fun a b => compare a.1 b.1 = .lt) →
      (∀ key, findEntry key first = findEntry key second) → first = second
  | [], [], _, _, _ => rfl
  | [], (k, v) :: rest, _, _, agree => by simpa [findEntry] using agree k
  | (k, v) :: rest, [], _, _, agree => by simpa [findEntry] using agree k
  | (k, v) :: rest, (k', v') :: rest', ascending, ascending', agree => by
    have split_list := List.pairwise_cons.1 ascending
    have split_list' := List.pairwise_cons.1 ascending'
    cases order : compare k k' with
    | lt => simpa [findEntry, order] using agree k
    | gt =>
      have order' : compare k' k = .lt := Std.OrientedCmp.gt_iff_lt.1 order
      simpa [findEntry, order'] using agree k'
    | eq =>
      cases Std.LawfulEqOrd.eq_of_compare order
      have value : v = v' := by simpa [findEntry] using agree k
      subst value
      refine congrArg _ (entries_eq_of_findEntry split_list.2 split_list'.2 fun key => ?_)
      have here := agree key
      cases place : compare key k with
      | lt =>
        rw [findEntry_eq_none fun entry member =>
            Std.TransCmp.lt_trans place (split_list.1 entry member),
          findEntry_eq_none fun entry member =>
            Std.TransCmp.lt_trans place (split_list'.1 entry member)]
      | eq =>
        cases Std.LawfulEqOrd.eq_of_compare place
        rw [findEntry_eq_none split_list.1, findEntry_eq_none split_list'.1]
      | gt => simpa [findEntry, place] using here

/-- Maps that answer every lookup alike are equal. -/
theorem ext_get? [Std.LawfulEqOrd κ] {first second : SortedMap κ ν}
    (agree : ∀ key, first.get? key = second.get? key) : first = second := by
  have := entries_eq_of_findEntry first.ascending second.ascending agree
  cases first; cases second; cases this; rfl

end SortedMap
end Retrieval
