import Retrieval.Index.Contents
import Retrieval.Proofs.CodeIndex.Flat

/-!
Filing keeps the tables of an index in step. The codes and handles of the ids are those of one table
of entries, the buckets are its inverse image, and the codes that come and go while ids move are
noted.
-/
namespace Retrieval

/-- The handle and the code that each id has, if any. -/
abbrev Entries := String → Option (Key × Code)

namespace Entries

/-- File keys with their codes. The last of several keys with one id counts, and it replaces what
the id had before. -/
def file (entries : Entries) (hashed : List (Key × Code)) : Entries := fun id =>
  (hashed.reverse.find? fun entry => entry.1.id = id).or (entries id)

/-- Drop ids. -/
def drop (entries : Entries) (ids : List String) : Entries := fun id =>
  if id ∈ ids then none else entries id

theorem file_cons (entries : Entries) (entry : Key × Code) (rest : List (Key × Code)) :
    entries.file (entry :: rest) = (entries.file [entry]).file rest := by
  funext id
  simp only [file, List.reverse_cons, List.find?_append, List.reverse_nil, List.nil_append,
    Option.or_assoc]

theorem file_singleton (entries : Entries) (key : Key) (code : Code) (id : String) :
    entries.file [(key, code)] id = if id = key.id then some (key, code) else entries id := by
  by_cases same : id = key.id
  · simp [file, same]
  · simp [file, same, Ne.symm same]

theorem drop_cons (entries : Entries) (id : String) (rest : List String) :
    entries.drop (id :: rest) = (entries.drop [id]).drop rest := by
  funext x
  by_cases first : x = id
  · simp [drop, first]
  · simp [drop, first]

end Entries

/-- Buckets by their code. -/
abbrev Buckets := SortedMap Code (SortedSet String)

/-- Every code that goes between two states of the buckets is among `emptied`, and every code that
comes is among `fresh`. -/
structure Noted (before after : Buckets) (emptied fresh : List Code) : Prop where
  gone : ∀ code, before.contains code = true → after.contains code = false → code ∈ emptied
  come : ∀ code, before.contains code = false → after.contains code = true → code ∈ fresh

theorem Noted.refl (buckets : Buckets) : Noted buckets buckets [] [] := by
  constructor
  · intro code held absent
    rw [held] at absent
    cases absent
  · intro code absent held
    rw [absent] at held
    cases held

/-- A code that comes and goes again on the way is noted on both sides or on none. -/
theorem Noted.trans {before middle after : Buckets} {emptied fresh emptied' fresh' : List Code}
    (first : Noted before middle emptied fresh) (second : Noted middle after emptied' fresh') :
    Noted before after (emptied ++ emptied') (fresh ++ fresh') := by
  constructor
  · intro code held absent
    cases between : middle.contains code with
    | true => exact List.mem_append_right _ (second.gone code between absent)
    | false => exact List.mem_append_left _ (first.gone code held between)
  · intro code absent held
    cases between : middle.contains code with
    | true => exact List.mem_append_left _ (first.come code absent between)
    | false => exact List.mem_append_right _ (second.come code between held)

namespace Contents
variable {c : Contents} {entries : Entries}

/-- The ids filed under a code. -/
def bucketOf (c : Contents) (code : Code) : SortedSet String := (c.buckets.get? code).getD ∅

/-- The tables of ids are those of `entries`, and the buckets are the inverse image of its codes. -/
structure Filed (c : Contents) (entries : Entries) : Prop where
  handles : ∀ id, c.handles.get? id = (entries id).map (·.1)
  codes : ∀ id, c.codes.get? id = (entries id).map (·.2)
  inverse : ∀ code id, id ∈ c.bucketOf code ↔ c.codes.get? id = some code
  occupied : ∀ code, c.buckets.contains code = true → ∃ id, id ∈ c.bucketOf code

/-! Leaving a code -/

/-- Leaving changes nothing but the buckets. -/
theorem leave_frame (c : Contents) (id : String) (code : Code) :
    (c.leave id code).1 = { c with buckets := (c.leave id code).1.buckets } := by
  unfold leave
  split
  · rfl
  · dsimp only
    split <;> rfl

@[simp] theorem leave_codes (c : Contents) (id : String) (code : Code) :
    (c.leave id code).1.codes = c.codes := by
  rw [leave_frame]

@[simp] theorem leave_handles (c : Contents) (id : String) (code : Code) :
    (c.leave id code).1.handles = c.handles := by
  rw [leave_frame]

/-- What leaving does to one bucket: it loses the id, and it is dropped if nothing is left. -/
theorem get?_buckets_leave (c : Contents) (id : String) (code : Code) :
    (c.leave id code).1.buckets.get? code =
      if ((c.bucketOf code).erase id).isEmpty then none else some ((c.bucketOf code).erase id) := by
  unfold leave bucketOf
  cases found : c.buckets.get? code with
  | none =>
    have : ((∅ : SortedSet String).erase id).isEmpty = true := SortedSet.isEmpty_iff.mpr (by simp)
    simp [found, this]
  | some bucket =>
    simp only [Option.getD_some]
    cases (bucket.erase id).isEmpty
    · simp [SortedMap.get?_insert_self]
    · simp [SortedMap.get?_erase_self]

theorem get?_buckets_leave_of_ne (c : Contents) (id : String) {code other : Code}
    (different : other ≠ code) : (c.leave id code).1.buckets.get? other = c.buckets.get? other := by
  unfold leave
  split
  · rfl
  · dsimp only
    split
    · exact SortedMap.get?_erase_of_ne different
    · exact SortedMap.get?_insert_of_ne different

theorem mem_bucketOf_leave (c : Contents) (id : String) (code : Code) {other : Code} {x : String} :
    x ∈ (c.leave id code).1.bucketOf other ↔ x ∈ c.bucketOf other ∧ ¬(other = code ∧ x = id) := by
  by_cases same : other = code
  · subst same
    rw [bucketOf, get?_buckets_leave]
    split
    · rename_i empty
      have none := SortedSet.isEmpty_iff.mp empty x
      simp only [SortedSet.mem_erase] at none
      constructor
      · intro member
        exact absurd member (SortedSet.not_mem_empty x)
      · intro kept
        obtain ⟨member, other⟩ := kept
        exact absurd ⟨fun same => other ⟨rfl, same⟩, member⟩ none
    · simp [and_comm]
  · rw [bucketOf, get?_buckets_leave_of_ne c id same, ← bucketOf]
    simp [same]

theorem leave_occupied (id : String) (code : Code)
    (occupied : ∀ other, c.buckets.contains other = true → ∃ x, x ∈ c.bucketOf other) {other : Code}
    (held : (c.leave id code).1.buckets.contains other = true) :
    ∃ x, x ∈ (c.leave id code).1.bucketOf other := by
  by_cases same : other = code
  · subst same
    rw [SortedMap.contains_iff, get?_buckets_leave] at held
    rw [bucketOf, get?_buckets_leave]
    split
    · rename_i empty
      simp [empty] at held
    · rename_i some_left
      exact SortedSet.isEmpty_eq_false_iff.mp (by simpa using some_left)
  · rw [SortedMap.contains, get?_buckets_leave_of_ne c id same, ← SortedMap.contains] at held
    rw [bucketOf, get?_buckets_leave_of_ne c id same, ← bucketOf]
    exact occupied other held

theorem leave_noted (c : Contents) (id : String) (code : Code) :
    Noted c.buckets (c.leave id code).1.buckets (c.leave id code).2.toList [] := by
  have there : ∀ other, (c.leave id code).1.buckets.contains other = true →
      c.buckets.contains other = true := by
    intro other held
    by_cases same : other = code
    · subst same
      cases absent : c.buckets.get? other with
      | none => simp [SortedMap.contains, leave, absent] at held
      | some bucket => simp [SortedMap.contains, absent]
    · rwa [SortedMap.contains, get?_buckets_leave_of_ne c id same, ← SortedMap.contains] at held
  constructor
  · intro other held absent
    by_cases same : other = code
    · subst same
      obtain ⟨bucket, found⟩ := SortedMap.contains_iff.mp held
      have emptied : (bucket.erase id).isEmpty = true := by
        rw [SortedMap.contains, get?_buckets_leave, bucketOf, found, Option.getD_some] at absent
        cases left : (bucket.erase id).isEmpty with
        | true => rfl
        | false => simp [left] at absent
      simp [leave, found, emptied]
    · rw [SortedMap.contains, get?_buckets_leave_of_ne c id same, ← SortedMap.contains,
        held] at absent
      cases absent
  · intro other absent held
    rw [there other held] at absent
    cases absent

/-! Joining a code -/

theorem mem_bucketOf_join (c : Contents) (key : Key) (code : Code) {other : Code} {x : String} :
    x ∈ (c.join key code).1.bucketOf other ↔
      (other = code ∧ x = key.id) ∨ x ∈ c.bucketOf other := by
  by_cases same : other = code
  · subst same
    simp [join, bucketOf, SortedMap.get?_insert_self]
  · simp [join, bucketOf, SortedMap.get?_insert_of_ne same, same]

theorem contains_buckets_join (c : Contents) (key : Key) (code : Code) {other : Code} :
    (c.join key code).1.buckets.contains other = true ↔
      other = code ∨ c.buckets.contains other = true := by
  by_cases same : other = code
  · subst same
    simp [join, SortedMap.contains, SortedMap.get?_insert_self]
  · simp [join, SortedMap.contains, SortedMap.get?_insert_of_ne same, same]

theorem join_occupied (key : Key) (code : Code)
    (occupied : ∀ other, c.buckets.contains other = true → ∃ x, x ∈ c.bucketOf other) {other : Code}
    (held : (c.join key code).1.buckets.contains other = true) :
    ∃ x, x ∈ (c.join key code).1.bucketOf other := by
  rcases (contains_buckets_join c key code).mp held with same | old
  · exact ⟨key.id, (mem_bucketOf_join c key code).mpr (.inl ⟨same, rfl⟩)⟩
  · obtain ⟨x, member⟩ := occupied other old
    exact ⟨x, (mem_bucketOf_join c key code).mpr (.inr member)⟩

theorem join_noted (c : Contents) (key : Key) (code : Code) :
    Noted c.buckets (c.join key code).1.buckets []
      (if (c.join key code).2 then [code] else []) := by
  constructor
  · intro other held absent
    rw [(contains_buckets_join c key code).mpr (.inr held)] at absent
    cases absent
  · intro other absent held
    rcases (contains_buckets_join c key code).mp held with rfl | old
    · have missing : c.buckets.get? other = none := by
        cases found : c.buckets.get? other with
        | none => rfl
        | some bucket => simp [SortedMap.contains, found] at absent
      have fresh : (c.join key other).2 = true := by
        simp only [join, missing, Option.getD_none]
        exact SortedSet.isEmpty_iff.mpr SortedSet.not_mem_empty
      simp [fresh]
    · rw [absent] at old
      cases old

/-! Moving an id -/

/-- Vacating changes nothing but the buckets. -/
theorem vacate_frame (c : Contents) (id : String) (code : Code) :
    (c.vacate id code).1 = { c with buckets := (c.vacate id code).1.buckets } := by
  unfold vacate
  split
  · rfl
  · split
    · rfl
    · exact leave_frame c id _

/-- After vacating, the id is left under no code but the one it is to have. -/
theorem mem_bucketOf_vacate (filed : c.Filed entries) (id : String) (code : Code) {other : Code}
    {x : String} :
    x ∈ (c.vacate id code).1.bucketOf other ↔ x ∈ c.bucketOf other ∧ (x = id → other = code) := by
  have under (member : x ∈ c.bucketOf other) (same : x = id) : c.codes.get? id = some other :=
    same ▸ (filed.inverse other x).mp member
  unfold vacate
  cases present : c.codes.get? id with
  | none =>
    rw [present] at under
    constructor
    · intro member
      exact ⟨member, fun same => nomatch under member same⟩
    · exact And.left
  | some old =>
    rw [present] at under
    dsimp only
    split
    · rename_i stays
      constructor
      · intro member
        exact ⟨member, fun same => (Option.some.inj (under member same)).symm.trans stays⟩
      · exact And.left
    · rename_i moves
      rw [mem_bucketOf_leave]
      constructor
      · intro kept
        obtain ⟨member, elsewhere⟩ := kept
        refine ⟨member, fun same => ?_⟩
        exact absurd ⟨(Option.some.inj (under member same)).symm, same⟩ elsewhere
      · intro kept
        obtain ⟨member, only⟩ := kept
        refine ⟨member, ?_⟩
        intro both
        obtain ⟨rfl, same⟩ := both
        exact moves (only same)

theorem vacate_occupied (filed : c.Filed entries) (id : String) (code : Code) {other : Code}
    (held : (c.vacate id code).1.buckets.contains other = true) :
    ∃ x, x ∈ (c.vacate id code).1.bucketOf other := by
  unfold vacate at held ⊢
  cases present : c.codes.get? id with
  | none =>
    rw [present] at held
    exact filed.occupied other held
  | some old =>
    rw [present] at held
    dsimp only at held ⊢
    by_cases stays : old = code
    · rw [if_pos stays] at held ⊢
      exact filed.occupied other held
    · rw [if_neg stays] at held ⊢
      exact leave_occupied id old filed.occupied held

theorem vacate_noted (c : Contents) (id : String) (code : Code) :
    Noted c.buckets (c.vacate id code).1.buckets (c.vacate id code).2.toList [] := by
  unfold vacate
  split
  · exact .refl _
  · split
    · exact .refl _
    · exact leave_noted c id _

theorem assign_filed (filed : c.Filed entries) (key : Key) (code : Code) :
    (c.assign key code).1.Filed (entries.file [(key, code)]) := by
  have codes (x : String) : (c.assign key code).1.codes.get? x =
      if x = key.id then some code else c.codes.get? x := by
    show (((c.vacate key.id code).1.codes).insert key.id code).get? x = _
    rw [vacate_frame]
    by_cases same : x = key.id
    · rw [same, SortedMap.get?_insert_self, if_pos rfl]
    · rw [SortedMap.get?_insert_of_ne same, if_neg same]
  refine ⟨?_, ?_, ?_, ?_⟩
  · intro x
    show (((c.vacate key.id code).1.handles).insert key.id key).get? x = _
    rw [vacate_frame, Entries.file_singleton]
    by_cases same : x = key.id
    · rw [if_pos same, same, SortedMap.get?_insert_self]
      rfl
    · rw [if_neg same, SortedMap.get?_insert_of_ne same, filed.handles]
  · intro x
    rw [codes, Entries.file_singleton]
    by_cases same : x = key.id
    · rw [if_pos same, if_pos same]
      rfl
    · rw [if_neg same, if_neg same, filed.codes]
  · intro other x
    rw [codes]
    show x ∈ ((c.vacate key.id code).1.join key code).1.bucketOf other ↔ _
    rw [mem_bucketOf_join, mem_bucketOf_vacate filed, filed.inverse]
    by_cases same : x = key.id
    · subst same
      rw [if_pos rfl, Option.some.injEq]
      constructor
      · intro placed
        rcases placed with ⟨here, _⟩ | ⟨_, only⟩
        · exact here.symm
        · exact (only rfl).symm
      · rintro rfl
        exact .inl ⟨rfl, rfl⟩
    · rw [if_neg same]
      simp [same]
  · intro other held
    exact join_occupied key code (fun _ => vacate_occupied filed key.id code) held

theorem assign_noted (c : Contents) (key : Key) (code : Code) :
    Noted c.buckets (c.assign key code).1.buckets (c.assign key code).2.1.toList
      (if (c.assign key code).2.2 then [code] else []) := by
  have moved := (vacate_noted c key.id code).trans (join_noted (c.vacate key.id code).1 key code)
  rwa [List.append_nil, List.nil_append] at moved

@[simp] theorem assign_search (c : Contents) (key : Key) (code : Code) :
    (c.assign key code).1.search = c.search := by
  show (c.vacate key.id code).1.search = c.search
  rw [vacate_frame]

/-! Batches -/

theorem assignAll_filed (filed : c.Filed entries) (hashed : List (Key × Code)) :
    (c.assignAll hashed).1.Filed (entries.file hashed) := by
  induction hashed generalizing c entries with
  | nil => exact filed
  | cons entry rest ih =>
    rw [Entries.file_cons]
    exact ih (assign_filed filed entry.1 entry.2)

theorem assignAll_noted (c : Contents) (hashed : List (Key × Code)) :
    Noted c.buckets (c.assignAll hashed).1.buckets (c.assignAll hashed).2.1
      (c.assignAll hashed).2.2 := by
  induction hashed generalizing c with
  | nil => exact .refl _
  | cons entry rest ih =>
    have batch := (assign_noted c entry.1 entry.2).trans (ih (c.assign entry.1 entry.2).1)
    simp only [assignAll]
    cases fresh : (c.assign entry.1 entry.2).2.2 with
    | true => simpa [fresh] using batch
    | false => simpa [fresh] using batch

@[simp] theorem assignAll_search (c : Contents) (hashed : List (Key × Code)) :
    (c.assignAll hashed).1.search = c.search := by
  induction hashed generalizing c with
  | nil => rfl
  | cons entry rest ih =>
    exact (ih (c.assign entry.1 entry.2).1).trans (assign_search c entry.1 entry.2)

/-- Without the entry of an id, and without the id under its code, the tables are in step again. -/
theorem strike_leave_filed {id : String} {code : Code} (filed : c.Filed entries)
    (present : c.codes.get? id = some code) :
    ((c.strike id).leave id code).1.Filed (entries.drop [id]) := by
  refine ⟨?_, ?_, ?_, ?_⟩
  · intro x
    rw [leave_handles, strike]
    by_cases same : x = id
    · simp [same, SortedMap.get?_erase_self, Entries.drop]
    · simp [SortedMap.get?_erase_of_ne same, Entries.drop, same, filed.handles]
  · intro x
    rw [leave_codes, strike]
    by_cases same : x = id
    · simp [same, SortedMap.get?_erase_self, Entries.drop]
    · simp [SortedMap.get?_erase_of_ne same, Entries.drop, same, filed.codes]
  · intro other x
    rw [mem_bucketOf_leave, leave_codes]
    show x ∈ c.bucketOf other ∧ _ ↔ (c.codes.erase id).get? x = some other
    rw [filed.inverse]
    by_cases same : x = id
    · subst same
      rw [SortedMap.get?_erase_self, present]
      constructor
      · intro kept
        obtain ⟨here, elsewhere⟩ := kept
        exact absurd ⟨(Option.some.inj here).symm, rfl⟩ elsewhere
      · intro absent
        cases absent
    · rw [SortedMap.get?_erase_of_ne same]
      simp [same]
  · intro other held
    exact leave_occupied (c := c.strike id) id code filed.occupied held

theorem removeAll_filed (filed : c.Filed entries) (ids : List String) :
    (c.removeAll ids).1.Filed (entries.drop ids) := by
  induction ids generalizing c entries with
  | nil => exact filed
  | cons id rest ih =>
    rw [Entries.drop_cons]
    unfold removeAll
    cases present : c.codes.get? id with
    | none =>
      have absent : entries id = none := by
        have here := filed.codes id
        rw [present] at here
        exact Option.map_eq_none_iff.mp here.symm
      have unchanged : entries.drop [id] = entries := by
        funext x
        by_cases same : x = id
        · simp [Entries.drop, same, absent]
        · simp [Entries.drop, same]
      rw [unchanged]
      exact ih filed
    | some code => exact ih (strike_leave_filed filed present)

theorem removeAll_noted (c : Contents) (ids : List String) :
    Noted c.buckets (c.removeAll ids).1.buckets (c.removeAll ids).2.1 [] := by
  induction ids generalizing c with
  | nil => exact .refl _
  | cons id rest ih =>
    unfold removeAll
    cases c.codes.get? id with
    | none => exact ih c
    | some code =>
      exact (leave_noted (c.strike id) id code).trans (ih ((c.strike id).leave id code).1)

/-- Removing ids touches neither the search nor the flag. -/
theorem removeAll_frame (c : Contents) (ids : List String) :
    (c.removeAll ids).1.search = c.search ∧ (c.removeAll ids).1.built = c.built := by
  induction ids generalizing c with
  | nil => exact ⟨rfl, rfl⟩
  | cons id rest ih =>
    unfold removeAll
    cases c.codes.get? id with
    | none => exact ih c
    | some code =>
      have left : ((c.strike id).leave id code).1.search = c.search ∧
          ((c.strike id).leave id code).1.built = c.built := by
        rw [leave_frame]
        exact ⟨rfl, rfl⟩
      obtain ⟨search, built⟩ := ih ((c.strike id).leave id code).1
      exact ⟨search.trans left.1, built.trans left.2⟩

end Contents
end Retrieval
