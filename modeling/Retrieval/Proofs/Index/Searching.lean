import Retrieval.Proofs.Index.Filing

/-!
The search of an index holds the codes of its buckets. Once the codes that came and went are noted,
bringing the search over never fails as long as all codes have one length, whatever happened to the
buckets in between (`Contents.sync_searchable`).
-/
namespace Retrieval.Contents
variable {c : Contents}

/-- The search is sound and holds exactly the codes of the buckets, which all have `bits` bits. It
is of the kind that was set up. -/
structure Searchable (c : Contents) (bits : Nat) (scans : Bool) : Prop where
  sound : c.search.Sound
  kind : c.search.isScan = scans
  members : ∀ code, code ∈ c.search.members ↔ c.buckets.contains code = true
  lengths : ∀ code, c.buckets.contains code = true → code.length = bits

theorem Searchable.codes {bits : Nat} {scans : Bool} (searchable : c.Searchable bits scans) :
    c.search.codes = c.buckets.keys :=
  (SortedMap.keys_eq_of_ascending c.search.members.toList_ascending fun code => by
    rw [SortedSet.mem_toList, searchable.members]).symm

section
variable {before : Buckets} {emptied fresh : List Code}

/-- What is to be removed from the search: the codes of before that have no bucket any more. -/
theorem mem_gone (members : ∀ code, code ∈ c.search.members ↔ before.contains code = true)
    (noted : Noted before c.buckets emptied fresh) (code : Code) :
    code ∈ (SortedSet.ofList emptied).toList.filter (fun code =>
        !c.buckets.contains code && c.search.contains code) ↔
      before.contains code = true ∧ c.buckets.contains code = false := by
  have here : c.search.contains code = true ↔ before.contains code = true := members code
  simp only [List.mem_filter, SortedSet.mem_toList, SortedSet.mem_ofList, Bool.and_eq_true,
    Bool.not_eq_true', here]
  constructor
  · intro gone
    obtain ⟨_, absent, was⟩ := gone
    exact ⟨was, absent⟩
  · intro gone
    obtain ⟨was, absent⟩ := gone
    exact ⟨noted.gone code was absent, absent, was⟩

/-- What the search is to take up: the codes that have a bucket and had none before. -/
theorem mem_come (members : ∀ code, code ∈ c.search.members ↔ before.contains code = true)
    (noted : Noted before c.buckets emptied fresh) (code : Code) :
    code ∈ (SortedSet.ofList fresh).toList.filter (fun code =>
        c.buckets.contains code && !c.search.contains code) ↔
      before.contains code = false ∧ c.buckets.contains code = true := by
  have here : c.search.contains code = false ↔ before.contains code = false := by
    rw [← Bool.not_eq_true, ← Bool.not_eq_true]
    exact not_congr (members code)
  simp only [List.mem_filter, SortedSet.mem_toList, SortedSet.mem_ofList, Bool.and_eq_true,
    Bool.not_eq_true', here]
  constructor
  · intro come
    obtain ⟨_, is, absent⟩ := come
    exact ⟨absent, is⟩
  · intro come
    obtain ⟨absent, is⟩ := come
    exact ⟨noted.come code absent is, is, absent⟩

/-- Whatever came and went, the search can be brought over if it held the codes of before. -/
theorem sync_searchable {bits : Nat} {scans : Bool} (sound : c.search.Sound)
    (kind : c.search.isScan = scans)
    (members : ∀ code, code ∈ c.search.members ↔ before.contains code = true)
    (held : ∀ code, before.contains code = true → code.length = bits)
    (lengths : ∀ code, c.buckets.contains code = true → code.length = bits)
    (noted : Noted before c.buckets emptied fresh) :
    ∃ search, c.sync emptied fresh = ({ c with search := search }, .ok ()) ∧
      Searchable { c with search := search } bits scans := by
  have gone := mem_gone members noted
  have come := mem_come members noted
  unfold sync
  dsimp only
  generalize (SortedSet.ofList emptied).toList.filter (fun code =>
    !c.buckets.contains code && c.search.contains code) = going at gone ⊢
  generalize (SortedSet.ofList fresh).toList.filter (fun code =>
    c.buckets.contains code && !c.search.contains code) = coming at come ⊢
  -- The search is left alone when there is nothing to remove or to take up.
  obtain ⟨rest, removed, restSound, restKind, restMembers⟩ : ∃ rest,
      (if going.isEmpty then .ok c.search else c.search.remove going) = Except.ok rest ∧
        rest.Sound ∧ rest.isScan = c.search.isScan ∧
        ∀ code, code ∈ rest.members ↔ code ∉ going ∧ code ∈ c.search.members := by
    cases going with
    | nil => exact ⟨c.search, rfl, sound, rfl, by simp⟩
    | cons code more =>
      exact CodeIndex.exists_remove sound fun x member => (members x).mpr ((gone x).mp member).1
  obtain ⟨search, updated, searchSound, searchKind, searchMembers⟩ : ∃ search,
      (if coming.isEmpty then .ok rest else rest.update coming) = Except.ok search ∧
        search.Sound ∧ search.isScan = rest.isScan ∧
        ∀ code, code ∈ search.members ↔ code ∈ coming ∨ code ∈ rest.members := by
    cases coming with
    | nil => exact ⟨rest, rfl, restSound, rfl, by simp⟩
    | cons code more =>
      refine CodeIndex.exists_update restSound ?_ fun x member => lengths x ((come x).mp member).2
      exact fun x member => held x ((members x).mp ((restMembers x).mp member).2)
  refine ⟨search, by rw [removed]; dsimp only; rw [updated], searchSound,
    (searchKind.trans restKind).trans kind, ?_, lengths⟩
  intro code
  rw [searchMembers, restMembers, members, come, gone]
  show _ ↔ c.buckets.contains code = true
  cases before.contains code <;> cases c.buckets.contains code <;> simp

end

/-- A search planted anew holds the codes of the buckets. -/
theorem plant_searchable {bits : Nat} {scans : Bool} (kind : c.search.isScan = scans)
    (lengths : ∀ code, c.buckets.contains code = true → code.length = bits) :
    ∃ search, c.plant = .ok { c with search := search, built := true } ∧
      Searchable { c with search := search, built := true } bits scans := by
  obtain ⟨search, built, sound, kept, members⟩ := CodeIndex.exists_build c.search
    fun code member => lengths code (SortedMap.mem_keys.mp member)
  refine ⟨search, by simp only [plant, built]; rfl, sound, kept.trans kind, ?_, lengths⟩
  intro code
  rw [members, SortedMap.mem_keys]

end Retrieval.Contents
