import Retrieval.Proofs.Index.Loading

/-!
The tables of an index stay those of one table of entries through every call, whatever codes its
hasher gives and whether the call fails or not (`Index.run_tabled`): only the search can fall
behind. So the ids that are indexed are those that have a handle, and each handle has its own id.
-/
namespace Retrieval

namespace Contents
variable {c : Contents} {entries : Entries}

/-- The tables are those of some entries, whose handles have their own ids. -/
def Tabled (c : Contents) : Prop := ∃ entries : Entries, c.Filed entries ∧ entries.Named

/-- Neither the search nor the flag is one of the tables. -/
theorem Tabled.elsewhere (tabled : c.Tabled) (search : CodeIndex) (built : Bool) :
    Tabled { c with search := search, built := built } := by
  obtain ⟨entries, filed, named⟩ := tabled
  exact ⟨entries, ⟨filed.handles, filed.codes, filed.inverse, filed.occupied⟩, named⟩

theorem empty_tabled {kind : CodeSearch} (made : empty kind = .ok c) : c.Tabled := by
  unfold empty at made
  cases created : kind.create with
  | error e =>
    rw [created] at made
    cases made
  | ok search =>
    rw [created] at made
    cases made
    exact ⟨.none, filed_nothing search, Entries.none_named⟩

theorem assignAll_tabled (tabled : c.Tabled) (hashed : List (Key × Code)) :
    (c.assignAll hashed).1.Tabled := by
  obtain ⟨entries, filed, named⟩ := tabled
  exact ⟨entries.file hashed, assignAll_filed filed hashed, Entries.file_named named hashed⟩

theorem removeAll_tabled (tabled : c.Tabled) (ids : List String) : (c.removeAll ids).1.Tabled := by
  obtain ⟨entries, filed, named⟩ := tabled
  exact ⟨entries.drop ids, removeAll_filed filed ids, Entries.drop_named named ids⟩

theorem adopt_tabled {artifact : Artifact} (valid : artifact.Valid) (label : String)
    (contents : Contents) : (Index.adopt contents artifact label).Tabled :=
  ⟨_, Index.adopt_filed valid label contents, Entries.file_named Entries.none_named _⟩

/-- Bringing the search over changes nothing but the search, even if it is broken off. -/
theorem sync_frame (c : Contents) (emptied fresh : List Code) :
    (c.sync emptied fresh).1 = { c with search := (c.sync emptied fresh).1.search } := by
  unfold sync
  dsimp only
  split
  · rfl
  · split <;> rfl

theorem sync_tabled (tabled : c.Tabled) (emptied fresh : List Code) :
    (c.sync emptied fresh).1.Tabled := by
  rw [sync_frame]
  exact tabled.elsewhere _ c.built

theorem plant_tabled (tabled : c.Tabled) {planted : Contents} (done : c.plant = .ok planted) :
    planted.Tabled := by
  unfold plant at done
  cases built : c.search.build c.buckets.keys with
  | error e =>
    rw [built] at done
    cases done
  | ok search =>
    rw [built] at done
    cases done
    exact tabled.elsewhere search true

end Contents

namespace Index
variable {ix : Index}

theorem build_tabled {after : Index} {read : ReadVector} {keys : List Key}
    (done : ix.build read keys = .ok after) : after.contents.Tabled := by
  unfold build at done
  dsimp only at done
  split at done
  · cases done
  · obtain ⟨hashed, _, done⟩ := exists_of_bind_ok done
    obtain ⟨staged, made, done⟩ := exists_of_bind_ok done
    obtain ⟨contents, planted, done⟩ := exists_of_bind_ok done
    cases done
    have filled := Contents.assignAll_tabled (Contents.empty_tabled made) hashed
    exact Contents.plant_tabled filled planted

theorem update_tabled (tabled : ix.contents.Tabled) (read : ReadVector) (keys : List Key) :
    (ix.update read keys).1.contents.Tabled := by
  unfold update
  cases hashes : ix.hasher.hashAll read keys with
  | error e => exact tabled
  | ok hashed =>
    have filled := Contents.assignAll_tabled tabled hashed
    have synced := Contents.sync_tabled filled (ix.contents.assignAll hashed).2.1
      (ix.contents.assignAll hashed).2.2
    dsimp only
    split
    · rename_i contents e refused
      rw [refused] at synced
      exact synced
    · rename_i contents taken
      rw [taken] at synced
      exact synced.elsewhere contents.search true

theorem remove_tabled (tabled : ix.contents.Tabled) (ids : List String) :
    (ix.remove ids).1.contents.Tabled := by
  unfold remove
  split
  · exact tabled
  · have struck := Contents.removeAll_tabled tabled ids
    have synced := Contents.sync_tabled struck (ix.contents.removeAll ids).2.1 []
    dsimp only
    split
    · rename_i contents e refused
      rw [refused] at synced
      exact synced
    · rename_i contents taken
      rw [taken] at synced
      exact synced

theorem reset_tabled {after : Index} (done : ix.reset = .ok after) : after.contents.Tabled := by
  unfold reset at done
  cases made : Contents.empty ix.settings.search with
  | error e =>
    rw [made] at done
    cases done
  | ok contents =>
    rw [made] at done
    cases done
    exact Contents.empty_tabled made

theorem load_tabled {after : Index} {artifact : Artifact} {label : String}
    (loaded : ix.load artifact label = .ok after) : after.contents.Tabled := by
  unfold load at loaded
  obtain ⟨valid, loaded⟩ := check_ok_iff.mp loaded
  dsimp only at loaded
  split at loaded
  · cases loaded
  · obtain ⟨empty, _, loaded⟩ := exists_of_bind_ok loaded
    obtain ⟨contents, planted, loaded⟩ := exists_of_bind_ok loaded
    split at loaded
    · cases loaded
    · cases loaded
      have adopted := Contents.adopt_tabled (Artifact.validate_ok_iff.mp valid) label empty
      exact Contents.plant_tabled adopted planted

theorem settle_tabled (tabled : ix.contents.Tabled) {change : Except Error Index}
    (changed : ∀ after, change = .ok after → after.contents.Tabled) :
    (ix.settle change).1.contents.Tabled := by
  cases change with
  | error e => exact tabled
  | ok after => exact changed after rfl

theorem step_tabled (tabled : ix.contents.Tabled) (call : IndexCall) :
    (ix.step call).1.contents.Tabled := by
  cases call with
  | build read keys => exact settle_tabled tabled fun after done => build_tabled done
  | update read keys => exact update_tabled tabled read keys
  | remove ids => exact remove_tabled tabled ids
  | reset => exact settle_tabled tabled fun after done => reset_tabled done
  | load artifact label => exact settle_tabled tabled fun after loaded => load_tabled loaded

theorem run_tabled (tabled : ix.contents.Tabled) (calls : List IndexCall) :
    (ix.run calls).1.contents.Tabled := by
  induction calls generalizing ix with
  | nil => exact tabled
  | cons call rest ih => exact ih (step_tabled tabled call)

theorem create_tabled {hasher : Hasher} {settings : IndexSettings} {metrics : Bool}
    (created : Index.create hasher settings metrics = .ok ix) : ix.contents.Tabled := by
  unfold create at created
  obtain ⟨_, _, created⟩ := exists_of_bind_ok created
  dsimp only at created
  split at created
  · cases created
  · obtain ⟨contents, made, created⟩ := exists_of_bind_ok created
    cases created
    exact Contents.empty_tabled made

/-- An index holds what calls have made of a new one; queries, which are no calls, only count. -/
def Reached (ix : Index) : Prop :=
  ∃ (hasher : Hasher) (settings : IndexSettings) (metrics : Bool) (made : Index)
    (calls : List IndexCall), create hasher settings metrics = .ok made ∧
      ix.contents = (made.run calls).1.contents

theorem Reached.tabled (reached : ix.Reached) : ix.contents.Tabled := by
  obtain ⟨_, _, _, made, calls, created, same⟩ := reached
  rw [same]
  exact run_tabled (create_tabled created) calls

/-- An id is indexed or not: it has a handle, which is its own, or there is none. -/
theorem handle_cases (tabled : ix.contents.Tabled) (id : String) :
    (∃ key, ix.handle id = .ok key ∧ key.id = id ∧ ix.contains id = true) ∨
      ix.handle id = .error (.notFound indexSpace id) ∧ ix.contains id = false := by
  obtain ⟨entries, filed, named⟩ := tabled
  unfold handle contains SortedMap.contains
  rw [filed.handles, filed.codes]
  cases entry : entries id with
  | none => exact .inr ⟨rfl, rfl⟩
  | some entry' => exact .inl ⟨entry'.1, rfl, named id entry'.1 entry'.2 entry, rfl⟩

end Index
end Retrieval
