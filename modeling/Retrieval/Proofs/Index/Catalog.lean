import Retrieval.Index.Transfer
import Retrieval.Proofs.Index.Searching
import Retrieval.Proofs.Traversal

/-!
To its callers an index is a catalog: a table of entries and a flag that tells whether it was built.
Every call of an index does to its catalog what `Catalog.attempt` says, also if it fails, and the
four tables that an index keeps are in step after any calls (`Index.run_represents`).
-/
namespace Retrieval

/-- A change to what is indexed. Reading belongs to the call, for what is stored may change between
two of them. -/
inductive IndexCall where
  | build (read : ReadVector) (keys : List Key)
  | update (read : ReadVector) (keys : List Key)
  | remove (ids : List String)
  | reset
  | load (artifact : Artifact) (label : String)

namespace Entries
variable {entries : Entries}

def none : Entries := fun _ => .none

/-- Handles are filed under their own ids. -/
def Named (entries : Entries) : Prop := ∀ id key code, entries id = some (key, code) → key.id = id

theorem none_named : none.Named := nofun

theorem file_named (named : entries.Named) (hashed : List (Key × Code)) :
    (entries.file hashed).Named := by
  intro id key code found
  rcases Option.or_eq_some_iff.mp found with last | ⟨_, old⟩
  · simpa using List.find?_some last
  · exact named id key code old

/-- What is left of a table was there before. -/
theorem of_drop {ids : List String} {id : String} {entry : Key × Code}
    (left : entries.drop ids id = some entry) : entries id = some entry := by
  unfold drop at left
  split at left
  · cases left
  · exact left

theorem drop_named (named : entries.Named) (ids : List String) : (entries.drop ids).Named :=
  fun id key code left => named id key code (of_drop left)

/-- Handles are filed under their own ids, with codes of `bits` bits. -/
def Proper (entries : Entries) (bits : Nat) : Prop :=
  ∀ id key code, entries id = some (key, code) → key.id = id ∧ code.length = bits

theorem Proper.named {bits : Nat} (proper : entries.Proper bits) : entries.Named :=
  fun id key code found => (proper id key code found).1

theorem none_proper (bits : Nat) : none.Proper bits := by
  intro id key code found
  cases found

theorem file_proper {bits : Nat} {hashed : List (Key × Code)} (proper : entries.Proper bits)
    (lengths : ∀ entry ∈ hashed, entry.2.length = bits) : (entries.file hashed).Proper bits := by
  intro id key code found
  refine ⟨file_named proper.named hashed id key code found, ?_⟩
  rcases Option.or_eq_some_iff.mp found with last | ⟨_, old⟩
  · exact lengths (key, code) (List.mem_reverse.mp (List.mem_of_find?_eq_some last))
  · exact (proper id key code old).2

theorem drop_proper {bits : Nat} (proper : entries.Proper bits) (ids : List String) :
    (entries.drop ids).Proper bits :=
  fun id key code left => proper id key code (of_drop left)

end Entries

structure Catalog where
  built : Bool
  entries : Entries

namespace Catalog

def empty : Catalog := ⟨false, .none⟩

/-- What a call makes of a catalog, or why it is refused. -/
def attempt (hasher : Hasher) (catalog : Catalog) : IndexCall → Except Error Catalog
  | .build read keys =>
    if catalog.built then .error (.invalidState .alreadyBuilt)
    else (hasher.hashAll read keys).map fun hashed => ⟨true, Entries.none.file hashed⟩
  | .update read keys =>
    (hasher.hashAll read keys).map fun hashed => ⟨true, catalog.entries.file hashed⟩
  | .remove ids =>
    match ids.find? fun id => (catalog.entries id).isNone with
    | some missing => .error (.notFound indexSpace missing)
    | none => .ok ⟨catalog.built, catalog.entries.drop ids⟩
  | .reset => .ok empty
  | .load artifact label =>
    match artifact.validate with
    | .error e => .error e
    | .ok () =>
      if artifact.bitLength ≠ hasher.bits then
        .error (.invalidConfig (.artifactForOtherFunctor artifact.bitLength hasher.bits))
      else if catalog.built then .error (.invalidState .loadIntoBuilt)
      else .ok ⟨true, Entries.none.file (Index.handlesOf artifact label)⟩

/-- Make a call; one that is refused leaves the catalog as it is. -/
def step (hasher : Hasher) (catalog : Catalog) (call : IndexCall) : Catalog × Except Error Unit :=
  match catalog.attempt hasher call with
  | .ok after => (after, .ok ())
  | .error e => (catalog, .error e)

/-- Make calls one after the other and answer what came of each. -/
def run (hasher : Hasher) (catalog : Catalog) : List IndexCall → Catalog × List (Except Error Unit)
  | [] => (catalog, [])
  | call :: rest =>
    let after := catalog.step hasher call
    let later := after.1.run hasher rest
    (later.1, after.2 :: later.2)

end Catalog

/-- Without any entries there is nothing in the tables. -/
theorem Contents.filed_nothing (search : CodeIndex) :
    Contents.Filed ⟨false, ∅, ∅, ∅, search⟩ .none := by
  refine ⟨fun _ => rfl, fun _ => rfl, ?_, ?_⟩
  · intro code id
    constructor
    · intro member
      exact absurd member (SortedSet.not_mem_empty id)
    · intro found
      cases found
  · intro code held
    cases held

namespace Index
variable {ix : Index} {catalog : Catalog}

def step (ix : Index) : IndexCall → Index × Except Error Unit
  | .build read keys => ix.settle (ix.build read keys)
  | .update read keys => ix.update read keys
  | .remove ids => ix.remove ids
  | .reset => ix.settle ix.reset
  | .load artifact label => ix.settle (ix.load artifact label)

/-- Make calls one after the other and answer what came of each. -/
def run (ix : Index) : List IndexCall → Index × List (Except Error Unit)
  | [] => (ix, [])
  | call :: rest =>
    let after := ix.step call
    let later := after.1.run rest
    (later.1, after.2 :: later.2)

/-- The tables of an index are those of a catalog: handles and codes are those of its entries, the
buckets are the inverse image of the codes, and the search of the kind that was set up holds the
codes of the buckets. -/
structure Represents (ix : Index) (catalog : Catalog) : Prop where
  built : ix.contents.built = catalog.built
  filed : ix.contents.Filed catalog.entries
  proper : catalog.entries.Proper ix.hasher.bits
  searchable : ix.contents.Searchable ix.hasher.bits (ix.settings.search = .linear)
  valid : ix.settings.validate = .ok ()

/-- An index follows a catalog through a call: both are refused alike, the index staying as it is,
or it has the tables of the catalog after the call. -/
def Follows (ix : Index) (after : Index × Except Error Unit) : Except Error Catalog → Prop
  | .ok catalog => after.2 = .ok () ∧ after.1.Represents catalog ∧ after.1.hasher = ix.hasher ∧
      after.1.settings = ix.settings
  | .error e => after = (ix, .error e)

theorem hashAll_lengths {hasher : Hasher} (faithful : hasher.Faithful) {read : ReadVector}
    {keys : List Key} {hashed : List (Key × Code)} (done : hasher.hashAll read keys = .ok hashed) :
    ∀ entry ∈ hashed, entry.2.length = hasher.bits := by
  intro entry member
  obtain ⟨key, _, made⟩ := exists_of_mapM_ok done member
  cases vector : read key with
  | error e =>
    rw [vector] at made
    cases made
  | ok v =>
    cases code : hasher.hash v with
    | error e =>
      simp only [vector, code, bind, Except.bind] at made
      cases made
    | ok c =>
      simp only [vector, code, bind, Except.bind] at made
      cases made
      exact faithful v c code

/-- Settings that passed their check set up an index without any entries. -/
theorem exists_empty {settings : IndexSettings} (valid : settings.validate = .ok ()) (bits : Nat) :
    ∃ contents, Contents.empty settings.search = .ok contents ∧ contents.built = false ∧
      contents.Filed .none ∧ contents.Searchable bits (settings.search = .linear) := by
  have searchable {search : CodeIndex} (sound : search.Sound)
      (none : ∀ code, code ∉ search.members) :
      Contents.Searchable ⟨false, ∅, ∅, ∅, search⟩ bits search.isScan := by
    refine ⟨sound, rfl, ?_, ?_⟩
    · intro code
      exact iff_of_false (none code) Bool.false_ne_true
    · intro code held
      cases held
  cases kind : settings.search with
  | linear =>
    have sound : (CodeIndex.scan .empty).Sound := LengthOf.empty
    exact ⟨_, rfl, rfl, Contents.filed_nothing _, searchable sound SortedSet.not_mem_empty⟩
  | ballTree leafSize =>
    have usable : leafSize ≠ 0 := by
      rintro rfl
      rw [IndexSettings.validate, kind, if_pos rfl] at valid
      split at valid <;> cases valid
    have sound : (CodeIndex.tree (.empty leafSize)).Sound := BallTree.empty_sound leafSize
    refine ⟨⟨false, ∅, ∅, ∅, .tree (.empty leafSize)⟩, ?_, rfl, Contents.filed_nothing _,
      searchable sound SortedSet.not_mem_empty⟩
    simp [Contents.empty, CodeSearch.create, BallTree.create, usable, Except.map]

/-- Codes of entries have the length of codes, so those of the buckets do. -/
theorem lengths_of_filed {contents : Contents} {entries : Entries} {bits : Nat}
    (filed : contents.Filed entries) (proper : entries.Proper bits) :
    ∀ code, contents.buckets.contains code = true → code.length = bits := by
  intro code held
  obtain ⟨id, member⟩ := filed.occupied code held
  have found := (filed.inverse code id).mp member
  rw [filed.codes] at found
  obtain ⟨⟨key, code⟩, entry, rfl⟩ := Option.map_eq_some_iff.mp found
  exact (proper id key code entry).2

theorem build_follows (faithful : ix.hasher.Faithful) (represents : ix.Represents catalog)
    (read : ReadVector) (keys : List Key) :
    ix.Follows (ix.step (.build read keys)) (catalog.attempt ix.hasher (.build read keys)) := by
  simp only [step, build, Catalog.attempt, ← represents.built]
  cases built : ix.contents.built with
  | true => rfl
  | false =>
    cases hashed : ix.hasher.hashAll read keys with
    | error e => rfl
    | ok entries =>
      obtain ⟨staged, empty, _, filed, start⟩ := exists_empty represents.valid ix.hasher.bits
      have filed := Contents.assignAll_filed filed entries
      have proper := Entries.file_proper (Entries.none_proper _) (hashAll_lengths faithful hashed)
      have kept := Contents.assignAll_search staged entries
      obtain ⟨search, planted, searchable⟩ :=
        Contents.plant_searchable (kept ▸ start.kind) (lengths_of_filed filed proper)
      simp only [bind, Except.bind, empty, planted]
      refine ⟨rfl, ⟨rfl, ?_, proper, searchable, represents.valid⟩, rfl, rfl⟩
      exact ⟨filed.handles, filed.codes, filed.inverse, filed.occupied⟩

theorem update_follows (faithful : ix.hasher.Faithful) (represents : ix.Represents catalog)
    (read : ReadVector) (keys : List Key) :
    ix.Follows (ix.step (.update read keys)) (catalog.attempt ix.hasher (.update read keys)) := by
  simp only [step, update, Catalog.attempt]
  cases hashed : ix.hasher.hashAll read keys with
  | error e => rfl
  | ok entries =>
    have filed := Contents.assignAll_filed represents.filed entries
    have proper := Entries.file_proper represents.proper (hashAll_lengths faithful hashed)
    have old := represents.searchable
    have noted := Contents.assignAll_noted ix.contents entries
    have kept := Contents.assignAll_search ix.contents entries
    obtain ⟨search, synced, searchable⟩ := Contents.sync_searchable (kept ▸ old.sound)
      (kept ▸ old.kind) (kept ▸ old.members) old.lengths (lengths_of_filed filed proper) noted
    simp only [synced]
    refine ⟨rfl, ⟨rfl, ?_, proper, ?_, represents.valid⟩, rfl, rfl⟩
    · exact ⟨filed.handles, filed.codes, filed.inverse, filed.occupied⟩
    · exact ⟨searchable.sound, searchable.kind, searchable.members, searchable.lengths⟩

theorem remove_follows (represents : ix.Represents catalog) (ids : List String) :
    ix.Follows (ix.step (.remove ids)) (catalog.attempt ix.hasher (.remove ids)) := by
  have absent (id : String) :
      (!ix.contents.codes.contains id) = (catalog.entries id).isNone := by
    rw [SortedMap.contains, represents.filed.codes]
    cases catalog.entries id <;> rfl
  simp only [step, remove, Catalog.attempt, absent]
  cases missing : ids.find? fun id => (catalog.entries id).isNone with
  | some id => rfl
  | none =>
    have filed := Contents.removeAll_filed represents.filed ids
    have proper := Entries.drop_proper represents.proper ids
    have old := represents.searchable
    have noted := Contents.removeAll_noted ix.contents ids
    obtain ⟨kept, flag⟩ := Contents.removeAll_frame ix.contents ids
    obtain ⟨search, synced, searchable⟩ := Contents.sync_searchable (kept ▸ old.sound)
      (kept ▸ old.kind) (kept ▸ old.members) old.lengths (lengths_of_filed filed proper) noted
    simp only [synced]
    refine ⟨rfl, ⟨?_, ?_, proper, searchable, represents.valid⟩, rfl, rfl⟩
    · exact flag.trans represents.built
    · exact ⟨filed.handles, filed.codes, filed.inverse, filed.occupied⟩

theorem reset_follows (represents : ix.Represents catalog) :
    ix.Follows (ix.step .reset) (catalog.attempt ix.hasher .reset) := by
  obtain ⟨contents, empty, unbuilt, filed, searchable⟩ :=
    exists_empty represents.valid ix.hasher.bits
  simp only [step, reset, Catalog.attempt, empty]
  exact ⟨rfl, ⟨unbuilt, filed, Entries.none_proper _, searchable, represents.valid⟩, rfl, rfl⟩

end Index
end Retrieval
