import Retrieval.Proofs.CodeIndex.Lockstep
import Retrieval.Proofs.Index.Probing

/-!
Few ids under codes of `2 ^ 32` bits, between which distances wrap around. Let there be three under
the codes of a fork: a query by the complement of one of them finds its id where every code is tried
(`Index.Coded.nearest_forked_scan`), and another one in a ball tree
(`Index.Coded.nearest_forked_tree`).
-/
namespace Retrieval

/-- A bit for each of three elements, set where it is not zero; the last one is repeated until there
are `n + 2` bits. -/
def Hasher.tails (n : Nat) : Hasher where
  dimension := 3
  bits := n + 2
  hash
    | [x, y, z] => .ok (.tailed n (x ≠ ⟨0⟩, y ≠ ⟨0⟩, z ≠ ⟨0⟩))
    | v => .error (.dimensionMismatch 3 v.length)
  describe := "TailFunctor"

theorem Hasher.tails_faithful (n : Nat) : (tails n).Faithful := by
  intro v code hashed
  match v with
  | [x, y, z] =>
    cases hashed
    exact Code.length_tailed n _
  | [] | [_] | [_, _] | _ :: _ :: _ :: _ :: _ => cases hashed

namespace Index
variable {ix : Index} {catalog : Catalog} {n : Nat} {coded : String → Option Code}

/-- An index has the codes of a table, and looks for one code first if one neighbour is asked for. -/
structure Coded (ix : Index) (catalog : Catalog) (n : Nat) (coded : String → Option Code) :
    Prop where
  represents : ix.Represents catalog
  hasher : ix.hasher = .tails n
  single : ix.settings.overfetch = 1
  codes : ∀ id, ix.contents.codes.get? id = coded id

namespace Coded

theorem contains_iff (table : ix.Coded catalog n coded) (code : Code) :
    ix.contents.buckets.contains code = true ↔ ∃ id, coded id = some code := by
  rw [contains_buckets_iff table.represents]
  simp only [table.codes]

theorem bucket (table : ix.Coded catalog n coded) {code : Code} {id : String}
    (only : ∀ other, coded other = some code ↔ other = id) : ix.bucket code = [id] :=
  bucket_eq_singleton table.represents fun other => table.codes other ▸ only other

theorem count_pos (table : ix.Coded catalog n coded) {id : String} {code : Code}
    (filed : coded id = some code) : 0 < ix.count := by
  have listed : id ∈ ix.ids :=
    SortedMap.mem_keys.mpr (SortedMap.contains_iff.mpr ⟨_, (table.codes id).trans filed⟩)
  exact Nat.lt_of_lt_of_eq (List.length_pos_of_mem listed) (SortedMap.length_keys _)

end Coded

/-- What calls make of a new index, if they file ids under their codes in the end. -/
theorem coded_of_run {fresh : Index} {search : CodeSearch}
    (created : Index.create (.tails n) ⟨search, 1⟩ false = .ok fresh) {calls : List IndexCall}
    (entries : ∀ id, (Catalog.empty.run (.tails n) calls).1.entries id =
      (coded id).map fun code => (⟨"kind", id⟩, code)) :
    (fresh.run calls).2 = (Catalog.empty.run (.tails n) calls).2 ∧
      (fresh.run calls).1.settings = ⟨search, 1⟩ ∧
      (fresh.run calls).1.Coded (Catalog.empty.run (.tails n) calls).1 n coded ∧
      ∀ id, (fresh.run calls).1.contents.handles.get? id = (coded id).map fun _ => ⟨"kind", id⟩ := by
  obtain ⟨start, same, chosen⟩ := create_represents created
  obtain ⟨answers, represents, hasher, settings⟩ :=
    run_represents (same ▸ Hasher.tails_faithful n) start calls
  rw [same] at answers represents hasher
  rw [chosen] at settings
  have filed := represents.filed
  refine ⟨answers, settings, ⟨represents, hasher, by rw [settings], fun id => ?_⟩, fun id => ?_⟩
  · rw [filed.codes, entries, Option.map_map]
    exact Option.map_id'
  · rw [filed.handles, entries, Option.map_map]
    rfl

/-- The handles of three ids. -/
def forkedKeys : List Key := [⟨"kind", "a"⟩, ⟨"kind", "b"⟩, ⟨"kind", "c"⟩]

/-- The three ids under the codes of a fork. -/
def forkedCode (n : Nat) (id : String) : Option Code :=
  if id = "a" then some (.tailed n (false, true, false))
  else if id = "b" then some (.tailed n (true, false, false))
  else if id = "c" then some (.tailed n (true, true, true)) else none

theorem exists_forkedCode {code : Code} :
    code ∈ forked n ↔ ∃ id, forkedCode n id = some code := by
  constructor
  · intro member
    simp only [forked, List.map_cons, List.map_nil, List.mem_cons, List.not_mem_nil, or_false]
      at member
    rcases member with rfl | rfl | rfl
    · exact ⟨"a", rfl⟩
    · exact ⟨"b", rfl⟩
    · exact ⟨"c", rfl⟩
  · rintro ⟨id, found⟩
    unfold forkedCode at found
    split at found
    · cases found; simp [forked]
    · split at found
      · cases found; simp [forked]
      · split at found
        · cases found; simp [forked]
        · cases found

theorem forkedCode_inj {id other : String} {code : Code}
    (one : forkedCode n id = some code) (two : forkedCode n other = some code) : id = other := by
  have apart {v w : Bool × Bool × Bool} (same : Code.tailed n v = .tailed n w) :=
    Code.front_eq_of_tailed_eq same
  have same := one.trans two.symm
  unfold forkedCode at one two same
  grind

/-- The vectors of the ids, as they are stored. -/
def readForked : ReadVector := fun key =>
  .ok (if key.id = "a" then [⟨0⟩, ⟨1⟩, ⟨0⟩] else if key.id = "b" then [⟨1⟩, ⟨0⟩, ⟨0⟩] else
    [⟨1⟩, ⟨1⟩, ⟨1⟩])

namespace Coded

theorem keys_forked (forked : ix.Coded catalog n (forkedCode n)) :
    ix.contents.buckets.keys = Retrieval.forked n :=
  SortedMap.keys_eq_of_ascending (forked_ascending n) fun code => by
    rw [forked.contains_iff, exists_forkedCode]

theorem bucket_forked (forked : ix.Coded catalog n (forkedCode n)) {code : Code} {id : String}
    (filed : forkedCode n id = some code) : ix.bucket code = [id] :=
  forked.bucket fun _ => ⟨fun found => forkedCode_inj found filed, fun same => same ▸ filed⟩

theorem ranked_forked (forked : ix.Coded catalog n (forkedCode n)) (whole : n + 2 = 2 ^ 32) :
    (ix.ranked (.tailed n (false, true, true))).take 1 = [⟨0, .tailed n (true, false, false)⟩] := by
  have scanned := CodeScan.nearest_eq ⟨.ofList (Retrieval.forked n), none⟩
    (.tailed n (false, true, true)) 1
  rw [CodeScan.nearest_forked whole rfl, SortedSet.toList_ofList_of_ascending (forked_ascending n)]
    at scanned
  rw [ranked, forked.keys_forked, scanned]

theorem length_ranked_forked (forked : ix.Coded catalog n (forkedCode n)) (query : Code) :
    (ix.ranked query).length = 3 := by
  rw [length_ranked, ← SortedMap.length_keys, forked.keys_forked]
  rfl

/-- The id of the code that is first, and the only one under it. -/
theorem nearby_forked (forked : ix.Coded catalog n (forkedCode n)) (whole : n + 2 = 2 ^ 32) :
    ix.nearby (.tailed n (false, true, true)) 1 = ["b"] := by
  have lone : ix.bucket (.tailed n (true, false, false)) = ["b"] := forked.bucket_forked rfl
  rw [nearby, forked.ranked_forked whole, members, List.flatMap_cons, lone, List.flatMap_nil,
    List.append_nil]

/-- The id of the code that is found first is the nearest neighbour. -/
theorem nearest_forked (forked : ix.Coded catalog n (forkedCode n)) {hit : Hit} {id : String}
    (first : ix.contents.search.nearest (.tailed n (false, true, true)) 1 = [hit])
    (filed : forkedCode n id = some hit.code) :
    ∃ x, (ix.nearest readForked [⟨0⟩, ⟨1⟩, ⟨1⟩] 1).map (·.1) = .ok [x] ∧ x.id = id := by
  have hashed : ix.hasher.hash [⟨0⟩, ⟨1⟩, ⟨1⟩] = .ok (.tailed n (false, true, true)) := by
    rw [forked.hasher]
    rfl
  have readable (key : Key) : ∃ v, readForked key = .ok v ∧ v.length = 3 := by
    refine ⟨_, rfl, ?_⟩
    split
    · rfl
    · split <;> rfl
  obtain ⟨x, answer, named, _⟩ := nearest_of_lone forked.represents _ hashed forked.single first
    (forked.bucket_forked filed) readable
  exact ⟨x, answer, named⟩

theorem nearest_forked_scan (forked : ix.Coded catalog n (forkedCode n)) (whole : n + 2 = 2 ^ 32)
    (linear : ix.settings.search = .linear) :
    ∃ x, (ix.nearest readForked [⟨0⟩, ⟨1⟩, ⟨1⟩] 1).map (·.1) = .ok [x] ∧ x.id = "b" := by
  have alike : (Code.tailed n (false, true, true)).length = ix.hasher.bits := by
    rw [forked.hasher]
    exact Code.length_tailed n _
  have first := search_nearest forked.represents (.inr linear) alike 1
  rw [forked.ranked_forked whole] at first
  exact forked.nearest_forked first rfl

/-- The search is the tree that the codes grow into, with leaves of two. -/
theorem nearest_forked_tree (forked : ix.Coded catalog n (forkedCode n)) (whole : n + 2 = 2 ^ 32)
    (planted : (CodeIndex.tree (.empty 2)).build ix.contents.buckets.keys =
      .ok ix.contents.search) :
    ∃ x, (ix.nearest readForked [⟨0⟩, ⟨1⟩, ⟨1⟩] 1).map (·.1) = .ok [x] ∧ x.id = "c" := by
  rw [forked.keys_forked] at planted
  obtain ⟨t, built, held, root⟩ := BallTree.exists_build_root (.empty 2) (forked_ascending n)
    (List.cons_ne_nil _ _) length_of_mem_forked
  obtain ⟨t', built', same⟩ := exists_of_map_ok planted
  cases built.symm.trans built'
  have first : ix.contents.search.nearest (.tailed n (false, true, true)) 1 =
      [⟨1, .tailed n (true, true, true)⟩] := by
    rw [← same]
    exact BallTree.nearest_forked whole root held
  exact forked.nearest_forked first rfl

end Coded

/-- Indexing from scratch builds a search of the codes of the buckets. -/
theorem planted_of_build {after : Index} {read : ReadVector} {keys : List Key}
    (built : ix.build read keys = .ok after) : ∃ start, ix.settings.search.create = .ok start ∧
      start.build after.contents.buckets.keys = .ok after.contents.search := by
  unfold build at built
  split at built
  · cases built
  · obtain ⟨hashed, _, built⟩ := exists_of_bind_ok built
    obtain ⟨staged, empty, built⟩ := exists_of_bind_ok built
    obtain ⟨contents, planted, same⟩ := exists_of_bind_ok built
    cases same
    obtain ⟨start, created, rfl⟩ := exists_of_map_ok empty
    obtain ⟨search, searchable, rfl⟩ := exists_of_map_ok planted
    rw [Contents.assignAll_search] at searchable
    exact ⟨start, created, searchable⟩

/-- The catalog of the three ids. -/
theorem entries_forked (n : Nat) (id : String) :
    (Catalog.empty.run (.tails n) [.build readForked forkedKeys]).1.entries id =
      (forkedCode n id).map fun code => (⟨"kind", id⟩, code) := by
  show Entries.none.file [(⟨"kind", "a"⟩, .tailed n (false, true, false)),
    (⟨"kind", "b"⟩, .tailed n (true, false, false)),
    (⟨"kind", "c"⟩, .tailed n (true, true, true))] id = _
  by_cases a : id = "a"
  · subst a; rfl
  by_cases b : id = "b"
  · subst b; rfl
  by_cases c : id = "c"
  · subst c; rfl
  simp [Entries.file, Entries.none, forkedCode, a, b, c, eq_comm]

/-- An index that grows a tree with leaves of two, before anything is indexed. -/
def sapling (n : Nat) : Index :=
  ⟨.tails n, ⟨.ballTree 2, 1⟩, ⟨false, ∅, ∅, ∅, .tree (.empty 2)⟩, none⟩

/-- The tree with the three ids. -/
def grown (n : Nat) : Index := ((sapling n).run [.build readForked forkedKeys]).1

theorem exists_grown (n : Nat) :
    ∃ catalog, (grown n).Coded catalog n (forkedCode n) ∧
      (CodeIndex.tree (.empty 2)).build (grown n).contents.buckets.keys =
        .ok (grown n).contents.search ∧
      ∀ id key, (grown n).handle id = .ok key → key = ⟨"kind", id⟩ := by
  have created : create (.tails n) ⟨.ballTree 2, 1⟩ false = .ok (sapling n) := rfl
  obtain ⟨answers, _, forked, handles⟩ := coded_of_run created (entries_forked n)
  refine ⟨_, forked, ?_, fun id key handle => ?_⟩
  · cases built : (sapling n).build readForked forkedKeys with
    | error e =>
      simp only [run, step, built, settle] at answers
      cases answers
    | ok ix =>
      obtain ⟨start, planted, same⟩ := planted_of_build built
      cases planted
      simpa only [grown, run, step, built, settle] using same
  · rw [Index.handle, grown, handles] at handle
    cases coded : forkedCode n id with
    | none => rw [coded] at handle; cases handle
    | some code =>
      rw [coded] at handle
      cases handle
      rfl

end Index
end Retrieval
