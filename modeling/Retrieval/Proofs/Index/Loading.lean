import Retrieval.Proofs.Artifact.Validity
import Retrieval.Proofs.Index.Catalog

/-!
Loading an artifact takes another way than indexing, for the tables come from the artifact at once.
What a valid artifact files is a table of entries all the same (`file_handlesOf`), and the tables
that are loaded are in step with it (`adopt_filed`).
-/
namespace Retrieval.Index
variable {ix : Index} {catalog : Catalog}

theorem mem_handlesOf {artifact : Artifact} {label : String} {key : Key} {code : Code} :
    (key, code) ∈ handlesOf artifact label ↔
      ∃ ids, artifact.entries.get? code = some ids ∧ key.id ∈ ids ∧ key.label = label := by
  obtain ⟨label', id⟩ := key
  simp only [handlesOf, List.mem_flatMap, List.mem_map, SortedSet.mem_toList, Prod.mk.injEq,
    Key.mk.injEq]
  constructor
  · intro listed
    obtain ⟨⟨code, ids⟩, entry, id, member, ⟨rfl, rfl⟩, rfl⟩ := listed
    exact ⟨ids, SortedMap.mem_entries_iff.mp entry, member, rfl⟩
  · intro entered
    obtain ⟨ids, found, member, rfl⟩ := entered
    exact ⟨(code, ids), SortedMap.mem_entries_iff.mpr found, id, member, ⟨rfl, rfl⟩, rfl⟩

/-- An id of a valid artifact is filed under the one code that has it. -/
theorem file_handlesOf {artifact : Artifact} (valid : artifact.Valid) (label : String)
    {id : String} {key : Key} {code : Code} :
    Entries.none.file (handlesOf artifact label) id = some (key, code) ↔
      key = ⟨label, id⟩ ∧ ∃ ids, artifact.entries.get? code = some ids ∧ id ∈ ids := by
  rw [Entries.file, Entries.none, Option.or_none]
  constructor
  · intro last
    have same : key.id = id := by simpa using List.find?_some last
    obtain ⟨ids, found, member, rfl⟩ :=
      mem_handlesOf.mp (List.mem_reverse.mp (List.mem_of_find?_eq_some last))
    subst same
    exact ⟨rfl, ids, found, member⟩
  · intro entered
    obtain ⟨rfl, ids, found, member⟩ := entered
    have listed : (⟨label, id⟩, code) ∈ handlesOf artifact label :=
      mem_handlesOf.mpr ⟨ids, found, member, rfl⟩
    cases last : (handlesOf artifact label).reverse.find? fun entry => entry.1.id = id with
    | none =>
      have := List.find?_eq_none.mp last _ (List.mem_reverse.mpr listed)
      simp at this
    | some entry =>
      obtain ⟨⟨label', id'⟩, code'⟩ := entry
      have same : id' = id := by simpa using List.find?_some last
      obtain ⟨ids', found', member', labelled⟩ :=
        mem_handlesOf.mp (List.mem_reverse.mp (List.mem_of_find?_eq_some last))
      dsimp only at member' labelled
      rw [same] at member'
      rw [valid.once code ids code' ids' id found found' member member', same, labelled]

/-- A lookup in a table of ids answers what was filed last under the id. -/
theorem get?_ofList_filed {α : Type} (filed : List (Key × Code)) (part : Key × Code → α)
    (id : String) :
    (SortedMap.ofList (filed.map fun entry => (entry.1.id, part entry))).get? id =
      (Entries.none.file filed id).map part := by
  have same (entry : Key × Code) : (compare id entry.1.id = .eq) = (entry.1.id = id) := by
    refine propext ⟨fun same => (Std.LawfulEqOrd.eq_of_compare same).symm, ?_⟩
    rintro rfl
    exact Std.ReflCmp.compare_self
  rw [SortedMap.ofList, SortedMap.get?_foldl_insert, SortedMap.get?_empty, Option.or_none,
    ← List.map_reverse, List.find?_map, Option.map_map, Entries.file, Entries.none, Option.or_none]
  simp only [Function.comp_def, same]

theorem adopt_filed {artifact : Artifact} (valid : artifact.Valid) (label : String)
    (contents : Contents) :
    (adopt contents artifact label).Filed (Entries.none.file (handlesOf artifact label)) := by
  have codes (id : String) : (adopt contents artifact label).codes.get? id =
      (Entries.none.file (handlesOf artifact label) id).map (·.2) := get?_ofList_filed _ _ id
  refine ⟨fun id => get?_ofList_filed _ _ id, codes, ?_, ?_⟩
  · intro code id
    rw [codes, Option.map_eq_some_iff]
    show id ∈ (artifact.entries.get? code).getD ∅ ↔ _
    constructor
    · intro member
      cases found : artifact.entries.get? code with
      | none =>
        rw [found] at member
        exact absurd member (SortedSet.not_mem_empty id)
      | some ids =>
        rw [found] at member
        exact ⟨(⟨label, id⟩, code), (file_handlesOf valid label).mpr ⟨rfl, ids, found, member⟩, rfl⟩
    · intro coded
      obtain ⟨⟨key, code⟩, last, rfl⟩ := coded
      obtain ⟨_, ids, found, member⟩ := (file_handlesOf valid label).mp last
      rwa [found, Option.getD_some]
  · intro code held
    obtain ⟨ids, found⟩ := SortedMap.contains_iff.mp held
    obtain ⟨id, member⟩ := valid.used code ids found
    refine ⟨id, ?_⟩
    show id ∈ (artifact.entries.get? code).getD ∅
    rwa [show artifact.entries.get? code = some ids from found, Option.getD_some]

theorem load_follows (represents : ix.Represents catalog) (artifact : Artifact) (label : String) :
    ix.Follows (ix.step (.load artifact label))
      (catalog.attempt ix.hasher (.load artifact label)) := by
  simp only [step, load, Catalog.attempt]
  cases checked : artifact.validate with
  | error e => rfl
  | ok _ =>
    by_cases fits : artifact.bitLength = ix.hasher.bits
    · have valid := Artifact.validate_ok_iff.mp checked
      obtain ⟨empty, made, _, _, start⟩ := exists_empty represents.valid ix.hasher.bits
      have filed := adopt_filed valid label empty
      have proper : (Entries.none.file (handlesOf artifact label)).Proper ix.hasher.bits := by
        intro id key code last
        obtain ⟨rfl, ids, found, _⟩ := (file_handlesOf valid label).mp last
        exact ⟨rfl, (valid.lengths code ids found).trans fits⟩
      obtain ⟨search, planted, searchable⟩ :=
        Contents.plant_searchable (c := adopt empty artifact label) start.kind
          (lengths_of_filed filed proper)
      simp only [bind, Except.bind, made, planted, fits, ne_eq, not_true_eq_false, if_false,
        ← represents.built]
      cases built : ix.contents.built with
      | true => rfl
      | false =>
        refine ⟨rfl, ⟨rfl, ?_, proper, searchable, represents.valid⟩, rfl, rfl⟩
        exact ⟨filed.handles, filed.codes, filed.inverse, filed.occupied⟩
    · simp [bind, Except.bind, fits, settle, Follows, throw, throwThe, MonadExceptOf.throw]

end Retrieval.Index
