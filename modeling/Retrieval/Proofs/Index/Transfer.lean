import Retrieval.Proofs.Index.Nearest

/-!
What an index exports can be loaded into any unbuilt index over the same hasher. The search is built
anew and may be of another kind, but a query is answered from the tables alone, so the copy answers
like the index it came from (`load_artifact_of_run`).
-/
namespace Retrieval

namespace Contents
variable {c c' : Contents} {entries entries' : Entries}

/-- The bucket of a code has the ids of that code, and there is one only if there are such ids. -/
theorem Filed.get?_buckets_iff (filed : c.Filed entries) {code : Code} {ids : SortedSet String} :
    c.buckets.get? code = some ids ↔
      (∃ id, id ∈ ids) ∧ ∀ id, id ∈ ids ↔ c.codes.get? id = some code := by
  have bucket {ids : SortedSet String} (found : c.buckets.get? code = some ids) :
      c.bucketOf code = ids := by
    rw [bucketOf, found, Option.getD_some]
  constructor
  · intro found
    have used := filed.occupied code (SortedMap.contains_iff.mpr ⟨ids, found⟩)
    rw [bucket found] at used
    refine ⟨used, fun id => ?_⟩
    rw [← filed.inverse, bucket found]
  · intro told
    obtain ⟨⟨id, member⟩, same⟩ := told
    have here : id ∈ c.bucketOf code := (filed.inverse code id).mpr ((same id).mp member)
    cases found : c.buckets.get? code with
    | none =>
      rw [bucketOf, found] at here
      exact absurd here (SortedSet.not_mem_empty id)
    | some held =>
      refine congrArg some (SortedSet.ext_mem fun x => ?_)
      rw [same, ← filed.inverse, bucket found]

/-- An id is in the bucket of its code, and in no other. -/
theorem Filed.exists_bucket_iff (filed : c.Filed entries) {code : Code} {id : String} :
    (∃ ids, c.buckets.get? code = some ids ∧ id ∈ ids) ↔ c.codes.get? id = some code := by
  rw [← filed.inverse, bucketOf]
  cases c.buckets.get? code <;> simp

/-- The codes of the ids leave no choice for the buckets. -/
theorem Filed.buckets_eq (filed : c.Filed entries) (filed' : c'.Filed entries')
    (codes : c'.codes = c.codes) : c'.buckets = c.buckets := by
  refine SortedMap.ext_get? fun code => Option.ext fun ids => ?_
  rw [filed'.get?_buckets_iff, filed.get?_buckets_iff, codes]

end Contents

namespace Index
variable {ix other : Index} {catalog catalog' : Catalog}

/-- What an index exports passes the check of artifacts. -/
theorem artifact_valid (represents : ix.Represents catalog) : ix.artifact.Valid := by
  have filed := represents.filed
  refine ⟨?_, ?_, ?_⟩
  · intro code ids found
    exact lengths_of_filed filed represents.proper code (SortedMap.contains_iff.mpr ⟨ids, found⟩)
  · intro code ids found
    exact (filed.get?_buckets_iff.mp found).1
  · intro code ids code' ids' id found found' member member'
    have first := ((filed.get?_buckets_iff.mp found).2 id).mp member
    have second := ((filed.get?_buckets_iff.mp found').2 id).mp member'
    exact Option.some.inj (first.symm.trans second)

/-- What is loaded from an export are the entries of the index it came from, the handles having
another label. -/
theorem file_handlesOf_artifact (represents : ix.Represents catalog) (label : String) :
    Entries.none.file (handlesOf ix.artifact label) = fun id =>
      (catalog.entries id).map fun entry => (⟨label, id⟩, entry.2) := by
  have filed := represents.filed
  funext id
  refine Option.ext fun entry => ?_
  obtain ⟨key, code⟩ := entry
  rw [file_handlesOf (artifact_valid represents)]
  show key = _ ∧ (∃ ids, ix.contents.buckets.get? code = some ids ∧ id ∈ ids) ↔ _
  rw [filed.exists_bucket_iff, filed.codes]
  cases catalog.entries id with
  | none => simp
  | some entry => simp [eq_comm]

/-- Indexes with the same entries answer queries alike, whatever their searches are like, as long as
both are exact. -/
theorem nearest_congr (represents : ix.Represents catalog) (represents' : other.Represents catalog')
    (faithful : ix.hasher.Faithful) (exactly : ix.settings.Exact ix.hasher.bits)
    (exactly' : other.settings.Exact ix.hasher.bits)
    (entries : catalog'.entries = catalog.entries) (hasher : other.hasher = ix.hasher)
    (overfetch : other.settings.overfetch = ix.settings.overfetch) (read : ReadVector)
    (query : Descriptor) (n : Nat) :
    (other.nearest read query n).map (·.1) = (ix.nearest read query n).map (·.1) := by
  have filed := represents.filed
  have filed' := represents'.filed
  have handles : other.contents.handles = ix.contents.handles :=
    SortedMap.ext_get? fun id => by rw [filed'.handles, filed.handles, entries]
  have codes : other.contents.codes = ix.contents.codes :=
    SortedMap.ext_get? fun id => by rw [filed'.codes, filed.codes, entries]
  have buckets := filed.buckets_eq filed' codes
  have members (hits : List Hit) : other.members hits = ix.members hits := by
    simp only [members, bucket, buckets]
  have search {code : Code} (alike : code.length = ix.hasher.bits) :
      other.contents.search.nearest code = ix.contents.search.nearest code := by
    funext k
    rw [search_nearest represents exactly alike,
      search_nearest represents' (hasher ▸ exactly') (hasher ▸ alike), ranked, ranked, buckets]
  have probed {code : Code} (alike : code.length = ix.hasher.bits) (asked : 0 < n) :
      other.probed code n asked = ix.probed code n asked := by
    simp only [probed, members, search alike, overfetch, codes, buckets]
  have measure : other.measure read query = ix.measure read query := by
    funext id
    simp only [Index.measure, handles]
  cases hashed : ix.hasher.hash query with
  | error e => simp only [nearest, hasher, hashed]; rfl
  | ok code =>
    by_cases asked : 0 < n ∧ 0 < ix.count
    · have asked' : 0 < n ∧ 0 < other.count := by rwa [count, codes]
      rw [nearest_probed hashed asked.1 asked.2,
        nearest_probed (hasher ▸ hashed) asked'.1 asked'.2,
        probed (faithful query code hashed), members, measure]
    · have nothing : n = 0 ∨ ix.count = 0 := by omega
      rw [nearest_nothing hashed nothing,
        nearest_nothing (hasher ▸ hashed) (by rwa [count, codes])]

/-- Loading is refused for a built index, an artifact that does not pass its check and one for codes
of another length, and for nothing else. -/
theorem attempt_load_ok_iff {hasher : Hasher} {artifact : Artifact} {label : String} :
    catalog.attempt hasher (.load artifact label) = .ok catalog' ↔
      (catalog.built = false ∧ artifact.Valid ∧ artifact.bitLength = hasher.bits) ∧
        catalog' = ⟨true, Entries.none.file (handlesOf artifact label)⟩ := by
  rw [← Artifact.validate_ok_iff]
  simp only [Catalog.attempt]
  cases artifact.validate with
  | error e => simp
  | ok _ =>
    by_cases fits : artifact.bitLength = hasher.bits
    · cases catalog.built <;> simp [fits, eq_comm]
    · simp [fits]

theorem step_load_ok_iff (represents : ix.Represents catalog) {artifact : Artifact}
    {label : String} :
    (ix.step (.load artifact label)).2 = .ok () ↔
      ix.isBuilt = false ∧ artifact.Valid ∧ artifact.bitLength = ix.hasher.bits := by
  have follows := load_follows represents artifact label
  have built : ix.isBuilt = catalog.built := represents.built
  cases attempt : catalog.attempt ix.hasher (.load artifact label) with
  | ok after =>
    rw [attempt] at follows
    rw [built]
    exact iff_of_true follows.1 (attempt_load_ok_iff.mp attempt).1
  | error e =>
    rw [attempt] at follows
    rw [show ix.step (.load artifact label) = (ix, .error e) from follows, built]
    refine iff_of_false (fun done => nomatch done) fun allowed => ?_
    rw [attempt_load_ok_iff.mpr ⟨allowed, rfl⟩] at attempt
    cases attempt

/-- An unbuilt index takes an export in and is a copy of the index it came from, but for the label
of its handles. -/
theorem load_artifact (represents : ix.Represents catalog)
    (represents' : other.Represents catalog') (faithful : ix.hasher.Faithful)
    (hasher : other.hasher = ix.hasher) (overfetch : other.settings.overfetch = ix.settings.overfetch)
    (unbuilt : other.isBuilt = false) (label : String) :
    ∃ copy, other.step (.load ix.artifact label) = (copy, .ok ()) ∧ copy.artifact = ix.artifact ∧
      copy.ids = ix.ids ∧ (∀ id, copy.code? id = ix.code? id) ∧
      copy.contents.search.codes = ix.contents.search.codes ∧
      (ix.settings.Exact ix.hasher.bits → other.settings.Exact ix.hasher.bits →
        (∀ id key, ix.handle id = .ok key → key = ⟨label, id⟩) → ∀ read query n,
        (copy.nearest read query n).map (·.1) = (ix.nearest read query n).map (·.1)) := by
  have fits : ix.artifact.bitLength = other.hasher.bits := by rw [hasher]; rfl
  have follows := load_follows represents' ix.artifact label
  rw [attempt_load_ok_iff.mpr
    ⟨⟨represents'.built.symm.trans unbuilt, artifact_valid represents, fits⟩, rfl⟩] at follows
  obtain ⟨done, copied, hasher', settings⟩ := follows
  rw [file_handlesOf_artifact represents] at copied
  generalize step : other.step (.load ix.artifact label) = after at done copied hasher' settings
  obtain ⟨copy, answer⟩ := after
  have filed := represents.filed
  have codes : copy.contents.codes = ix.contents.codes := by
    refine SortedMap.ext_get? fun id => ?_
    rw [copied.filed.codes, filed.codes, Option.map_map]
    rfl
  have buckets : copy.contents.buckets = ix.contents.buckets :=
    filed.buckets_eq copied.filed codes
  refine ⟨copy, congrArg (copy, ·) done, ?_, ?_, ?_, ?_,
    fun exactly exactly' labelled read query n => ?_⟩
  · rw [Index.artifact, Index.artifact, hasher', hasher, buckets]
  · rw [ids, ids, codes]
  · intro id
    rw [code?, code?, codes]
  · rw [copied.searchable.codes, represents.searchable.codes, buckets]
  · refine nearest_congr represents copied faithful exactly (settings ▸ exactly')
      (funext fun id => ?_) (hasher'.trans hasher) (settings ▸ overfetch) read query n
    have handle := labelled id
    rw [Index.handle, filed.handles] at handle
    dsimp only
    cases found : catalog.entries id with
    | none => rfl
    | some entry =>
      rw [found] at handle
      rw [Option.map_some, ← handle entry.1 rfl]

/-- An index after any calls can be copied into any unbuilt one over the same hasher. The copy has
the same ids and codes, and if all handles had the label that is loaded and both searches are exact,
it answers every query alike. Whatever the artifact, it is taken in exactly if the index is unbuilt
and the artifact is valid and has codes of the right length, and an index that refuses it stays as
it is. -/
theorem load_artifact_of_run {hasher : Hasher} {settings settings' : IndexSettings}
    {metrics metrics' : Bool} {fresh fresh' : Index} (faithful : hasher.Faithful)
    (created : Index.create hasher settings metrics = .ok fresh)
    (created' : Index.create hasher settings' metrics' = .ok fresh')
    (overfetch : settings'.overfetch = settings.overfetch) (calls calls' : List IndexCall)
    (label : String) :
    let ix := (fresh.run calls).1
    let other := (fresh'.run calls').1
    (other.isBuilt = false → ∃ copy, other.step (.load ix.artifact label) = (copy, .ok ()) ∧
        copy.artifact = ix.artifact ∧ copy.ids = ix.ids ∧ (∀ id, copy.code? id = ix.code? id) ∧
        copy.contents.search.codes = ix.contents.search.codes ∧
        (settings.Exact hasher.bits → settings'.Exact hasher.bits →
          (∀ id key, ix.handle id = .ok key → key = ⟨label, id⟩) → ∀ read query n,
          (copy.nearest read query n).map (·.1) = (ix.nearest read query n).map (·.1))) ∧
      ∀ artifact, ((other.step (.load artifact label)).2 = .ok () ↔
          other.isBuilt = false ∧ artifact.Valid ∧ artifact.bitLength = hasher.bits) ∧
        ∀ e, (other.step (.load artifact label)).2 = .error e →
          (other.step (.load artifact label)).1 = other := by
  obtain ⟨start, rfl, rfl⟩ := create_represents created
  obtain ⟨start', hasher', rfl⟩ := create_represents created'
  obtain ⟨_, represents, same, kept⟩ := run_represents faithful start calls
  obtain ⟨_, represents', same', kept'⟩ := run_represents (hasher' ▸ faithful) start' calls'
  have both : (fresh'.run calls').1.hasher = fresh.hasher := same'.trans hasher'
  refine ⟨fun unbuilt => ?_, fun artifact => ⟨?_, fun e failed => ?_⟩⟩
  · rw [← same] at faithful
    rw [← same, ← kept, ← kept']
    exact load_artifact represents represents' faithful (both.trans same.symm)
      (by rw [kept, kept', overfetch]) unbuilt label
  · rw [← both]
    exact step_load_ok_iff represents'
  · exact step_unchanged (by rwa [both]) represents' failed

/-- What is left in a scan is copied into a ball tree, which then answers like the scan. -/
theorem load_artifact_of_run_sign :
    let calls := [.update (fun _ => .ok [⟨0x3f800000⟩]) [⟨"kind", "a"⟩, ⟨"kind", "b"⟩],
      .remove ["b"]]
    let ix := ((unbuilt Hasher.sign 1).run calls).1
    let other : Index := { unbuilt Hasher.sign 1 with
      settings := ⟨.ballTree 2, 1⟩, contents := ⟨false, ∅, ∅, ∅, .tree (.empty 2)⟩ }
    ∃ copy, other.step (.load ix.artifact "kind") = (copy, .ok ()) ∧ copy.ids = ix.ids ∧
      ∀ read query n,
        (copy.nearest read query n).map (·.1) = (ix.nearest read query n).map (·.1) := by
  intro calls ix other
  have created : create Hasher.sign ⟨.linear, 1⟩ false =
      .ok (unbuilt Hasher.sign 1) := rfl
  have created' : create Hasher.sign ⟨.ballTree 2, 1⟩ false = .ok other := rfl
  have handles : ix.contents.handles.entries = [("a", ⟨"kind", "a"⟩)] := by decide +kernel
  obtain ⟨copies, _⟩ := load_artifact_of_run Hasher.sign_faithful created created' rfl
    calls [] "kind"
  obtain ⟨copy, loaded, _, ids, _, _, answers⟩ := copies rfl
  refine ⟨copy, loaded, ids, answers (.inr rfl) (.inl (by decide)) fun id key handle => ?_⟩
  change ix.handle id = .ok key at handle
  unfold Index.handle at handle
  split at handle
  · rename_i held found
    have member := SortedMap.mem_entries_iff.mpr found
    rw [handles] at member
    cases handle
    cases List.mem_singleton.mp member
    rfl
  · cases handle

/-- With codes of `2 ^ 32` bits a scan that is loaded with the codes of a tree finds another id. -/
theorem not_load_artifact_of_run_of_long :
    ¬ ∀ (hasher : Hasher) (settings settings' : IndexSettings) (metrics metrics' : Bool)
      (fresh fresh' : Index), hasher.Faithful →
      Index.create hasher settings metrics = .ok fresh →
      Index.create hasher settings' metrics' = .ok fresh' →
      settings'.overfetch = settings.overfetch → ∀ (calls calls' : List IndexCall) (label : String),
      (fresh'.run calls').1.isBuilt = false →
      ∃ copy, (fresh'.run calls').1.step (.load (fresh.run calls).1.artifact label) = (copy, .ok ()) ∧
        ((∀ id key, (fresh.run calls).1.handle id = .ok key → key = ⟨label, id⟩) → ∀ read query n,
          (copy.nearest read query n).map (·.1) =
            ((fresh.run calls).1.nearest read query n).map (·.1)) := by
  intro alike
  obtain ⟨n, whole⟩ : ∃ n, n + 2 = 2 ^ 32 := ⟨2 ^ 32 - 2, rfl⟩
  obtain ⟨catalog, forked, planted, handles⟩ := exists_grown n
  have faithful := Hasher.tails_faithful n
  have created : create (.tails n) ⟨.linear, 1⟩ false = .ok (unbuilt (.tails n) 1) := rfl
  obtain ⟨start, same, _⟩ := create_represents created
  obtain ⟨copy, loaded, _, _, codes, _⟩ := load_artifact forked.represents start
    (forked.hasher ▸ faithful) (same.trans forked.hasher.symm) forked.single.symm rfl "kind"
  obtain ⟨_, represents, hasher, settings⟩ := step_represents (same ▸ faithful) start
    (.load (grown n).artifact "kind")
  rw [loaded] at represents hasher settings
  have copied : copy.Coded _ n (forkedCode n) :=
    ⟨represents, hasher, by rw [settings]; rfl, fun id => (codes id).trans (forked.codes id)⟩
  obtain ⟨x, answer, named⟩ := forked.nearest_forked_tree whole planted
  obtain ⟨y, answer', named'⟩ := copied.nearest_forked_scan whole (by rw [settings]; rfl)
  obtain ⟨copy', loaded', answers⟩ := alike (.tails n) ⟨.ballTree 2, 1⟩ ⟨.linear, 1⟩ false false
    (sapling n) (unbuilt (.tails n) 1) faithful rfl created rfl [.build readForked forkedKeys] []
    "kind" rfl
  cases loaded.symm.trans loaded'
  have found := answers handles readForked [⟨0⟩, ⟨1⟩, ⟨1⟩] 1
  change _ = ((grown n).nearest _ _ _).map _ at found
  rw [answer, answer'] at found
  cases found
  exact absurd (named.symm.trans named') (by decide)

end Index
end Retrieval
