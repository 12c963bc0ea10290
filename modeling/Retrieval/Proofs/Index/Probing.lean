import Mathlib.Data.List.Flatten
import Retrieval.Proofs.Index.Answer
import Retrieval.Proofs.Index.Run

/-!
How a query is answered. First `n` codes are probed and then twice as many, until they have enough
ids between them (`exists_gathered`), and of those ids the nearest are answered. Where the search is
exact these are the first codes in the order of hits (`nearest_of_represents`).
-/
namespace Retrieval

/-- A number doubled `i` times. -/
def doubled (n : Nat) : Nat → Nat
  | 0 => n
  | i + 1 => doubled (2 * n) i

/-- Cutting a number at a limit before it is doubled makes no difference once it is cut again. -/
theorem min_doubled_min (n limit i : Nat) :
    min (doubled (min n limit) i) limit = min (doubled n i) limit := by
  induction i generalizing n with
  | zero => simp only [doubled, Nat.min_assoc, Nat.min_self]
  | succ i ih =>
    have cut : min (2 * min n limit) limit = min (2 * n) limit := by omega
    rw [doubled, doubled, ← ih (2 * min n limit), cut, ih (2 * n)]

/-- A search goes by distances that fit 32 bits, or tries every code. -/
def IndexSettings.Exact (settings : IndexSettings) (bits : Nat) : Prop :=
  bits < 2 ^ 32 ∨ settings.search = .linear

namespace Index

/-- Widening stops at the first of `k`, `2 * k`, … that gathers enough, or at the limit. -/
theorem widen_spec (gather : Nat → List Hit) (enough : List Hit → Bool) {limit k : Nat}
    (positive : 0 < k) (within : k ≤ limit) (full : ∀ k ≤ limit, (gather k).length = k)
    (last : enough (gather limit) = true) :
    ∃ i, widen gather enough limit k positive = gather (min (doubled k i) limit) ∧
      enough (gather (min (doubled k i) limit)) = true ∧
        ∀ j < i, enough (gather (min (doubled k j) limit)) = false := by
  induction k, positive using widen.induct gather enough limit with
  | case1 k positive found done =>
    have here : min (doubled k 0) limit = k := Nat.min_eq_left within
    have stops : enough (gather k) = true := by
      rcases done with enough | short | atLimit
      · exact enough
      · exact absurd (full k within) (Nat.ne_of_lt short)
      · rwa [Nat.le_antisymm within atLimit]
    refine ⟨0, ?_, by rwa [here], ?_⟩
    · rw [here, widen, dif_pos done]
    · intro j before
      cases before
  | case2 k positive found more ih =>
    have first : enough (gather (min (doubled k 0) limit)) = false := by
      rw [doubled, Nat.min_eq_left within]
      exact Bool.eq_false_iff.mpr fun done => more (.inl done)
    obtain ⟨i, answer, stops, earlier⟩ := ih (Nat.min_le_right _ _)
    simp only [min_doubled_min] at answer stops earlier
    refine ⟨i + 1, ?_, stops, ?_⟩
    · rw [widen, dif_neg more, answer, doubled]
    · intro j before
      cases j with
      | zero => exact first
      | succ j => exact earlier j (Nat.lt_of_succ_lt_succ before)

theorem widen_of_enough {gather : Nat → List Hit} {enough : List Hit → Bool} {limit k : Nat}
    {positive : 0 < k} (done : enough (gather k) = true) :
    widen gather enough limit k positive = gather k := by
  rw [widen, dif_pos (.inl done)]

variable {ix : Index} {catalog : Catalog}

/-- The stored codes in the order of hits. -/
def ranked (ix : Index) (query : Code) : List Hit :=
  sortHits (ix.contents.buckets.keys.map (Hit.of query))

theorem length_ranked (ix : Index) (query : Code) :
    (ix.ranked query).length = ix.contents.buckets.size := by
  rw [ranked, (sortHits_perm _).length_eq, List.length_map, SortedMap.length_keys]

theorem mem_bucket (represents : ix.Represents catalog) {code : Code} {id : String} :
    id ∈ ix.bucket code ↔ ix.contents.codes.get? id = some code :=
  SortedSet.mem_toList.trans (represents.filed.inverse code id)

theorem contains_buckets_iff (represents : ix.Represents catalog) {code : Code} :
    ix.contents.buckets.contains code = true ↔ ∃ id, ix.contents.codes.get? id = some code := by
  constructor
  · intro held
    obtain ⟨id, member⟩ := represents.filed.occupied code held
    exact ⟨id, (represents.filed.inverse code id).mp member⟩
  · rintro ⟨id, found⟩
    have member := (mem_bucket represents).mpr found
    cases held : ix.contents.buckets.get? code with
    | none =>
      rw [bucket, held] at member
      cases member
    | some ids => exact SortedMap.contains_iff.mpr ⟨ids, held⟩

/-- A bucket with one id. -/
theorem bucket_eq_singleton (represents : ix.Represents catalog) {code : Code} {id : String}
    (only : ∀ other, ix.contents.codes.get? other = some code ↔ other = id) :
    ix.bucket code = [id] := by
  refine List.perm_singleton.mp ((List.perm_ext_iff_of_nodup (SortedSet.nodup_toList _)
    (List.nodup_singleton id)).mpr fun other => ?_)
  exact (mem_bucket represents).trans ((only other).trans List.mem_singleton.symm)

/-- The codes have every indexed id between them, each of them once. -/
theorem flatMap_bucket_perm (represents : ix.Represents catalog) :
    (ix.contents.buckets.keys.flatMap ix.bucket).Perm ix.ids := by
  refine (List.perm_ext_iff_of_nodup ?_ (SortedMap.nodup_keys _)).mpr ?_
  · refine List.pairwise_flatMap.mpr ⟨fun code _ => SortedSet.nodup_toList _, ?_⟩
    apply (SortedMap.nodup_keys _).imp
    intro code code' different id member id' member' same
    have first := (mem_bucket represents).mp member
    rw [same, (mem_bucket represents).mp member'] at first
    exact different (Option.some.inj first).symm
  · intro id
    rw [SortedMap.mem_keys, SortedMap.contains_iff, List.mem_flatMap]
    constructor
    · intro holding
      obtain ⟨code, _, member⟩ := holding
      exact ⟨code, (mem_bucket represents).mp member⟩
    · intro coded
      obtain ⟨code, found⟩ := coded
      have member := (mem_bucket represents).mpr found
      refine ⟨code, SortedMap.mem_keys.mpr ?_, member⟩
      cases held : ix.contents.buckets.get? code with
      | none =>
        rw [bucket, held] at member
        cases member
      | some ids => exact SortedMap.contains_iff.mpr ⟨ids, held⟩

theorem members_eq_flatMap (ix : Index) (hits : List Hit) :
    ix.members hits = (hits.map Hit.code).flatMap ix.bucket := by
  rw [List.flatMap_map]
  rfl

/-- Each id is under one code, so it comes once among the ids of distinct codes. -/
theorem members_subperm (represents : ix.Represents catalog) {hits : List Hit}
    (stored : (hits.map Hit.code).Subperm ix.contents.buckets.keys) :
    (ix.members hits).Subperm ix.ids := by
  obtain ⟨codes, same, part⟩ := stored
  have few : (codes.flatMap ix.bucket).Subperm ix.ids :=
    (part.flatMap _).subperm.trans (flatMap_bucket_perm represents).subperm
  rw [members_eq_flatMap]
  exact (same.symm.flatMap_right _).subperm.trans few

theorem members_perm (represents : ix.Represents catalog) {hits : List Hit}
    (whole : (hits.map Hit.code).Perm ix.contents.buckets.keys) :
    (ix.members hits).Perm ix.ids := by
  rw [members_eq_flatMap]
  exact (whole.flatMap_right _).trans (flatMap_bucket_perm represents)

theorem ranked_codes_perm (ix : Index) (query : Code) :
    ((ix.ranked query).map Hit.code).Perm ix.contents.buckets.keys := by
  refine ((sortHits_perm _).map _).trans ?_
  rw [List.map_map]
  exact List.Perm.of_eq (List.map_id _)

theorem length_members_ranked (represents : ix.Represents catalog) (query : Code) :
    (ix.members (ix.ranked query)).length = ix.count :=
  (members_perm represents (ix.ranked_codes_perm query)).length_eq.trans (SortedMap.length_keys _)

/-- The search answers the first of the stored codes. -/
theorem search_nearest (represents : ix.Represents catalog)
    (exactly : ix.settings.Exact ix.hasher.bits) {query : Code}
    (alike : query.length = ix.hasher.bits) (k : Nat) :
    ix.contents.search.nearest query k = (ix.ranked query).take k := by
  have searchable := represents.searchable
  have fits : ix.contents.search.isScan = true ∨
      ∀ code ∈ ix.contents.search.members, query.ExactFor code.length := by
    rcases exactly with small | linear
    · refine .inr fun code member => ?_
      rw [searchable.lengths code ((searchable.members code).mp member)]
      exact Code.exactFor_of_lt (alike ▸ small) small
    · exact .inl (searchable.kind.trans (decide_eq_true linear))
  rw [CodeIndex.nearest_eq searchable.sound fits, searchable.codes, ranked]

/-- The ids under the first `k` codes. -/
def nearby (ix : Index) (query : Code) (k : Nat) : List String :=
  ix.members ((ix.ranked query).take k)

/-- Whether codes have enough ids between them to look for `n` neighbours. -/
def Enough (ix : Index) (n : Nat) (hits : List Hit) : Prop :=
  min (n * ix.settings.overfetch) ix.count ≤ (ix.members hits).length

/-- Whether the first `k` codes have enough ids. -/
def Suffices (ix : Index) (query : Code) (n k : Nat) : Prop :=
  ix.Enough n ((ix.ranked query).take k)

/-- How many codes are probed for `n` neighbours: the first of `n`, `2 * n`, `4 * n`, … that
suffices, all of these cut at the number of codes. -/
def Probes (ix : Index) (query : Code) (n k : Nat) : Prop :=
  ∃ i, k = min (doubled n i) (ix.ranked query).length ∧ ix.Suffices query n k ∧
    ∀ j < i, ¬ ix.Suffices query n (min (doubled n j) (ix.ranked query).length)

/-- Where an id is indexed, a code is stored. -/
theorem buckets_pos (represents : ix.Represents catalog) (some_id : 0 < ix.count) :
    0 < ix.contents.buckets.size := by
  rw [← length_ranked ix default]
  refine Nat.pos_of_ne_zero fun none => Nat.ne_of_gt some_id ?_
  rw [← length_members_ranked represents default, List.eq_nil_of_length_eq_zero none]
  rfl

/-- What the search answers, whether it is exact or not: as many stored codes as it should. -/
theorem search_gathered (represents : ix.Represents catalog) (query : Code) (k : Nat) :
    (ix.contents.search.nearest query k).length = min k ix.contents.buckets.size ∧
      ((ix.contents.search.nearest query k).map Hit.code).Subperm ix.contents.buckets.keys := by
  obtain ⟨_, gathered⟩ := CodeIndex.nearest_gathered represents.searchable.sound query k
  rw [represents.searchable.codes] at gathered
  have size := gathered.length_eq
  rw [SortedMap.length_keys] at size
  exact ⟨size, gathered.codes_subperm⟩

/-- What is probed is the first answer of the search that is enough, when it is asked for `n`,
`2 * n`, … codes, all of these cut at the number of codes. -/
theorem exists_gathered (represents : ix.Represents catalog) (query : Code) {n : Nat}
    (positive : 0 < n) (some_id : 0 < ix.count) :
    let gather (i : Nat) :=
      ix.contents.search.nearest query (min (doubled n i) ix.contents.buckets.size)
    ∃ i, ix.probed query n positive = gather i ∧ ix.Enough n (gather i) ∧
      ∀ j < i, ¬ ix.Enough n (gather j) := by
  intro gather
  have some_code := buckets_pos represents some_id
  have full : ∀ k ≤ ix.contents.buckets.size,
      (ix.contents.search.nearest query k).length = k := fun k within =>
    (search_gathered represents query k).1.trans (Nat.min_eq_left within)
  have last : ix.Enough n (ix.contents.search.nearest query ix.contents.buckets.size) := by
    obtain ⟨size, stored⟩ := search_gathered represents query ix.contents.buckets.size
    have whole := stored.perm_of_length_le
      (by rw [List.length_map, size, Nat.min_self, SortedMap.length_keys])
    have every : (ix.members _).length = ix.count :=
      (members_perm represents whole).length_eq.trans (SortedMap.length_keys _)
    rw [Enough, every]
    exact Nat.min_le_right _ _
  obtain ⟨i, answer, stops, earlier⟩ := widen_spec (ix.contents.search.nearest query)
    (fun hits => min (n * ix.settings.overfetch) ix.count ≤ (ix.members hits).length)
    (Nat.lt_min.mpr ⟨positive, some_code⟩) (Nat.min_le_right _ _) full (decide_eq_true last)
  simp only [min_doubled_min, decide_eq_true_eq, decide_eq_false_iff_not] at answer stops earlier
  refine ⟨i, ?_, stops, earlier⟩
  rw [probed, dif_pos some_code]
  exact answer

theorem exists_probes (represents : ix.Represents catalog)
    (exactly : ix.settings.Exact ix.hasher.bits) {query : Code}
    (alike : query.length = ix.hasher.bits) {n : Nat} (positive : 0 < n)
    (some_id : 0 < ix.count) :
    ∃ k, ix.Probes query n k ∧ ix.probed query n positive = (ix.ranked query).take k := by
  obtain ⟨i, answer, stops, earlier⟩ := exists_gathered represents query positive some_id
  simp only [search_nearest represents exactly alike, ← length_ranked ix query]
    at answer stops earlier
  exact ⟨_, ⟨i, rfl, stops, earlier⟩, answer⟩

/-- The vector that is stored for an indexed id. -/
def stored (ix : Index) (read : ReadVector) (id : String) : Except Error Descriptor :=
  (ix.handle id).bind read

/-- For ids that are indexed, measuring is reading the stored vector and comparing it. -/
theorem measure_eq (represents : ix.Represents catalog) (read : ReadVector) (query : Descriptor)
    {id : String} (indexed : id ∈ ix.ids) :
    ix.measure read query id = (ix.stored read id).bind fun v =>
      if v.length ≠ query.length then .error (.dimensionMismatch query.length v.length)
      else .ok ⟨id, .angular query v⟩ := by
  obtain ⟨code, found⟩ := SortedMap.contains_iff.mp (SortedMap.mem_keys.mp indexed)
  rw [represents.filed.codes] at found
  obtain ⟨entry, filed, _⟩ := Option.map_eq_some_iff.mp found
  have handle : ix.contents.handles.get? id = some entry.1 := by
    rw [represents.filed.handles, filed]
    rfl
  simp only [measure, stored, Index.handle, handle, bind, Except.bind]
  cases read entry.1 with
  | error e => rfl
  | ok v =>
    dsimp only
    split <;> rfl

theorem measure_ok_iff (represents : ix.Represents catalog) {read : ReadVector}
    {query : Descriptor} {id : String} (indexed : id ∈ ix.ids) {x : Neighbor} :
    ix.measure read query id = .ok x ↔ x.id = id ∧ Measured (ix.stored read) query x := by
  rw [measure_eq represents read query indexed]
  obtain ⟨id', distance⟩ := x
  constructor
  · intro done
    cases vector : ix.stored read id with
    | error e =>
      rw [vector] at done
      cases done
    | ok v =>
      simp only [vector, Except.bind] at done
      split at done
      · cases done
      · rename_i same
        cases done
        exact ⟨rfl, v, vector, Classical.not_not.mp same, rfl⟩
  · intro known
    obtain ⟨rfl, v, vector, same, rfl⟩ := known
    simp only at vector
    simp [vector, Except.bind, same]

theorem measure_error_iff (represents : ix.Represents catalog) {read : ReadVector}
    {query : Descriptor} {id : String} (indexed : id ∈ ix.ids) {e : Error} :
    ix.measure read query id = .error e ↔ Refused (ix.stored read) query id e := by
  rw [measure_eq represents read query indexed, Refused]
  cases ix.stored read id with
  | error e' => simp [Except.bind]
  | ok v =>
    simp only [Except.bind, Except.ok.injEq, exists_eq_left']
    by_cases same : v.length = query.length
    · simp [same]
    · simp [same, eq_comm]

/-- Comparing indexed ids and sorting what comes of it finds the nearest of them. -/
theorem nearest_of_measured (represents : ix.Represents catalog) (read : ReadVector)
    (query : Descriptor) (n : Nat) {among : List String} (indexed : ∀ id ∈ among, id ∈ ix.ids) :
    Nearest (ix.stored read) query n among
      ((among.mapM (ix.measure read query)).map fun measured =>
        (measured.mergeSort Neighbor.before).take n) := by
  cases result : among.mapM (ix.measure read query) with
  | error e =>
    obtain ⟨before, id, after, split, fine, failed⟩ := mapM_error_iff.mp result
    have indexed : ∀ x ∈ before ++ id :: after, x ∈ ix.ids := split ▸ indexed
    refine .failed split ?_ ((measure_error_iff represents (indexed id (by simp))).mp failed)
    intro x member
    obtain ⟨y, done⟩ := fine x member
    obtain ⟨rfl, measured⟩ :=
      (measure_ok_iff represents (indexed x (List.mem_append_left _ member))).mp done
    exact measured.comparable
  | ok measured =>
    have told : measured.map (·.id) = among := map_eq_of_mapM_ok
      (fun id member x done => ((measure_ok_iff represents (indexed id member)).mp done).1) result
    have sorted := List.pairwise_mergeSort Neighbor.before_trans Neighbor.before_total measured
    refine .ranked sorted ?_ ?_
    · rw [← told]
      exact (List.mergeSort_perm _ _).map _
    · intro x member
      obtain ⟨id, asked, done⟩ := exists_of_mapM_ok result (List.mem_mergeSort.mp member)
      exact ((measure_ok_iff represents (indexed id asked)).mp done).2

theorem nearest_nothing {read : ReadVector} {query : Descriptor} {code : Code} {n : Nat}
    (hashed : ix.hasher.hash query = .ok code) (nothing : n = 0 ∨ ix.count = 0) :
    (ix.nearest read query n).map (·.1) = .ok [] := by
  have refused : ¬ (0 < n ∧ 0 < ix.contents.codes.size) := by
    intro both
    obtain ⟨asked, some_id⟩ := both
    rcases nothing with none | none
    · exact Nat.ne_of_gt asked none
    · exact Nat.ne_of_gt some_id none
  simp only [Index.nearest, hashed, bind, Except.bind, dif_neg refused]
  rfl

theorem nearest_probed {read : ReadVector} {query : Descriptor} {code : Code} {n : Nat}
    (hashed : ix.hasher.hash query = .ok code) (asked : 0 < n) (some_id : 0 < ix.count) :
    (ix.nearest read query n).map (·.1) =
      ((ix.members (ix.probed code n asked)).mapM (ix.measure read query)).map fun measured =>
        (measured.mergeSort Neighbor.before).take n := by
  have both : 0 < n ∧ 0 < ix.contents.codes.size := ⟨asked, some_id⟩
  simp only [Index.nearest, hashed, bind, Except.bind, dif_pos both]
  cases (ix.members (ix.probed code n asked)).mapM (ix.measure read query) <;> rfl

/-- One neighbour is asked for, and the first code has one id. -/
theorem nearest_of_lone (represents : ix.Represents catalog) (read : ReadVector)
    {query : Descriptor} {code : Code} (hashed : ix.hasher.hash query = .ok code) {hit : Hit}
    (single : ix.settings.overfetch = 1) (first : ix.contents.search.nearest code 1 = [hit])
    {id : String} (lone : ix.bucket hit.code = [id])
    (readable : ∀ key, ∃ v, read key = .ok v ∧ v.length = query.length) :
    ∃ x, (ix.nearest read query 1).map (·.1) = .ok [x] ∧ x.id = id ∧
      Measured (ix.stored read) query x := by
  have listed : id ∈ ix.bucket hit.code := lone ▸ List.mem_singleton_self id
  have found := (mem_bucket represents).mp listed
  have indexed : id ∈ ix.ids := SortedMap.mem_keys.mpr (SortedMap.contains_iff.mpr ⟨_, found⟩)
  have some_id : 0 < ix.count :=
    Nat.lt_of_lt_of_eq (List.length_pos_of_mem indexed) (SortedMap.length_keys _)
  have some_code := buckets_pos represents some_id
  have members : ix.members [hit] = [id] := by
    rw [members, List.flatMap_cons, lone, List.flatMap_nil, List.append_nil]
  have probed : ix.probed code 1 Nat.one_pos = [hit] := by
    have one : min 1 ix.contents.buckets.size = 1 := by omega
    rw [Index.probed, dif_pos some_code, widen_of_enough, one, first]
    rw [one, first, members, single]
    exact decide_eq_true (Nat.min_le_left 1 _)
  obtain ⟨key, handle⟩ : ∃ key, ix.handle id = .ok key := by
    rw [represents.filed.codes] at found
    obtain ⟨entry, filed, _⟩ := Option.map_eq_some_iff.mp found
    exact ⟨entry.1, by rw [Index.handle, represents.filed.handles, filed]; rfl⟩
  obtain ⟨v, vector, sized⟩ := readable key
  have measured : ix.measure read query id = .ok ⟨id, .angular query v⟩ := by
    rw [measure_eq represents read query indexed, stored, handle]
    simp [Except.bind, vector, sized]
  refine ⟨⟨id, .angular query v⟩, ?_, rfl, v, by rw [stored, handle]; exact vector, sized, rfl⟩
  rw [nearest_probed hashed Nat.one_pos some_id, probed, members, List.mapM_cons, measured,
    List.mapM_nil]
  simp [bind, Except.bind, pure, Except.pure, Except.map]

theorem overfetch_pos {settings : IndexSettings} (valid : settings.validate = .ok ()) :
    0 < settings.overfetch := by
  apply Nat.pos_of_ne_zero
  intro none
  rw [IndexSettings.validate, if_pos none] at valid
  cases valid

/-- Of `n` neighbours asked for there are as many as there can be, and all of them are indexed. -/
theorem found_of_nearest (represents : ix.Represents catalog) {n : Nat} {among : List String}
    (part : among.Subperm ix.ids) (enough : min (n * ix.settings.overfetch) ix.count ≤ among.length)
    {read : ReadVector} {query : Descriptor} {found : List Neighbor}
    (nearest : Nearest (ix.stored read) query n among (.ok found)) :
    found.length = min n ix.count ∧ (found.map (·.id)).Nodup ∧ ∀ x ∈ found, x.id ∈ ix.ids := by
  have few : among.length ≤ ix.count := part.length_le.trans_eq (SortedMap.length_keys _)
  have fetched : n ≤ n * ix.settings.overfetch :=
    Nat.le_mul_of_pos_right n (overfetch_pos represents.valid)
  cases nearest with
  | @ranked all ascending whole measured =>
    have kept : ((all.take n).map (·.id)).Subperm ix.ids :=
      ((List.take_sublist n all).map _).subperm.trans (whole.subperm.trans part)
    refine ⟨?_, ?_, ?_⟩
    · have size := whole.length_eq
      rw [List.length_map] at size
      rw [List.length_take, size]
      omega
    · obtain ⟨ids, same, among⟩ := kept
      exact same.nodup_iff.mp (among.nodup (SortedMap.nodup_keys _))
    · exact fun x member => kept.subset (List.mem_map_of_mem member)

/-- A query for some neighbours among some ids, whether the search is exact or not: the nearest are
found among enough of the ids. -/
theorem exists_compared (represents : ix.Represents catalog) (read : ReadVector)
    {query : Descriptor} {code : Code} (hashed : ix.hasher.hash query = .ok code) {n : Nat}
    (asked : 0 < n) (some_id : 0 < ix.count) :
    let among := ix.members (ix.probed code n asked)
    among.Subperm ix.ids ∧ min (n * ix.settings.overfetch) ix.count ≤ among.length ∧
      Nearest (ix.stored read) query n among ((ix.nearest read query n).map (·.1)) := by
  intro among
  obtain ⟨i, probed, enough, _⟩ := exists_gathered represents code asked some_id
  have part : among.Subperm ix.ids := by
    refine members_subperm represents ?_
    rw [probed]
    exact (search_gathered represents code _).2
  refine ⟨part, ?_, ?_⟩
  · rw [← probed] at enough
    exact enough
  · rw [nearest_probed hashed asked some_id]
    exact nearest_of_measured represents read query n fun _ member => part.subset member

theorem nearest_of_represents (represents : ix.Represents catalog) (faithful : ix.hasher.Faithful)
    (read : ReadVector) {query : Descriptor} {code : Code}
    (hashed : ix.hasher.hash query = .ok code) (n : Nat) {answer : Except Error (List Neighbor)}
    (answered : (ix.nearest read query n).map (·.1) = answer) :
    (n = 0 ∨ ix.count = 0 → answer = .ok []) ∧
      (ix.settings.Exact ix.hasher.bits → 0 < n → 0 < ix.count → ∃ k, ix.Probes code n k ∧
        ∀ result, answer = result ↔
          Nearest (ix.stored read) query n (ix.nearby code k) result) ∧
      (∀ found, answer = .ok found → found.length = min n ix.count ∧
        (found.map (·.id)).Nodup ∧ ∀ x ∈ found, x.id ∈ ix.ids) ∧
      (ix.count ≤ n * ix.settings.overfetch → ∃ ids, ids.Perm ix.ids ∧ ∀ result,
        answer = result ↔ Nearest (ix.stored read) query n ids result) := by
  by_cases nothing : n = 0 ∨ ix.count = 0
  · have empty : answer = .ok [] := answered.symm.trans (nearest_nothing hashed nothing)
    have none : min n ix.count = 0 := by omega
    refine ⟨fun _ => empty, fun _ asked some_id => by omega, ?_, ?_⟩
    · intro found same
      cases empty.symm.trans same
      exact ⟨none.symm, List.nodup_nil, by simp⟩
    · intro wanted
      have uncounted : ix.count = 0 := by
        rcases nothing with rfl | none
        · rwa [Nat.zero_mul, Nat.le_zero] at wanted
        · exact none
      have unindexed : ix.ids = [] :=
        List.eq_nil_of_length_eq_zero ((SortedMap.length_keys _).trans uncounted)
      rw [unindexed, empty]
      exact ⟨[], .refl _, (Nearest.nothing _ query n).eq_iff⟩
  · obtain ⟨asked, some_id⟩ : 0 < n ∧ 0 < ix.count := by omega
    obtain ⟨part, enough, nearest⟩ := exists_compared represents read hashed asked some_id
    rw [answered] at nearest
    refine ⟨fun none => absurd none nothing, fun exactly _ _ => ?_, ?_, ?_⟩
    · obtain ⟨k, probes, probed⟩ :=
        exists_probes represents exactly (faithful query code hashed) asked some_id
      rw [probed] at nearest
      exact ⟨k, probes, nearest.eq_iff⟩
    · intro found same
      exact found_of_nearest represents part enough (same ▸ nearest)
    · intro wanted
      refine ⟨_, part.perm_of_length_le ?_, nearest.eq_iff⟩
      rw [Nat.min_eq_right wanted] at enough
      exact (SortedMap.length_keys _).trans_le enough

end Index
end Retrieval
