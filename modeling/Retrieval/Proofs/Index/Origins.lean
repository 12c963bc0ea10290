import Retrieval.Proofs.Index.Nearest

/-!
A query by the vector of an indexed id. The id is filed under the code of the vector it was last
indexed with (`Index.run_bears`), and as long as it has that vector its code comes first among all
codes, for no other code of fewer than `2 ^ 32` bits is at distance zero. So the id is always
compared, and if it is not found others are nearer (`Index.self_found_of_run`).
-/
namespace Retrieval

/-- The vectors that ids were last indexed with, as far as calls tell. -/
abbrev Origins := String → Descriptor → Prop

namespace Origins

def none : Origins := fun _ _ => False

/-- Ids of keys get the vectors that are read, the last key counting; others keep theirs. -/
def reread (origins : Origins) (read : ReadVector) (keys : List Key) : Origins := fun id v =>
  match keys.reverse.find? fun key => key.id = id with
  | some key => read key = .ok v
  | .none => origins id v

/-- What a call that succeeds makes of the vectors. Loading reads none: an artifact stands for all
vectors that have the codes in it. -/
def after (hasher : Hasher) (origins : Origins) : IndexCall → Origins
  | .build read keys => Origins.none.reread read keys
  | .update read keys => origins.reread read keys
  | .remove ids => fun id v => id ∉ ids ∧ origins id v
  | .reset => none
  | .load artifact _ => fun id v => ∃ code ids, hasher.hash v = .ok code ∧
      artifact.entries.get? code = some ids ∧ id ∈ ids

/-- What a call makes of the vectors; one that fails indexes nothing. -/
def settle (hasher : Hasher) (origins : Origins) (call : IndexCall) : Except Error Unit → Origins
  | .ok () => origins.after hasher call
  | .error _ => origins

end Origins

/-- Ids are filed under the codes of the vectors they were last indexed with, and every id that is
filed under the code of some vector was indexed with one. -/
structure Entries.Bears (entries : Entries) (hasher : Hasher) (origins : Origins) : Prop where
  coded : ∀ id v, origins id v → ∃ key code, entries id = some (key, code) ∧
    hasher.hash v = .ok code
  told : ∀ id key code v, entries id = some (key, code) → hasher.hash v = .ok code →
    ∃ w, origins id w

section
variable {entries : Entries} {hasher : Hasher} {origins : Origins} {read : ReadVector}

theorem Entries.none_bears : Entries.none.Bears hasher .none := ⟨nofun, nofun⟩

theorem Entries.drop_bears (bears : entries.Bears hasher origins) (ids : List String) :
    (entries.drop ids).Bears hasher fun id v => id ∉ ids ∧ origins id v := by
  constructor
  · intro id v kept
    obtain ⟨left, origin⟩ := kept
    rw [Entries.drop, if_neg left]
    exact bears.coded id v origin
  · intro id key code v found hash
    have left : id ∉ ids := by
      intro dropped
      rw [Entries.drop, if_pos dropped] at found
      cases found
    obtain ⟨w, origin⟩ := bears.told id key code v (Entries.of_drop found) hash
    exact ⟨w, left, origin⟩

/-- Every key is hashed by the vector that is read for it. -/
theorem Hasher.of_mem_hashed {keys : List Key} {hashed : List (Key × Code)}
    (done : hasher.hashAll read keys = .ok hashed) {entry : Key × Code} (member : entry ∈ hashed) :
    ∃ v, read entry.1 = .ok v ∧ hasher.hash v = .ok entry.2 := by
  obtain ⟨key, _, made⟩ := exists_of_mapM_ok done member
  obtain ⟨v, vector, made⟩ := exists_of_bind_ok made
  obtain ⟨code, hash, made⟩ := exists_of_bind_ok made
  cases made
  exact ⟨v, vector, hash⟩

/-- The last key with an id is hashed last. -/
theorem Hasher.find?_hashAll {keys : List Key} {hashed : List (Key × Code)}
    (done : hasher.hashAll read keys = .ok hashed) (id : String) :
    keys.reverse.find? (fun key => key.id = id) =
      (hashed.reverse.find? fun entry => entry.1.id = id).map (·.1) := by
  have told : hashed.map (·.1) = keys := by
    refine map_eq_of_mapM_ok (fun key _ entry made => ?_) done
    obtain ⟨v, _, made⟩ := exists_of_bind_ok made
    obtain ⟨code, _, made⟩ := exists_of_bind_ok made
    cases made
    rfl
  rw [← told, ← List.map_reverse, List.find?_map]
  rfl

theorem Entries.file_bears (bears : entries.Bears hasher origins) {keys : List Key}
    {hashed : List (Key × Code)} (done : hasher.hashAll read keys = .ok hashed) :
    (entries.file hashed).Bears hasher (origins.reread read keys) := by
  -- An id is among the keys, and its last key counts on both sides, or it stays as it was.
  have here (id : String) :
      (∃ key code w, entries.file hashed id = some (key, code) ∧ hasher.hash w = .ok code ∧
        ∀ v, origins.reread read keys id v ↔ v = w) ∨
      (entries.file hashed id = entries id ∧
        ∀ v, origins.reread read keys id v ↔ origins id v) := by
    simp only [Origins.reread, Hasher.find?_hashAll done, Entries.file]
    cases last : hashed.reverse.find? fun entry => entry.1.id = id with
    | none => exact .inr ⟨rfl, fun v => Iff.rfl⟩
    | some entry =>
      obtain ⟨w, vector, hash⟩ :=
        Hasher.of_mem_hashed done (List.mem_reverse.mp (List.mem_of_find?_eq_some last))
      refine .inl ⟨entry.1, entry.2, w, rfl, hash, fun v => ?_⟩
      show read entry.1 = .ok v ↔ v = w
      rw [vector, Except.ok.injEq, eq_comm]
  constructor
  · intro id v origin
    rcases here id with ⟨key, code, w, found, hash, only⟩ | ⟨same, kept⟩
    · rw [(only v).mp origin]
      exact ⟨key, code, found, hash⟩
    · rw [same]
      exact bears.coded id v ((kept v).mp origin)
  · intro id key code v found hash
    rcases here id with ⟨_, _, w, _, _, only⟩ | ⟨same, kept⟩
    · exact ⟨w, (only w).mpr rfl⟩
    · obtain ⟨w, origin⟩ := bears.told id key code v (same ▸ found) hash
      exact ⟨w, (kept w).mpr origin⟩

theorem Artifact.Valid.bears {artifact : Artifact} (valid : artifact.Valid) (label : String) :
    (Entries.none.file (Index.handlesOf artifact label)).Bears hasher
      (origins.after hasher (.load artifact label)) := by
  constructor
  · intro id v origin
    obtain ⟨code, ids, hash, found, member⟩ := origin
    exact ⟨⟨label, id⟩, code, (Index.file_handlesOf valid label).mpr ⟨rfl, ids, found, member⟩, hash⟩
  · intro id key code v found hash
    obtain ⟨_, ids, filed, member⟩ := (Index.file_handlesOf valid label).mp found
    exact ⟨v, code, ids, hash, filed, member⟩

theorem Catalog.attempt_bears {catalog after : Catalog}
    (bears : catalog.entries.Bears hasher origins) {call : IndexCall}
    (done : catalog.attempt hasher call = .ok after) :
    after.entries.Bears hasher (origins.after hasher call) := by
  cases call with
  | build read keys =>
    unfold attempt at done
    dsimp only at done
    split at done
    · cases done
    · obtain ⟨hashed, hashes, rfl⟩ := exists_of_map_ok done
      exact Entries.file_bears Entries.none_bears hashes
  | update read keys =>
    obtain ⟨hashed, hashes, rfl⟩ := exists_of_map_ok done
    exact Entries.file_bears bears hashes
  | remove ids =>
    unfold attempt at done
    dsimp only at done
    split at done
    · cases done
    · cases done
      exact Entries.drop_bears bears ids
  | reset =>
    cases done
    exact Entries.none_bears
  | load artifact label =>
    unfold attempt at done
    dsimp only at done
    split at done
    · cases done
    · rename_i checked
      split at done
      · cases done
      · split at done
        · cases done
        · cases done
          exact (Artifact.validate_ok_iff.mp checked).bears label

theorem Catalog.step_bears {catalog : Catalog} (bears : catalog.entries.Bears hasher origins)
    (call : IndexCall) :
    (catalog.step hasher call).1.entries.Bears hasher
      (origins.settle hasher call (catalog.step hasher call).2) := by
  unfold step
  cases done : catalog.attempt hasher call with
  | error e => exact bears
  | ok after => exact attempt_bears bears done

end

namespace Index
variable {ix : Index} {catalog : Catalog}

/-- The vectors that ids were last indexed with once calls have been made. -/
def origins (ix : Index) (known : Origins) : List IndexCall → Origins
  | [] => known
  | call :: rest =>
    let after := ix.step call
    after.1.origins (known.settle ix.hasher call after.2) rest

theorem run_bears (faithful : ix.hasher.Faithful) (represents : ix.Represents catalog)
    {known : Origins} (bears : catalog.entries.Bears ix.hasher known) (calls : List IndexCall) :
    (catalog.run ix.hasher calls).1.entries.Bears ix.hasher (ix.origins known calls) := by
  induction calls generalizing ix catalog known with
  | nil => exact bears
  | cons call rest ih =>
    obtain ⟨answer, after, hasher, _⟩ := step_represents faithful represents call
    have here : (catalog.step ix.hasher call).1.entries.Bears (ix.step call).1.hasher
        (known.settle ix.hasher call (ix.step call).2) := by
      rw [answer, hasher]
      exact Catalog.step_bears bears call
    have later := ih (by rwa [hasher]) after here
    rwa [hasher] at later

/-- After any calls, an id that is filed under the code of some vector was last indexed with one of
that code. -/
theorem exists_origin_of_run {fresh : Index} {hasher : Hasher} {settings : IndexSettings}
    {metrics : Bool} (faithful : hasher.Faithful)
    (created : Index.create hasher settings metrics = .ok fresh) (calls : List IndexCall)
    {id : String} {code : Code} {v : Descriptor}
    (filed : (fresh.run calls).1.code? id = some code) (hash : hasher.hash v = .ok code) :
    ∃ w, fresh.origins .none calls id w ∧ hasher.hash w = .ok code := by
  obtain ⟨start, rfl, _⟩ := create_represents created
  obtain ⟨_, represents, _, _⟩ := run_represents faithful start calls
  have bears := run_bears faithful start Entries.none_bears calls
  rw [code?, represents.filed.codes] at filed
  obtain ⟨⟨key, code⟩, entry, rfl⟩ := Option.map_eq_some_iff.mp filed
  obtain ⟨w, origin⟩ := bears.told id key code v entry hash
  obtain ⟨key', code', entry', hash'⟩ := bears.coded id w origin
  cases entry.symm.trans entry'
  exact ⟨w, origin, hash'⟩

/-- A stored code is the first one near itself: no other code is at distance zero, as long as 32
bits are enough for it. -/
theorem exists_ranked_self (represents : ix.Represents catalog) (small : ix.hasher.bits < 2 ^ 32)
    {code : Code} (held : ix.contents.buckets.contains code = true) :
    ∃ others, ix.ranked code = Hit.of code code :: others := by
  have listed : Hit.of code code ∈ ix.ranked code :=
    (sortHits_perm _).mem_iff.mpr (List.mem_map_of_mem (SortedMap.mem_keys.mpr held))
  cases order : ix.ranked code with
  | nil =>
    rw [order] at listed
    cases listed
  | cons first others =>
    have member : first ∈ ix.ranked code := order ▸ List.mem_cons_self
    obtain ⟨other, stored, rfl⟩ := List.mem_map.mp ((sortHits_perm _).mem_iff.mp member)
    have ascending : (Hit.of code other :: others).Pairwise
        fun a b => (compare a b).isLE = true := by
      rw [← order]
      exact sortHits_ascending _
    have before : (compare (Hit.of code other) (Hit.of code code)).isLE = true := by
      rw [order] at listed
      rcases List.mem_cons.mp listed with same | later
      · rw [same]
        exact Ordering.isLE_of_eq_eq Std.ReflCmp.compare_self
      · exact List.rel_of_pairwise_cons ascending later
    have near : code.hamming other ≤ code.hamming code := Hit.distance_le before
    have sized := represents.searchable.lengths code held
    have alike : code.length = other.length := by
      rw [sized, represents.searchable.lengths other (SortedMap.mem_keys.mp stored)]
    rw [Code.hamming_self, UInt32.le_zero_iff] at near
    rw [← (Code.hamming_eq_zero_iff alike (sized ▸ small)).mp near]
    exact ⟨others, rfl⟩

/-- An id is among those compared with a vector of its own code. -/
theorem mem_nearby_self (represents : ix.Represents catalog) (small : ix.hasher.bits < 2 ^ 32)
    {id : String} {code : Code} (filed : ix.contents.codes.get? id = some code) {k : Nat}
    (positive : 0 < k) :
    id ∈ ix.nearby code k := by
  have inside := (mem_bucket represents).mpr filed
  have held : ix.contents.buckets.contains code = true := by
    cases found : ix.contents.buckets.get? code with
    | none =>
      rw [bucket, found] at inside
      cases inside
    | some ids => exact SortedMap.contains_iff.mpr ⟨ids, found⟩
  obtain ⟨others, order⟩ := exists_ranked_self represents small held
  obtain ⟨k, rfl⟩ := Nat.exists_eq_add_of_lt positive
  rw [nearby, order, Nat.zero_add, List.take_succ_cons, members, List.flatMap_cons]
  exact List.mem_append_left _ inside

/-- Among ids of which `n` are answered, an id is one of them or comes behind all of them. -/
theorem found_or_behind {stored : String → Except Error Descriptor} {v : Descriptor} {n : Nat}
    {ids : List String} {found : List Neighbor} (nearest : Nearest stored v n ids (.ok found))
    {id : String} (member : id ∈ ids) (unchanged : stored id = .ok v) :
    id ∈ found.map (·.id) ∨ found.length = n ∧ ∀ x ∈ found,
      Measured stored v x ∧ x.before ⟨id, .angular v v⟩ = true ∧ x.id ≠ id := by
  by_cases listed : id ∈ found.map (·.id)
  · exact .inl listed
  · cases nearest with
    | @ranked all ascending whole measured =>
      obtain ⟨self, inside, rfl⟩ := List.mem_map.mp (whole.mem_iff.mpr member)
      obtain ⟨w, vector, _, distance⟩ := measured self inside
      cases vector.symm.trans unchanged
      have place : self = ⟨self.id, .angular v v⟩ := by rw [← distance]
      rw [← List.take_append_drop n all] at inside ascending
      have behind : self ∈ all.drop n := by
        rcases List.mem_append.mp inside with front | behind
        · exact absurd (List.mem_map_of_mem front) listed
        · exact behind
      refine .inr ⟨?_, fun x front => ⟨measured x (List.mem_of_mem_take front), ?_, ?_⟩⟩
      · have more := List.length_pos_of_mem behind
        rw [List.length_drop] at more
        rw [List.length_take]
        omega
      · rw [← place]
        exact (List.pairwise_append.mp ascending).2.2 x front self behind
      · exact fun same => listed (same ▸ List.mem_map_of_mem front)

/-- Codes that suffice are not none at all, if an id is asked for and there is one. -/
theorem Suffices.pos (represents : ix.Represents catalog) {code : Code} {n k : Nat}
    (enough : ix.Suffices code n k) (asked : 0 < n) (some_id : 0 < ix.count) : 0 < k := by
  have fetched : 0 < n * ix.settings.overfetch := Nat.mul_pos asked (overfetch_pos represents.valid)
  apply Nat.pos_of_ne_zero
  rintro rfl
  have few : min (n * ix.settings.overfetch) ix.count ≤ 0 := enough
  omega

/-- After any calls of an index of codes with fewer than `2 ^ 32` bits, let an id have the vector
again that it was last indexed with. A query by this vector that is answered finds the id, or as
many others as were asked for, all of which precede it: they are nearer, or as near and first in the
order of ids. -/
theorem self_found_of_run {fresh : Index} {hasher : Hasher} {settings : IndexSettings}
    {metrics : Bool} (faithful : hasher.Faithful) (small : hasher.bits < 2 ^ 32)
    (created : Index.create hasher settings metrics = .ok fresh) (calls : List IndexCall)
    (read : ReadVector) {id : String} {v : Descriptor} {n : Nat} {found : List Neighbor}
    (origin : fresh.origins .none calls id v)
    (unchanged : (fresh.run calls).1.stored read id = .ok v) (asked : 0 < n)
    (answered : ((fresh.run calls).1.nearest read v n).map (·.1) = .ok found) :
    id ∈ found.map (·.id) ∨
      found.length = n ∧ (found.map (·.id)).Nodup ∧ ∀ x ∈ found,
        Measured ((fresh.run calls).1.stored read) v x ∧
          x.before ⟨id, .angular v v⟩ = true ∧ x.id ≠ id := by
  obtain ⟨start, rfl, rfl⟩ := create_represents created
  obtain ⟨_, represents, hasher, _⟩ := run_represents faithful start calls
  have bears := run_bears faithful start Entries.none_bears calls
  obtain ⟨key, code, entry, hash⟩ := bears.coded id v origin
  rw [← hasher] at faithful small hash
  have filed : (fresh.run calls).1.contents.codes.get? id = some code := by
    rw [represents.filed.codes, entry]
    rfl
  have some_id : 0 < (fresh.run calls).1.count := by
    have listed := SortedMap.mem_keys.mpr (SortedMap.contains_iff.mpr ⟨code, filed⟩)
    exact Nat.lt_of_lt_of_eq (List.length_pos_of_mem listed) (SortedMap.length_keys _)
  obtain ⟨_, probed, sized, _⟩ :=
    nearest_of_represents represents faithful read hash n answered
  obtain ⟨k, probes, answer⟩ := probed (.inl small) asked some_id
  obtain ⟨_, _, enough, _⟩ := probes
  have compared := mem_nearby_self represents small filed (enough.pos represents asked some_id)
  have nearest := (answer (.ok found)).mp rfl
  rcases found_or_behind nearest compared unchanged with listed | ⟨full, behind⟩
  · exact .inl listed
  · exact .inr ⟨full, (sized found rfl).2.1, behind⟩

/-- One is hashed, and found again by itself. -/
theorem self_found_of_run_sign :
    let v : Descriptor := [⟨0x3f800000⟩]
    let fresh := unbuilt Hasher.sign 8
    let read : ReadVector := fun _ => .ok v
    let calls := [.update read [⟨"kind", "a"⟩]]
    let found : List Neighbor := [⟨"a", .angular v v⟩]
    (fresh.origins .none calls "a" v ∧ (fresh.run calls).1.stored read "a" = .ok v ∧ 0 < 1 ∧
      ((fresh.run calls).1.nearest read v 1).map (·.1) = .ok found) ∧
      ("a" ∈ found.map (·.id) ∨
        found.length = 1 ∧ (found.map (·.id)).Nodup ∧ ∀ x ∈ found,
          Measured ((fresh.run calls).1.stored read) v x ∧
            x.before ⟨"a", .angular v v⟩ = true ∧ x.id ≠ "a") := by
  intro v fresh read calls found
  have created : create Hasher.sign ⟨.linear, 8⟩ false = .ok fresh := rfl
  have faithful := Hasher.sign_faithful
  have took : (fresh.step (.update read [⟨"kind", "a"⟩])).2 = .ok () := by decide +kernel
  have origin : fresh.origins .none calls "a" v := by
    simp only [origins, calls, took]
    rfl
  have unchanged : (fresh.run calls).1.stored read "a" = .ok v := by decide +kernel
  have ids : (fresh.run calls).1.ids = ["a"] := by decide +kernel
  have answered : ((fresh.run calls).1.nearest read v 1).map (·.1) = .ok found := by
    obtain ⟨start, _, _⟩ := create_represents created
    obtain ⟨_, represents, hasher, _⟩ := run_represents faithful start calls
    have hash : (fresh.run calls).1.hasher.hash v = .ok (.ofBools [true]) := by
      rw [hasher]
      decide +kernel
    obtain ⟨_, _, _, whole⟩ :=
      nearest_of_represents represents (hasher ▸ faithful) read hash 1 rfl
    obtain ⟨listed, same, answer⟩ := whole (by decide +kernel)
    rw [ids] at same
    have ranked : Nearest ((fresh.run calls).1.stored read) v 1 listed (.ok (found.take 1)) :=
      .ranked (List.pairwise_singleton _ _) same.symm
        (List.forall_mem_singleton.mpr ⟨v, unchanged, rfl, rfl⟩)
    exact (answer _).mpr ranked
  exact ⟨⟨origin, unchanged, Nat.one_pos, answered⟩,
    self_found_of_run faithful (by decide) created calls read origin unchanged Nat.one_pos answered⟩

/-- Two ids under a code and its complement. -/
def twinCode (n : Nat) (id : String) : Option Code :=
  if id = "a" then some (.tailed n (true, true, true))
  else if id = "b" then some (.tailed n (false, false, false)) else Option.none

def readTwins : ReadVector := fun key =>
  .ok (if key.id = "a" then [⟨1⟩, ⟨1⟩, ⟨1⟩] else [⟨0⟩, ⟨0⟩, ⟨0⟩])

theorem entries_twins (n : Nat) (id : String) :
    (Catalog.empty.run (.tails n) [.build readTwins [⟨"kind", "a"⟩, ⟨"kind", "b"⟩]]).1.entries id =
      (twinCode n id).map fun code => (⟨"kind", id⟩, code) := by
  show Entries.none.file [(⟨"kind", "a"⟩, .tailed n (true, true, true)),
    (⟨"kind", "b"⟩, .tailed n (false, false, false))] id = _
  by_cases a : id = "a"
  · subst a; rfl
  by_cases b : id = "b"
  · subst b; rfl
  simp [Entries.file, Entries.none, twinCode, a, b, eq_comm]

theorem twinCode_complement {n : Nat} {id : String} :
    twinCode n id = some (.tailed n (false, false, false)) ↔ id = "b" := by
  have apart : Code.tailed n (true, true, true) ≠ .tailed n (false, false, false) := fun same =>
    absurd (Code.front_eq_of_tailed_eq same).1 (by decide)
  unfold twinCode
  split
  · rename_i a
    subst a
    simp [apart]
  · split <;> simp_all

theorem keys_twins {n : Nat} (twins : ix.Coded catalog n (twinCode n)) :
    ix.contents.buckets.keys = [.tailed n (false, false, false), .tailed n (true, true, true)] := by
  refine SortedMap.keys_eq_of_ascending
    (List.pairwise_pair.mpr (Code.compare_tailed_first n _ _)) fun code => ?_
  rw [twins.contains_iff]
  constructor
  · intro member
    rcases List.mem_cons.mp member with rfl | member
    · exact ⟨"b", rfl⟩
    · rw [List.mem_singleton.mp member]
      exact ⟨"a", rfl⟩
  · intro filed
    obtain ⟨id, filed⟩ := filed
    unfold twinCode at filed
    split at filed
    · cases filed; simp
    · split at filed
      · cases filed; simp
      · cases filed

/-- The complement of a code comes before it, at no distance. -/
theorem ranked_twins {n : Nat} (whole : n + 2 = 2 ^ 32) (twins : ix.Coded catalog n (twinCode n)) :
    (ix.ranked (.tailed n (true, true, true))).take 1 = [⟨0, .tailed n (false, false, false)⟩] := by
  have before : (compare (⟨0, .tailed n (false, false, false)⟩ : Hit)
      ⟨0, .tailed n (true, true, true)⟩).isLE = true := by
    show ((compare (0 : UInt32) 0).then
      (compare (Code.tailed n (false, false, false)) (.tailed n (true, true, true)))).isLE = true
    rw [Code.compare_tailed_first]
    rfl
  have sorted : sortHits [⟨0, .tailed n (false, false, false)⟩, ⟨0, .tailed n (true, true, true)⟩] =
      [⟨0, .tailed n (false, false, false)⟩, ⟨0, .tailed n (true, true, true)⟩] :=
    hits_eq_of_ascending (sortHits_ascending _) (List.pairwise_pair.mpr before) (sortHits_perm _)
  rw [ranked, keys_twins twins]
  simp only [List.map_cons, List.map_nil, Hit.of, Code.hamming_tailed whole]
  exact congrArg (List.take 1) sorted

/-- Where a code has `2 ^ 32` bits its complement is at no distance from it, and is all that a query
by the vector of an id looks at. -/
theorem not_self_found_of_run_of_long :
    ¬ ∀ (fresh : Index) (hasher : Hasher) (settings : IndexSettings) (metrics : Bool),
      hasher.Faithful → Index.create hasher settings metrics = .ok fresh →
      ∀ (calls : List IndexCall) (read : ReadVector) (id : String) (v : Descriptor) (n : Nat)
        (found : List Neighbor), fresh.origins .none calls id v →
      (fresh.run calls).1.stored read id = .ok v → 0 < n →
      ((fresh.run calls).1.nearest read v n).map (·.1) = .ok found →
      id ∈ found.map (·.id) ∨
        found.length = n ∧ (found.map (·.id)).Nodup ∧
          ∀ x ∈ found, x.before ⟨id, .angular v v⟩ = true := by
  intro self_found
  obtain ⟨n, whole⟩ : ∃ n, n + 2 = 2 ^ 32 := ⟨2 ^ 32 - 2, rfl⟩
  have created : create (.tails n) ⟨.linear, 1⟩ false = .ok (unbuilt (.tails n) 1) := rfl
  obtain ⟨answers, settings, twins, handles⟩ := coded_of_run created (entries_twins n)
  -- The vector of the other id has become the same, so that the order of ids decides.
  let v : Descriptor := [⟨1⟩, ⟨1⟩, ⟨1⟩]
  let read : ReadVector := fun _ => .ok v
  have hashed : (Hasher.tails n).hash v = .ok (.tailed n (true, true, true)) := rfl
  have alike : (Code.tailed n (true, true, true)).length = (Hasher.tails n).bits :=
    Code.length_tailed n _
  rw [← twins.hasher] at hashed alike
  have first := search_nearest twins.represents (.inr (congrArg (·.search) settings)) alike 1
  rw [ranked_twins whole twins] at first
  obtain ⟨x, answer, named, w, vector, _, distance⟩ := nearest_of_lone twins.represents read hashed
    twins.single first (twins.bucket fun _ => twinCode_complement) fun _ => ⟨v, rfl, rfl⟩
  have origin : (unbuilt (.tails n) 1).origins .none
      [.build readTwins [⟨"kind", "a"⟩, ⟨"kind", "b"⟩]] "a" v := by
    have took := (List.cons.inj answers).1
    simp only [origins] at took ⊢
    rw [took]
    rfl
  have unchanged : (((unbuilt (.tails n) 1).run
      [.build readTwins [⟨"kind", "a"⟩, ⟨"kind", "b"⟩]]).1.stored read "a") = .ok v := by
    rw [stored, Index.handle, handles]
    rfl
  rcases self_found _ (.tails n) _ false (Hasher.tails_faithful n) created _ read "a" v 1 _ origin
    unchanged Nat.one_pos answer with listed | behind
  · rw [List.map_singleton, named] at listed
    exact absurd (List.mem_singleton.mp listed) (by decide)
  · obtain ⟨_, _, before⟩ := behind
    have before := before x (List.mem_singleton_self x)
    rw [stored, Index.handle, handles, named] at vector
    cases vector
    have later : compareLex (compareOn Neighbor.distance) (compareOn Neighbor.id) x
        ⟨"a", .angular v v⟩ = .gt := by
      show (compare x.distance (.angular v v)).then (compare x.id "a") = .gt
      rw [distance, Std.ReflOrd.compare_self, named]
      decide
    rw [Neighbor.before, later] at before
    cases before

end Index
end Retrieval
