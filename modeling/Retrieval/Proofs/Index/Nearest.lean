import Retrieval.Proofs.Index.Fork

/-!
What a query finds after any calls. Nothing but the entries of the index and the stored vectors
matters (`nearest_of_run`); only which ids are compared depends on the search, where distances do
not fit 32 bits (`not_nearest_of_run_of_long`).
-/
namespace Retrieval.Index

/-- A query on an index after any calls. It is answered with nothing if nothing is asked or indexed,
and else, where the search is exact, with the nearest of the ids under as many codes as suffice.
There are as many neighbours as asked for or indexed, and all ids are compared if that many are
wanted, however long the codes are. -/
theorem nearest_of_run {fresh : Index} {hasher : Hasher} {settings : IndexSettings} {metrics : Bool}
    (faithful : hasher.Faithful) (created : Index.create hasher settings metrics = .ok fresh)
    (calls : List IndexCall) (read : ReadVector) {query : Descriptor} {code : Code}
    (hashed : hasher.hash query = .ok code) (n : Nat) :
    let ix := (fresh.run calls).1
    let answer := (ix.nearest read query n).map (·.1)
    (n = 0 ∨ ix.count = 0 → answer = .ok []) ∧
      (settings.Exact hasher.bits → 0 < n → 0 < ix.count → ∃ k, ix.Probes code n k ∧
        ∀ result, answer = result ↔
          Nearest (ix.stored read) query n (ix.nearby code k) result) ∧
      (∀ found, answer = .ok found → found.length = min n ix.count ∧
        (found.map (·.id)).Nodup ∧ ∀ x ∈ found, x.id ∈ ix.ids) ∧
      (ix.count ≤ n * settings.overfetch → ∃ ids, ids.Perm ix.ids ∧ ∀ result,
        answer = result ↔ Nearest (ix.stored read) query n ids result) := by
  obtain ⟨start, rfl, rfl⟩ := create_represents created
  obtain ⟨_, represents, hasher, settings⟩ := run_represents faithful start calls
  rw [← hasher] at faithful hashed
  rw [← settings, ← hasher]
  exact nearest_of_represents represents faithful read hashed n rfl

/-- The nearest neighbour of one is looked for among one and a number that is no longer stored. -/
theorem nearest_of_run_sign :
    let keys : List Key := [⟨"kind", "a"⟩, ⟨"kind", "b"⟩]
    let calls := [.build (fun _ => .ok [⟨0x3f800000⟩]) keys]
    let ix := ((unbuilt Hasher.sign 8).run calls).1
    let read : ReadVector := fun key =>
      if key.id = "a" then .ok [⟨0x3f800000⟩] else .error (.notComputed key)
    let code := Code.ofBools [true]
    let answer := (ix.nearest read [⟨0x3f800000⟩] 1).map (·.1)
    (1 = 0 ∨ ix.count = 0 → answer = .ok []) ∧
      (0 < 1 → 0 < ix.count → ∃ k, ix.Probes code 1 k ∧ ∀ result,
        answer = result ↔ Nearest (ix.stored read) [⟨0x3f800000⟩] 1 (ix.nearby code k) result) ∧
      (∀ found, answer = .ok found → found.length = min 1 ix.count ∧
        (found.map (·.id)).Nodup ∧ ∀ x ∈ found, x.id ∈ ix.ids) ∧
      (ix.count ≤ 1 * 8 → ∃ ids, ids.Perm ix.ids ∧ ∀ result,
        answer = result ↔ Nearest (ix.stored read) [⟨0x3f800000⟩] 1 ids result) := by
  intro keys calls ix read code answer
  have created : create Hasher.sign ⟨.linear, 8⟩ false =
      .ok (unbuilt Hasher.sign 8) := rfl
  have positive : 0 ≤ projection (Hyperplanes.sign.normals.row 0) [⟨0x3f800000⟩] := by
    decide +kernel
  have hashed : Hasher.sign.hash [⟨0x3f800000⟩] = .ok code := by
    show Except.ok (Code.ofBools [decide _]) = _
    rw [decide_eq_true positive]
  obtain ⟨nothing, probed, found, whole⟩ :=
    nearest_of_run Hasher.sign_faithful created calls read hashed 1
  exact ⟨nothing, probed (.inl (by decide)), found, whole⟩

/-- With codes of `2 ^ 32` bits a tree passes over the code that comes first, so the only id under
it is not the one that is answered. -/
theorem not_nearest_of_run_of_long :
    ¬ ∀ (fresh : Index) (hasher : Hasher) (settings : IndexSettings) (metrics : Bool),
      hasher.Faithful → Index.create hasher settings metrics = .ok fresh →
      ∀ (calls : List IndexCall) (read : ReadVector) (query : Descriptor) (code : Code),
      hasher.hash query = .ok code → ∀ n : Nat, 0 < n → 0 < (fresh.run calls).1.count →
      ∃ k, (fresh.run calls).1.Probes code n k ∧ ∀ result,
        ((fresh.run calls).1.nearest read query n).map (·.1) = result ↔
          Nearest ((fresh.run calls).1.stored read) query n ((fresh.run calls).1.nearby code k)
            result := by
  intro nearest
  obtain ⟨n, whole⟩ : ∃ n, n + 2 = 2 ^ 32 := ⟨2 ^ 32 - 2, rfl⟩
  obtain ⟨catalog, forked, planted, _⟩ := exists_grown n
  obtain ⟨x, answer, named⟩ := forked.nearest_forked_tree whole planted
  have indexed : forkedCode n "c" = some (.tailed n (true, true, true)) := rfl
  obtain ⟨k, ⟨i, rfl, _, short⟩, told⟩ := nearest (sapling n) (.tails n) ⟨.ballTree 2, 1⟩ false
    (Hasher.tails_faithful n) rfl [.build readForked forkedKeys] readForked [⟨0⟩, ⟨1⟩, ⟨1⟩]
    (.tailed n (false, true, true)) rfl 1 Nat.one_pos
    (forked.count_pos indexed)
  change ∀ j < i, ¬ (grown n).Suffices _ 1 (min (doubled 1 j) ((grown n).ranked _).length) at short
  rw [forked.length_ranked_forked] at short
  -- One code is enough for one neighbour, so no more of them are probed.
  have first : i = 0 := by
    refine Nat.eq_zero_of_not_pos fun later => short 0 later ?_
    show min (1 * (grown n).settings.overfetch) _ ≤ ((grown n).nearby _ 1).length
    rw [forked.nearby_forked whole, forked.single]
    exact Nat.min_le_left 1 _
  have found := (told (.ok [x])).mp answer
  change Nearest _ _ 1 ((grown n).nearby _ (min (doubled 1 i) ((grown n).ranked _).length)) _
    at found
  rw [first, forked.length_ranked_forked, show min (doubled 1 0) 3 = 1 from rfl,
    forked.nearby_forked whole] at found
  generalize answered : Except.ok [x] = result at found
  cases found with
  | @ranked all ascending whole measured =>
    have front : x ∈ all.take 1 := Except.ok.inj answered ▸ List.mem_singleton_self x
    have listed := whole.subset (List.mem_map_of_mem (List.mem_of_mem_take front))
    rw [named] at listed
    exact absurd (List.mem_singleton.mp listed) (by decide)
  | failed => cases answered

end Retrieval.Index
