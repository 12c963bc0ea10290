import Retrieval.Proofs.Index.Tables
import Retrieval.Proofs.Ranking
import Retrieval.Proofs.Service.Interleaving

/-!
What a refinement hands to its ranker and what it makes of the scores (`World.candidates_of_run`).
The examples and the pool of a session may name ids that its index has dropped since; those are left
out of the request, and as the ranking and the next pool come from the request, nothing else is.
-/
namespace Retrieval

namespace Index
variable {ix iy : Index}

/-- The vectors of those ids that are indexed, in order. -/
def vectors (ix : Index) (read : ReadVector) (ids : SortedSet String) :
    Except Error (List Descriptor) :=
  (ids.toList.filter ix.contains).mapM fun id => ix.handle id >>= read

/-- The nearest neighbours of a vector, leaving aside that a query is counted. -/
def neighbors (ix : Index) (read : ReadVector) (n : Nat) (query : Descriptor) :
    Except Error (List Neighbor) :=
  (ix.nearest read query n).map (·.1)

theorem neighbors_of_unmetered (same : iy.unmetered = ix.unmetered) (read : ReadVector) (n : Nat) :
    iy.neighbors read n = ix.neighbors read n := by
  funext query
  unfold neighbors
  rw [← unmetered_nearest iy, same, unmetered_nearest]

theorem handle_of_unmetered (same : iy.unmetered = ix.unmetered) : iy.handle = ix.handle :=
  (congrArg Index.handle same : iy.unmetered.handle = ix.unmetered.handle)

end Index

/-- A request is made up of what a session has and its index holds: the seed and the vectors of the
positive examples, the vectors of the negative ones, and the ids of the pool and of the neighbours
of each positive vector. Ids that are not indexed are left out. -/
structure RankRequest.Gathered (request : RankRequest) (read : ReadVector) (ix : Index)
    (x : Session) : Prop where
  positives : ∃ seed chosen, x.feedback.seed = some seed ∧
    ix.vectors read x.feedback.positives = .ok chosen ∧ request.positives = seed :: chosen
  negatives : ix.vectors read x.feedback.negatives = .ok request.negatives
  pool : ∃ around, request.positives.mapM (ix.neighbors read x.settings.poolSize) = .ok around ∧
    ∀ id, id ∈ request.pool.map Key.id ↔
      ix.contains id = true ∧ (id ∈ x.feedback.pool ∨ ∃ found ∈ around, id ∈ found.map Neighbor.id)
  ascending : (request.pool.map Key.id).Pairwise fun a b => compare a b = .lt
  handles : ∀ key ∈ request.pool, ix.handle key.id = .ok key

/-- A session takes over a ranking of a pool: the scores in order, and the ids of the pool as they
are. The seed and the examples stay. -/
structure Session.TakesOver (pool : List Key) (scores ranking : List Scored) (before after : Session) :
    Prop where
  perm : ranking.Perm scores
  sorted : ranking.Pairwise Scored.Ahead
  stored : after.feedback.ranking = ranking
  pool : after.feedback.pool.toList = pool.map Key.id
  ids : (ranking.map Scored.id).Perm after.feedback.pool.toList
  phase : after.phase = .refining
  seed : after.feedback.seed = before.feedback.seed
  positives : after.feedback.positives = before.feedback.positives
  negatives : after.feedback.negatives = before.feedback.negatives

namespace Service
open Session
variable {s s' : Service} {ref index : Ref} {ix : Index} {x : Session}

theorem handle_of_held (held : s.indexes.get? index = some ix) : s.handle index = ix.handle := by
  funext id
  unfold handle
  rw [held]

/-- Reading examples and skipping those without a handle is reading those that are indexed. -/
theorem exampleVectors_eq (held : s.indexes.get? index = some ix) (tabled : ix.contents.Tabled)
    (ids : List String) : s.exampleVectors index ids =
      (ids.filter ix.contains).mapM fun id => ix.handle id >>= s.vector := by
  induction ids with
  | nil => rfl
  | cons id rest ih =>
    unfold exampleVectors
    rw [handle_of_held held]
    rcases Index.handle_cases tabled id with ⟨key, handled, _, indexed⟩ | ⟨missing, absent⟩
    · rw [List.filter_cons_of_pos indexed, mapM_cons, handled, ih]
      rfl
    · rw [List.filter_cons_of_neg (Bool.eq_false_iff.mp absent), missing]
      exact ih

/-- The handles of ids are those of the ids that are indexed. -/
theorem handlesIn_ids (handles : s.handle index = ix.handle) (tabled : ix.contents.Tabled)
    (ids : List String) : (s.handlesIn index ids).map Key.id = ids.filter ix.contains := by
  unfold handlesIn
  rw [handles]
  induction ids with
  | nil => rfl
  | cons id rest ih =>
    rcases Index.handle_cases tabled id with ⟨key, handled, named, indexed⟩ | ⟨missing, absent⟩
    · have first : (ix.handle id).toOption = some key := congrArg Except.toOption handled
      rw [List.filterMap_cons_some (f := fun id => (ix.handle id).toOption) first,
        List.filter_cons_of_pos indexed, List.map_cons, named, ih]
    · have none : (ix.handle id).toOption = none := congrArg Except.toOption missing
      rw [List.filterMap_cons_none (f := fun id => (ix.handle id).toOption) none,
        List.filter_cons_of_neg (Bool.eq_false_iff.mp absent), ih]

theorem handle_of_mem_handlesIn (handles : s.handle index = ix.handle)
    (tabled : ix.contents.Tabled) {ids : List String} {key : Key}
    (member : key ∈ s.handlesIn index ids) : ix.handle key.id = .ok key := by
  obtain ⟨id, _, found⟩ := List.mem_filterMap.mp member
  rw [handles] at found
  rcases Index.handle_cases tabled id with ⟨key', handled, named, _⟩ | ⟨missing, _⟩
  · rw [handled] at found
    cases found
    rw [named, handled]
  · rw [missing] at found
    cases found

/-- A pool that has grown has the ids of the old one and the neighbours of each vector. -/
theorem growPool_ok {size : Nat} {budget : Budget} {pool grown : SortedSet String}
    {positives : List Descriptor} (held : s.indexes.get? index = some ix)
    (grew : s.growPool index size budget pool positives = (s', .ok grown)) :
    ∃ around, positives.mapM (ix.neighbors s.vector size) = .ok around ∧
      ∀ id, id ∈ grown ↔ id ∈ pool ∨ ∃ found ∈ around, id ∈ found.map Neighbor.id := by
  induction positives generalizing s ix pool with
  | nil =>
    cases grew
    exact ⟨[], rfl, by simp⟩
  | cons chosen rest ih =>
    unfold growPool at grew
    cases checked : budget.check with
    | error e =>
      rw [checked] at grew
      cases grew
    | ok _ =>
      rw [checked] at grew
      cases answered : ix.nearest s.vector chosen size with
      | error e =>
        simp only [nearest, onIndex, held, answered] at grew
        cases grew
      | ok answer =>
        obtain ⟨found, after⟩ := answer
        simp only [nearest, onIndex, held, answered] at grew
        obtain ⟨around, queried, grows⟩ := ih (SortedMap.get?_insert_self _ _ _) grew
        have first : ix.neighbors s.vector size chosen = .ok found := by
          rw [Index.neighbors, answered]
          rfl
        -- The induction is about the index that has counted this query, which answers as `ix` does.
        have later : rest.mapM (ix.neighbors s.vector size) = .ok around := by
          rw [← Index.neighbors_of_unmetered (Index.nearest_unmetered answered)]
          exact queried
        refine ⟨found :: around, ?_, fun id => ?_⟩
        · rw [mapM_cons, first, later]
          rfl
        · rw [grows, SortedSet.mem_insertMany]
          simp only [List.mem_cons, exists_eq_or_imp]
          rw [or_assoc, or_left_comm]

theorem prepareRefine_gathers {budget : Budget} {r : Refinement} (consistent : x.Consistent)
    (held : s.indexes.get? x.index = some ix) (tabled : ix.contents.Tabled)
    (prepared : s.prepareRefine ref x budget = (s', .ok r)) :
    r.request.Gathered s.vector ix x := by
  obtain ⟨positives, negatives, pool, gathered, grown, rfl⟩ := prepareRefine_parts prepared
  obtain ⟨allowed, _, chosen, read, read', rfl⟩ := gatherExamples_parts gathered
  obtain ⟨seed, seeded⟩ := Option.isSome_iff_exists.mp
    (consistent.seeded.mpr (require_refine_ok_iff.mp allowed))
  obtain ⟨around, queried, grows⟩ := growPool_ok held grown
  rw [exampleVectors_eq held tabled] at read read'
  -- The handles are looked up behind the queries, so not in `ix` itself.
  have handles : s'.handle x.index = ix.handle := by
    have alike := growPool_alike ref s x.index x.settings.poolSize budget x.feedback.pool
      (x.feedback.seed.toList ++ chosen)
    rw [grown] at alike
    have counted := alike.indexes x.index
    rw [held, Option.map_some] at counted
    obtain ⟨after, held', same⟩ := Option.map_eq_some_iff.mp counted
    exact (handle_of_held held').trans (Index.handle_of_unmetered same)
  refine ⟨⟨seed, chosen, seeded, read, ?_⟩, read', ⟨around, queried, fun id => ?_⟩, ?_, ?_⟩
  · rw [seeded]
    rfl
  · rw [handlesIn_ids handles tabled, List.mem_filter, SortedSet.mem_toList, grows, and_comm]
  · rw [handlesIn_ids handles tabled]
    exact pool.toList_ascending.filter ix.contains
  · exact fun key member => handle_of_mem_handlesIn handles tabled member

theorem beginRefine_budget {budget : Budget} {r : Refinement}
    (begun : s.beginRefine ref budget = (s', .ok r)) : r.budget = budget := by
  obtain ⟨_, _, prepared⟩ := beginRefine_prepared begun
  obtain ⟨_, _, _, _, _, rfl⟩ := prepareRefine_parts prepared
  rfl

theorem beginRefine_gathers {budget : Budget} {r : Refinement}
    (begun : s.beginRefine ref budget = (s', .ok r)) (found : s.sessions.get? ref = some x)
    (consistent : x.Consistent) (held : s.indexes.get? x.index = some ix)
    (tabled : ix.contents.Tabled) : r.request.Gathered s.vector ix x := by
  obtain ⟨y, found', prepared⟩ := beginRefine_prepared begun
  cases found.symm.trans found'
  have consistent' := (Turn.still (x.begun_still s.now)).consistent consistent
  have noted : (s.putSession ref (x.begun s.now)).indexes.get? x.index = some ix := held
  have gathered := prepareRefine_gathers consistent' noted tabled prepared
  exact ⟨gathered.positives, gathered.negatives, gathered.pool, gathered.ascending,
    gathered.handles⟩

theorem endRefine_takesOver {r : Refinement} {y : Session} {scores ranking : List Scored}
    (found : s.sessions.get? r.session = some y)
    (ascending : (r.request.pool.map Key.id).Pairwise fun a b => compare a b = .lt)
    (scored : (scores.map Scored.id).Perm (r.request.pool.map Key.id))
    (ended : s.endRefine r (.ok scores) = (s', .ok ranking)) :
    ∃ z, s'.sessions.get? r.session = some z ∧ y.TakesOver r.request.pool scores ranking z := by
  have ends := endRefine_ends found (.ok scores)
  rw [ended] at ends
  rcases ends with ⟨e, failed, _⟩ | ⟨_, answered, done, found'⟩
  · cases failed
  · cases answered
    cases done
    have distinct : (scores.map Scored.id).Nodup :=
      scored.nodup_iff.mpr (SortedMap.nodup_of_ascending ascending)
    have listed : (SortedSet.ofList (r.request.pool.map Key.id)).toList = r.request.pool.map Key.id :=
      SortedSet.toList_ofList_of_ascending ascending
    have perm := Scored.ranked_perm scores
    refine ⟨_, found', perm, Scored.ranked_ahead distinct, rfl, listed, ?_, rfl, rfl, rfl, rfl⟩
    exact ((perm.map Scored.id).trans scored).trans (.of_eq listed.symm)

end Service

namespace World
open Service

/-- A refinement of a session whose index was made by calls, whatever was performed before. To its
ranker it gives the seed, the vectors of the examples that are indexed as it begins, and as the pool
all that is indexed of the old pool and of the neighbours of the positives; beginning changes
neither the phase nor the feedback. Whatever is performed until the ranker has answered, if it has
scored each candidate once and the refinement succeeds, then the ranking is that of the scores, best
first and ids in order at one score, its ids are the new pool, and the session refines. An id of the
old pool that is indexed as the refinement begins is in the new one. -/
theorem candidates_of_run (files : FileTree) (descriptors : Store Descriptor)
    (results : Store Classification) (settings : RegistrySettings) (label : Option String)
    (earlier : List Operation) (ref : Ref) (budget : Budget) (x : Session) (ix : Index)
    (begun : Service) (r : Refinement) :
    let w := (fresh files descriptors results settings label).run earlier
    w.service.sessions.get? ref = some x → w.service.indexes.get? x.index = some ix → ix.Reached →
    w.service.beginRefine ref budget = (begun, .ok r) →
    r.request.Gathered w.service.vector ix x ∧
      (∃ y, begun.sessions.get? ref = some y ∧ x.Still y) ∧
      ∀ between : List Operation,
        let amid := ((w.perform (.beginRefine ref budget)).1.run between).service
        amid.rankNow r = x.ranker.rank amid.vector r.request budget ∧
          ∀ scores after ranking, (scores.map Scored.id).Perm (r.request.pool.map Key.id) →
            amid.endRefine r (.ok scores) = (after, .ok ranking) →
            ∃ y z, amid.sessions.get? ref = some y ∧ after.sessions.get? ref = some z ∧
              y.TakesOver r.request.pool scores ranking z ∧
              ∀ id ∈ x.feedback.pool, ix.contains id = true → id ∈ z.feedback.pool := by
  intro w found held reached begins
  have start : (fresh files descriptors results settings label).Sound := fresh_sound _ _ _ _ _
  have sound : w.Sound := run_sound start earlier
  have sound' : (w.perform (.beginRefine ref budget)).1.Sound := perform_sound sound _
  have gathered := beginRefine_gathers begins found (sound.consistent ref x found) held
    reached.tabled
  obtain ⟨rfl, visit, _⟩ := beginRefine_ok begins
  obtain ⟨b, noted, rfl, _⟩ := visit.toTouch.exists_after found
  refine ⟨gathered, ⟨_, noted, x.begun_still _⟩, fun between => ?_⟩
  have here : (w.perform (.beginRefine r.session budget)).1.service.sessions.get? r.session =
      some (x.begun w.service.now) := by
    rw [perform_beginRefine_ok begins]
    exact noted
  obtain ⟨y, found', profile⟩ := run_profile sound' here between
  refine ⟨?_, fun scores after ranking scored ended => ?_⟩
  · have ranker : y.ranker = x.ranker := congrArg Session.Profile.ranker profile
    simp only [rankNow, found', ranker, beginRefine_budget begins]
  · obtain ⟨z, found'', takes⟩ := endRefine_takesOver found' gathered.ascending scored ended
    refine ⟨y, z, found', found'', takes, fun id member indexed => ?_⟩
    obtain ⟨around, _, among⟩ := gathered.pool
    rw [← SortedSet.mem_toList, takes.pool]
    exact (among id).mpr ⟨indexed, .inl member⟩

/-- The index has dropped one of two positive examples since it was chosen, and the ranker scores an
infinity and no number. -/
theorem candidates_of_run_dropped :
    let files : FileTree := ⟨default, 0⟩
    let one : Descriptor := [⟨0x3f800000⟩]
    let minus : Descriptor := [⟨0xbf800000⟩]
    let a : Key := ⟨"kind", "a"⟩
    let b : Key := ⟨"kind", "b"⟩
    let c : Key := ⟨"kind", "c"⟩
    let descriptors : Store Descriptor := .memory (.ofList [(a, one), (b, minus), (c, one)])
    let made := Index.unbuilt Hasher.sign 1
    let all : IndexCall := .update (Shelf.computed ⟨descriptors, files⟩) [a, b, c]
    let holding (calls : List IndexCall) : Operation :=
      .elsewhere files descriptors (.memory ∅) (.ofList [(0, (made.run calls).1)])
    let earlier : List Operation := [holding [all],
      .startAlone "s" ⟨1800, 1⟩ 0 ⟨fun _ _ _ => .ok []⟩ none, .addPositive 0 "c",
      holding [all, .remove ["c"]], .seed 0 a 1, .addPositive 0 "b"]
    let w := (fresh files descriptors (.memory ∅) default none).run earlier
    let scores : List Scored := [⟨"a", ⟨0x7ff0000000000000⟩⟩, ⟨"b", ⟨0x7ff8000000000000⟩⟩]
    ∃ x begun r, w.service.sessions.get? 0 = some x ∧
      x.feedback.positives = .ofList ["b", "c"] ∧
      w.service.beginRefine 0 .unlimited = (begun, .ok r) ∧
      r.request = ⟨[one, minus], [], [a, b]⟩ ∧
      ∃ after ranking, ∃ y z : Session, begun.endRefine r (.ok scores) = (after, .ok ranking) ∧
        y.TakesOver [a, b] scores ranking z := by
  intro files one minus a b c descriptors made all holding earlier w scores
  have there : (w.service.sessions.get? 0).map (fun x => (x.index, x.feedback.positives)) =
      some (0, .ofList ["b", "c"]) := by decide +kernel
  obtain ⟨x, found, told⟩ := Option.map_eq_some_iff.mp there
  rw [Prod.mk.injEq] at told
  have kept : (w.service.indexes.get? 0).map Index.contents =
      some (made.run [all, .remove ["c"]]).1.contents := by decide +kernel
  obtain ⟨ix, held, same⟩ := Option.map_eq_some_iff.mp kept
  have reached : ix.Reached :=
    ⟨Hasher.sign, ⟨.linear, 1⟩, false, made, _, rfl, same⟩
  have asked : (w.service.beginRefine 0 .unlimited).2.map (fun r =>
      (r.session, r.request, r.budget, r.resets)) =
      .ok (0, ⟨[one, minus], [], [a, b]⟩, .unlimited, 0) := by decide +kernel
  have answered : ((w.service.beginRefine 0 .unlimited).1.endRefine
      ⟨0, ⟨[one, minus], [], [a, b]⟩, .unlimited, 0⟩ (.ok scores)).2.map (fun _ => ()) = .ok () := by
    decide +kernel
  cases begins : w.service.beginRefine 0 .unlimited with
  | mk begun answer =>
    rw [begins] at asked answered
    cases answer with
    | error e => cases asked
    | ok r =>
      obtain ⟨session, request, budget, resets⟩ := r
      cases asked
      cases ends : begun.endRefine ⟨0, ⟨[one, minus], [], [a, b]⟩, .unlimited, 0⟩ (.ok scores) with
      | mk after answer =>
        rw [ends] at answered
        cases answer with
        | error e => cases answered
        | ok ranking =>
          obtain ⟨_, _, goesOn⟩ := candidates_of_run files descriptors (.memory ∅) default none
            earlier 0 .unlimited x ix begun _ found (told.1 ▸ held) reached begins
          obtain ⟨_, taken⟩ := goesOn []
          obtain ⟨y, z, _, _, takes, _⟩ := taken scores after ranking (.refl _) (by
            rw [perform_beginRefine_ok begins]
            exact ends)
          exact ⟨x, begun, _, found, told.2, rfl, rfl, after, ranking, y, z, ends, takes⟩

end World
end Retrieval
