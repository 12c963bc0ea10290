import Retrieval.Proofs.Service.Calls
import Retrieval.Proofs.Traversal

/-!
The two ends of a refinement. Between them the call is counted and the refinement is pending,
whatever goes on; a refinement that ends in time refines, and one that does not leaves the session
alone.
-/
namespace Retrieval.Service
open Session
variable {ref : Ref} {s s' : Service}

theorem growPool_frame (s : Service) (index : Ref) (size : Nat) (budget : Budget)
    (pool : SortedSet String) (positives : List Descriptor) :
    (s.growPool index size budget pool positives).1 =
      { s with indexes := (s.growPool index size budget pool positives).1.indexes } := by
  induction positives generalizing s pool with
  | nil => rfl
  | cons chosen rest ih =>
    unfold growPool
    cases budget.check with
    | error e => rfl
    | ok _ =>
      have frame := nearest_frame s index chosen size
      dsimp only
      cases near : s.nearest index chosen size with
      | mk s' answer =>
        rw [near] at frame
        cases answer with
        | error e => exact frame
        | ok found =>
          dsimp only at frame ⊢
          rw [ih s' (pool.insertMany (found.map Neighbor.id)), frame]

theorem writeBack_frame (s : Service) (label : String) (ranking : List Scored) :
    (s.writeBack label ranking).1 = { s with
      files := (s.writeBack label ranking).1.files
      results := (s.writeBack label ranking).1.results } := by
  induction ranking generalizing s with
  | nil => rfl
  | cons scored rest ih =>
    unfold writeBack
    dsimp only
    split
    · rfl
    · rename_i shelf _
      rw [ih (s.putResultShelf shelf)]
      rfl

theorem record_aside (s : Service) (label : Option String) (ranking : List Scored) :
    Aside s (s.record label ranking).1 := by
  cases label with
  | none => exact .refl s
  | some label =>
    rw [record, writeBack_frame]
    exact ⟨rfl, rfl, rfl⟩

/-- What is gathered for a refinement: the vectors of the examples behind the seed. -/
theorem gatherExamples_parts {x : Session} {positives negatives : List Descriptor}
    (gathered : s.gatherExamples x = .ok (positives, negatives)) :
    x.require .refine = .ok () ∧ positives ≠ [] ∧ ∃ chosen,
      s.exampleVectors x.index x.feedback.positives.toList = .ok chosen ∧
      s.exampleVectors x.index x.feedback.negatives.toList = .ok negatives ∧
      positives = x.feedback.seed.toList ++ chosen := by
  unfold gatherExamples at gathered
  obtain ⟨allowed, gathered⟩ := check_ok_iff.mp gathered
  obtain ⟨chosen, read, gathered⟩ := exists_of_bind_ok gathered
  obtain ⟨others, read', gathered⟩ := exists_of_bind_ok gathered
  dsimp only at gathered
  split at gathered
  · cases gathered
  · rename_i some_positive
    cases gathered
    exact ⟨allowed, fun none => some_positive (List.isEmpty_iff.mpr none), chosen, read, read', rfl⟩

/-- What is gathered for a refinement is gathered from a seeded session and has a positive example.
-/
theorem gatherExamples_ok {x : Session} {positives negatives : List Descriptor}
    (gathered : s.gatherExamples x = .ok (positives, negatives)) :
    (x.phase = .initialized ∨ x.phase = .refining) ∧ positives ≠ [] := by
  obtain ⟨allowed, some_positive, _⟩ := gatherExamples_parts gathered
  exact ⟨require_refine_ok_iff.mp allowed, some_positive⟩

theorem handle_error {index : Ref} {id : String} {e : Error}
    (failed : s.handle index id = .error e) :
    ∃ space name, e = .notFound space name := by
  unfold handle at failed
  split at failed
  · cases failed
    exact ⟨_, _, rfl⟩
  · unfold Index.handle at failed
    split at failed
    · cases failed
    · cases failed
      exact ⟨_, _, rfl⟩

theorem get_error {α : Type} [Storable α] {shelf : Shelf α} {key : Key} {e : Error}
    (failed : shelf.get key = .error e) :
    e = .notFound key.label key.id ∨ e = .malformed ∨ e = .io := by
  unfold Shelf.get at failed
  split at failed
  · rename_i held _
    cases found : held.get? key with
    | none =>
      rw [found] at failed
      exact .inl (Except.error.inj failed).symm
    | some value =>
      rw [found] at failed
      cases failed
  · split at failed
    · rename_i bytes _
      cases decoded : Storable.decode (α := α) bytes with
      | none =>
        rw [decoded] at failed
        exact .inr (.inl (Except.error.inj failed).symm)
      | some value =>
        rw [decoded] at failed
        cases failed
    · exact .inl (Except.error.inj failed).symm
    · exact .inr (.inr (Except.error.inj failed).symm)

/-- Reading a vector can fail in many ways, but never because of the state of a session. -/
theorem vector_error {key : Key} {fault : StateFault} :
    s.vector key ≠ .error (.invalidState fault) := by
  unfold vector Shelf.computed
  intro failed
  split at failed
  · cases failed
  · rcases get_error failed with same | same | same <;> cases same

theorem exampleVectors_error {index : Ref} {ids : List String} {fault : StateFault} :
    s.exampleVectors index ids ≠ .error (.invalidState fault) := by
  induction ids with
  | nil => simp [exampleVectors]
  | cons id rest ih =>
    unfold exampleVectors
    cases handle : s.handle index id with
    | error e =>
      obtain ⟨space, name, rfl⟩ := handle_error handle
      exact ih
    | ok key =>
      intro failed
      simp only [bind, Except.bind] at failed
      split at failed
      · rename_i cause
        cases failed
        exact vector_error cause
      · split at failed
        · rename_i cause
          cases failed
          exact ih cause
        · cases failed

/-- A seeded session has its seed, so gathering never fails for want of a positive example. -/
theorem gatherExamples_ne_noPositives {x : Session} (consistent : x.Consistent) (id : String) :
    s.gatherExamples x ≠ .error (.invalidState (.noPositives id)) := by
  unfold gatherExamples
  intro failed
  cases allowed : x.require .refine with
  | error e =>
    rw [allowed] at failed
    cases failed
    rcases require_error allowed with same | same <;> cases same
  | ok _ =>
    obtain ⟨v, seed⟩ := Option.isSome_iff_exists.mp
      (consistent.seeded.mpr (require_refine_ok_iff.mp allowed))
    simp only [allowed, bind, Except.bind] at failed
    split at failed
    · rename_i cause
      cases failed
      exact exampleVectors_error cause
    · split at failed
      · rename_i cause
        cases failed
        exact exampleVectors_error cause
      · rw [seed] at failed
        split at failed
        · rename_i none
          cases none
        · cases failed

theorem prepareRefine_frame (s : Service) (ref : Ref) (x : Session) (budget : Budget) :
    (s.prepareRefine ref x budget).1 =
      { s with indexes := (s.prepareRefine ref x budget).1.indexes } := by
  unfold prepareRefine
  cases gathered : s.gatherExamples x with
  | error e => rfl
  | ok examples =>
    have frame := growPool_frame s x.index x.settings.poolSize budget x.feedback.pool examples.1
    dsimp only
    cases grown : s.growPool x.index x.settings.poolSize budget x.feedback.pool examples.1 with
    | mk s' answer =>
      rw [grown] at frame
      cases answer <;> exact frame

/-- What a refinement that is prepared was prepared from. -/
theorem prepareRefine_parts {x : Session} {budget : Budget} {r : Refinement}
    (prepared : s.prepareRefine ref x budget = (s', .ok r)) :
    ∃ positives negatives pool, s.gatherExamples x = .ok (positives, negatives) ∧
      s.growPool x.index x.settings.poolSize budget x.feedback.pool positives = (s', .ok pool) ∧
      r = ⟨ref, ⟨positives, negatives, s'.handlesIn x.index pool.toList⟩, budget, x.resets⟩ := by
  unfold prepareRefine at prepared
  cases gathered : s.gatherExamples x with
  | error e =>
    rw [gathered] at prepared
    cases prepared
  | ok examples =>
    rw [gathered] at prepared
    dsimp only at prepared
    split at prepared
    · cases prepared
    · rename_i after pool grown
      cases prepared
      exact ⟨_, _, pool, rfl, grown, rfl⟩

theorem prepareRefine_ok {x : Session} {budget : Budget} {r : Refinement}
    (prepared : s.prepareRefine ref x budget = (s', .ok r)) :
    r.session = ref ∧ r.resets = x.resets ∧ r.request.positives ≠ [] ∧
      (x.phase = .initialized ∨ x.phase = .refining) := by
  obtain ⟨positives, negatives, pool, gathered, _, rfl⟩ := prepareRefine_parts prepared
  obtain ⟨seeded, some_positive⟩ := gatherExamples_ok gathered
  exact ⟨rfl, rfl, some_positive, seeded⟩

/-- A refinement that does not begin leaves its session as it was. -/
theorem beginRefine_error {budget : Budget} {e : Error}
    (failed : s.beginRefine ref budget = (s', .error e)) : Visit ref (Called s.now) s s' := by
  unfold beginRefine at failed
  cases entered : s.enter ref with
  | error e' =>
    rw [entered] at failed
    cases failed
    exact refused_visit entered
  | ok begun =>
    obtain ⟨x, here, _⟩ := get?_of_enter entered
    have aside := aside_of_frame (prepareRefine_frame begun ref x budget)
    simp only [entered, here] at failed
    split at failed
    · rename_i after e' prepared
      cases failed
      rw [prepared] at aside
      exact enter_leave_visit entered (.of_aside aside Progress.refl)
    · cases failed

/-- A refinement begins by preparing it within a call. -/
theorem beginRefine_prepared {budget : Budget} {r : Refinement}
    (begun : s.beginRefine ref budget = (s', .ok r)) :
    ∃ x, s.sessions.get? ref = some x ∧
      (s.putSession ref (x.begun s.now)).prepareRefine ref (x.begun s.now) budget = (s', .ok r) := by
  unfold beginRefine at begun
  cases entered : s.enter ref with
  | error e =>
    rw [entered] at begun
    cases begun
  | ok between =>
    obtain ⟨x, found, _, rfl⟩ := enter_ok entered
    have here : (s.putSession ref (x.begun s.now)).sessions.get? ref = some (x.begun s.now) :=
      SortedMap.get?_insert_self _ _ _
    simp only [entered, here] at begun
    split at begun
    · cases begun
    · rename_i after r' prepared
      cases begun
      exact ⟨x, found, prepared⟩

/-- A refinement that begins counts as a call of its session, which has been seeded. -/
theorem beginRefine_ok {budget : Budget} {r : Refinement}
    (begun : s.beginRefine ref budget = (s', .ok r)) :
    r.session = ref ∧ Visit ref (fun x y => y = x.begun s.now ∧ r.resets = x.resets) s s' ∧
      World.Awaits s' r := by
  obtain ⟨x, found, prepared⟩ := beginRefine_prepared begun
  have here : (s.putSession ref (x.begun s.now)).sessions.get? ref = some (x.begun s.now) :=
    SortedMap.get?_insert_self _ _ _
  have aside := aside_of_frame
    (prepareRefine_frame (s.putSession ref (x.begun s.now)) ref (x.begun s.now) budget)
  rw [prepared] at aside
  obtain ⟨session, resets, positives, seeded⟩ := prepareRefine_ok prepared
  refine ⟨session, ?_, positives, x.begun s.now, ?_, Nat.le_of_eq resets, fun _ created => ?_⟩
  · have noted : Visit ref (fun x y => y = x.begun s.now ∧ r.resets = x.resets) s
        (s.putSession ref (x.begun s.now)) := .put (.refl s) found ⟨rfl, resets⟩
    have prepares : Visit ref Eq (s.putSession ref (x.begun s.now)) s' :=
      .of_aside aside fun _ => rfl
    apply (noted.trans prepares).mono
    intro x' z _ whole
    obtain ⟨y, begun, rfl⟩ := whole
    exact begun
  · rw [session, aside.sessions, here]
  · rw [created] at seeded
    rcases seeded with phase | phase <;> cases phase

/-- Taking over a ranking refines the session, unless it is over or was reset in between. -/
theorem commitRanking_visit {r : Refinement} (awaits : World.Awaits s r) (scores : List Scored) :
    Visit r.session Progress s (s.commitRanking r scores).1 := by
  obtain ⟨x, found, kept, seeded⟩ := awaits.session
  unfold commitRanking
  rw [found]
  dsimp only
  split
  · exact .of_aside (.refl s) Progress.refl
  · rename_i live
    split
    · exact .of_aside (.refl s) Progress.refl
    · rename_i unreset
      have phase : x.phase = .initialized ∨ x.phase = .refining := by
        have uncreated := seeded (Classical.not_not.mp unreset)
        cases phase : x.phase <;> simp_all [Phase.isTerminal]
      have aside := record_aside s x.resultLabel (Scored.ranked scores)
      split
      · rename_i after e written
        rw [written] at aside
        exact .of_aside aside Progress.refl
      · rename_i after written
        rw [written] at aside
        exact .put aside found
          ⟨⟨.reranked phase rfl rfl rfl, rfl, rfl⟩, (Bool.eq_false_iff.mpr live).symm⟩

/-- The end of a refinement ends its call and does nothing else but refine the session in time. -/
theorem endRefine_visit {r : Refinement} (awaits : World.Awaits s r)
    (answer : Except Error (List Scored)) :
    Visit r.session (fun x y => Served s.now x y ∧ y.busy = x.busy - 1) s
      (s.endRefine r answer).1 := by
  have ends {after : Service} (within : Visit r.session Progress s after) :
      Visit r.session (fun x y => Served s.now x y ∧ y.busy = x.busy - 1) s
        (after.leave r.session) := by
    apply (within.trans (leave_visit _ r.session)).mono
    intro x z _ whole
    obtain ⟨y, progress, rfl⟩ := whole
    rw [within.now]
    exact ⟨leave_served progress, congrArg (· - 1) progress.busy⟩
  cases answer with
  | error e => exact ends (.of_aside (.refl s) Progress.refl)
  | ok scores => exact ends (commitRanking_visit awaits scores)

end Retrieval.Service
