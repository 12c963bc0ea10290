import Mathlib.Control.Monad.Basic
import Retrieval.Proofs.Service.Alike

/-!
What becomes of a refinement when other operations go on while its ranker ranks
(`World.refine_of_run`). A refinement that was overtaken by a reset or by the end of its session is
told by the count of resets and by the phase, which later operations never take back.
-/
namespace Retrieval

namespace Session
variable {x y : Session}

/-- Whether a session is over or was reset since it had been reset so many times. -/
def Overtakes (x : Session) (resets : Nat) : Prop :=
  x.phase.isTerminal = true ∨ resets < x.resets

theorem Overtakes.later {resets : Nat} (overtakes : x.Overtakes resets) (later : x.Later y) :
    y.Overtakes resets := by
  rcases overtakes with final | more
  · exact .inl (later.ended final ▸ final)
  · exact .inr (Nat.lt_of_lt_of_le more later.resets)

theorem Overtakes.mono {fewer resets : Nat} (overtakes : x.Overtakes resets) (le : fewer ≤ resets) :
    x.Overtakes fewer := overtakes.imp_right (Nat.lt_of_le_of_lt le)

/-- Why a refinement fails that was overtaken: for what its ranker failed, or else for what became
of the session. -/
def setback (x : Session) : Except Error (List Scored) → Error
  | .error e => e
  | .ok _ =>
    if x.phase.isTerminal then .sessionUnavailable x.id x.phase
    else .invalidState (.resetMeanwhile x.id)

end Session

/-- Whether an operation resets a session, or ends it. -/
def Operation.Interrupts (w : World) (ref : Ref) : Operation → Prop
  | .reset session => session = ref ∧ (w.service.reset ref).2 = .ok ()
  | .close id => w.service.registry.live.get? id = some ref
  | .drain _ => ∃ id, w.service.registry.live.get? id = some ref
  | _ => False

namespace Service
open Session
variable {s s' : Service} {ref : Ref} {x y : Session}

theorem get?_leave (found : s.sessions.get? ref = some x) :
    (s.leave ref).sessions.get? ref = some (x.leave s.now) := by
  obtain ⟨_, found', rfl⟩ := (leave_visit s ref).toTouch.exists_after found
  exact found'

theorem leave_stores (s : Service) (ref : Ref) :
    (s.leave ref).results = s.results ∧ (s.leave ref).files = s.files := by
  unfold leave
  split <;> exact ⟨rfl, rfl⟩

theorem reset_counted (done : (s.reset ref).2 = .ok ()) (found : s.sessions.get? ref = some x) :
    ∃ y, (s.reset ref).1.sessions.get? ref = some y ∧ y.resets = x.resets + 1 := by
  unfold reset call at done ⊢
  cases entered : s.enter ref with
  | error e =>
    rw [entered] at done
    cases done
  | ok between =>
    obtain ⟨x', found', _, rfl⟩ := enter_ok entered
    cases found.symm.trans found'
    have here : (s.putSession ref (x.begun s.now)).sessions.get? ref = some (x.begun s.now) :=
      SortedMap.get?_insert_self _ _ _
    simp only [here]
    exact ⟨_, get?_leave (SortedMap.get?_insert_self _ _ _), rfl⟩

/-- A refinement that was overtaken stores nothing and says why. -/
theorem endRefine_overtaken {r : Refinement} (found : s.sessions.get? r.session = some y)
    (overtakes : y.Overtakes r.resets) (answer : Except Error (List Scored)) :
    s.endRefine r answer = (s.leave r.session, .error (y.setback answer)) := by
  cases answer with
  | error e => rfl
  | ok scores =>
    unfold endRefine commitRanking setback
    simp only [found]
    rcases overtakes with final | more
    · simp only [final, if_true]
    · split
      · rfl
      · rw [if_pos (Nat.ne_of_gt more)]

/-- A refinement that fails leaves its session as it is, and one that succeeds changes the phase,
the pool and the ranking. -/
theorem endRefine_ends {r : Refinement} (found : s.sessions.get? r.session = some y)
    (answer : Except Error (List Scored)) :
    (∃ e, (s.endRefine r answer).2 = .error e ∧
      (s.endRefine r answer).1.sessions.get? r.session = some (y.leave s.now)) ∨
    ∃ scores, answer = .ok scores ∧ (s.endRefine r answer).2 = .ok (Scored.ranked scores) ∧
      (s.endRefine r answer).1.sessions.get? r.session = some ({ y with
        phase := .refining
        feedback := y.feedback.reranked r.request.pool (Scored.ranked scores) }.leave s.now) := by
  have fails {after : Service} (aside : Aside s after) :
      (after.leave r.session).sessions.get? r.session = some (y.leave s.now) := by
    rw [get?_leave (aside.sessions ▸ found), aside.now]
  cases answer with
  | error e => exact .inl ⟨e, rfl, fails (.refl s)⟩
  | ok scores =>
    unfold endRefine commitRanking
    simp only [found]
    split
    · exact .inl ⟨_, rfl, fails (.refl s)⟩
    · split
      · exact .inl ⟨_, rfl, fails (.refl s)⟩
      · have aside := record_aside s y.resultLabel (Scored.ranked scores)
        split
        · rename_i after e written
          rw [written] at aside
          exact .inl ⟨e, rfl, fails aside⟩
        · rename_i after written
          rw [written] at aside
          refine .inr ⟨scores, rfl, rfl, ?_⟩
          rw [get?_leave (SortedMap.get?_insert_self _ _ _)]
          exact congrArg (fun now => some (Session.leave _ now)) aside.now

end Service

namespace World
open Service Session
variable {w : World} {ref : Ref} {x : Session} {settings : RegistrySettings}

/-- Whether any of the operations, one after the other, resets a session or ends it. -/
def Interrupted (w : World) (ref : Ref) : List Operation → Prop
  | [] => False
  | operation :: rest => operation.Interrupts w ref ∨ (w.perform operation).1.Interrupted ref rest

/-- What interrupts a session overtakes the refinements of it that are pending. -/
theorem interrupts_overtakes (found : w.service.sessions.get? ref = some x) {operation : Operation}
    (interrupts : operation.Interrupts w ref) :
    ∃ y, (w.perform operation).1.service.sessions.get? ref = some y ∧ y.Overtakes x.resets := by
  have final : (x.terminate .closed).phase.isTerminal = true := x.terminate_final rfl
  cases operation with
  | reset session =>
    obtain ⟨rfl, done⟩ := interrupts
    obtain ⟨y, found', counted⟩ := reset_counted done found
    exact ⟨y, found', .inr (counted ▸ Nat.lt_succ_self _)⟩
  | close id =>
    have ended : (w.perform (.close id)).1.service = w.service.evict id ref .closed := by
      show (w.service.close id).1 = _
      simp only [close, show w.service.registry.live.get? id = some ref from interrupts]
    rw [ended, get?_evict, found]
    exact ⟨_, congrArg some (if_pos rfl), .inl final⟩
  | drain order =>
    obtain ⟨id, known⟩ := interrupts
    have ended : ref ∈ (w.service.registry.arranged order).map (·.2) :=
      List.mem_map.mpr ⟨(id, ref), Registry.mem_arranged.mpr known, rfl⟩
    have drained : (w.perform (.drain order)).1.service =
        w.service.evictAll .closed (w.service.registry.arranged order) := w.service.drain_eq order
    rw [drained, get?_evictAll _ rfl, found]
    exact ⟨_, congrArg some (if_pos ended), .inl final⟩
  | _ => cases interrupts

/-- A session that was interrupted has overtaken whatever began before. -/
theorem run_overtakes (sound : w.Sound) (found : w.service.sessions.get? ref = some x)
    {operations : List Operation} (interrupted : w.Interrupted ref operations) :
    ∃ y, (w.run operations).service.sessions.get? ref = some y ∧ y.Overtakes x.resets := by
  induction operations generalizing w x with
  | nil => cases interrupted
  | cons operation rest ih =>
    have after := perform_sound sound operation
    rcases interrupted with here | there
    · obtain ⟨y, found', overtakes⟩ := interrupts_overtakes found here
      obtain ⟨z, found'', later⟩ := run_later after found' rest
      exact ⟨z, found'', overtakes.later later⟩
    · obtain ⟨y, found', turn, _⟩ :=
        (perform_effect sound operation).exists_after sound.vacant found
      obtain ⟨z, found'', overtakes⟩ := ih after found' there
      exact ⟨z, found'', overtakes.mono turn.resets_le⟩

theorem perform_beginRefine_error {budget : Budget} {s : Service} {e : Error}
    (failed : w.service.beginRefine ref budget = (s, .error e)) :
    w.perform (.beginRefine ref budget) = (⟨s, w.pending⟩, .error e) := by
  simp only [perform, failed]

theorem perform_beginRefine_ok {budget : Budget} {s : Service} {r : Refinement}
    (begun : w.service.beginRefine ref budget = (s, .ok r)) :
    w.perform (.beginRefine ref budget) = (⟨s, r :: w.pending⟩, .ok ()) := by
  simp only [perform, begun]

theorem perform_endRefine {place : Nat} {r : Refinement} (here : w.pending[place]? = some r)
    (answer : Except Error (List Scored)) :
    w.perform (.endRefine place answer) = (⟨(w.service.endRefine r answer).1,
      w.pending.eraseIdx place⟩, (w.service.endRefine r answer).2.map fun _ => ()) := by
  simp only [perform, here]

/-- What comes of a refinement at its end, where its session is first `y` and then `z`. -/
structure Concluded (interrupted : Prop) (r : Refinement) (answer : Except Error (List Scored))
    (amid : Service) (after : World × Except Error Unit) (y z : Session) : Prop where
  overtaken : interrupted → after.2 = .error (y.setback answer) ∧
    after.1.service.results = amid.results ∧ after.1.service.files = amid.files
  failed : ∀ e, after.2 = .error e → z.phase = y.phase ∧ z.feedback = y.feedback
  done : after.2 = .ok () → ∃ scores, answer = .ok scores ∧ z.phase = .refining ∧
    z.feedback = y.feedback.reranked r.request.pool (Scored.ranked scores)
  seed : z.feedback.seed = y.feedback.seed
  positives : z.feedback.positives = y.feedback.positives
  negatives : z.feedback.negatives = y.feedback.negatives

theorem endRefine_concluded {place : Nat} {r : Refinement} (here : w.pending[place]? = some r)
    {y : Session} (found : w.service.sessions.get? r.session = some y) {interrupted : Prop}
    (overtakes : interrupted → y.Overtakes r.resets) (answer : Except Error (List Scored)) :
    ∃ z, (w.perform (.endRefine place answer)).1.service.sessions.get? r.session = some z ∧
      Concluded interrupted r answer w.service (w.perform (.endRefine place answer)) y z := by
  have overtaken (interrupts : interrupted) := endRefine_overtaken found (overtakes interrupts) answer
  rw [perform_endRefine here]
  rcases endRefine_ends found answer with ⟨e, failed, found'⟩ | ⟨scores, answered, done, found'⟩
  · refine ⟨_, found', fun interrupts => ?_, fun _ _ => ⟨rfl, rfl⟩, fun done => ?_, rfl, rfl, rfl⟩
    · rw [overtaken interrupts]
      exact ⟨rfl, leave_stores w.service r.session⟩
    · rw [failed] at done
      cases done
  · refine ⟨_, found', fun interrupts => ?_, fun e failed => ?_, fun _ => ?_, rfl, rfl, rfl⟩
    · rw [overtaken interrupts] at done
      cases done
    · rw [done] at failed
      cases failed
    · exact ⟨scores, answered, rfl, rfl⟩

/-- What the operations make of the session of a pending refinement, they make of it without the
refinement, unless it expires then. -/
theorem session_alone (sound : w.Sound) (registered : w.service.Registered settings) {v : World}
    (sound' : v.Sound) (registered' : v.service.Registered settings) {r : Refinement}
    (pending : r ∈ v.pending) (alike : w.service.Alike r.session v.service)
    {operations : List Operation}
    (simple : ∀ operation ∈ operations, operation.isRefinement = false) {y : Session}
    (found : (v.run operations).service.sessions.get? r.session = some y) :
    ∃ x, (w.run operations).service.sessions.get? r.session = some x ∧
      (x.phase = .expired ∨ y.phase = x.phase ∧ y.feedback = x.feedback) := by
  rcases run_alike sound registered sound' registered' pending alike simple with
    alike' | ⟨x, found', expired⟩
  · obtain ⟨x, found', same⟩ := alike'.symm.exists_session found
    have still := still_of_atRest (atRest_of_blur same)
    exact ⟨x, found', .inr ⟨still.phase.symm, still.feedback.symm⟩⟩
  · exact ⟨x, found', .inl expired⟩

/-- A refinement of a session whose ranker answers anything after any other operations, its own
among them. Beginning it, successfully or not, changes nothing but the access and what indexes have
counted. If the session was reset or closed meanwhile, the refinement fails for that or for what its
ranker failed, and stores nothing. Whenever it fails, its end changes neither the phase nor the
feedback of the session, so they are what the other operations made of them; that is what these make
of them alone, unless alone they let the session expire, which a call under way prevents. If it
succeeds, the pool and the ranking are taken over; the seed and the examples are those of the other
operations in any case. -/
theorem refine_of_run (files : FileTree) (descriptors : Store Descriptor)
    (results : Store Classification) (settings : RegistrySettings) (label : Option String)
    (earlier : List Operation) (ref : Ref) (budget : Budget) :
    let w := (fresh files descriptors results settings label).run earlier
    let begun := w.perform (.beginRefine ref budget)
    w.service.Alike ref begun.1.service ∧
      (∀ e, begun.2 = .error e → begun.1.pending = w.pending) ∧
      (begun.2 = .ok () → ∃ r, r.session = ref ∧ begun.1.pending = r :: w.pending ∧
        ∀ (between : List Operation) (place : Nat) (answer : Except Error (List Scored)),
          let amid := begun.1.run between
          let after := amid.perform (.endRefine place answer)
          amid.pending[place]? = some r →
          ∃ y z, amid.service.sessions.get? ref = some y ∧
            after.1.service.sessions.get? ref = some z ∧
            Concluded (begun.1.Interrupted ref between) r answer amid.service after y z ∧
            ((∀ operation ∈ between, operation.isRefinement = false) →
              ∃ x, (w.run between).service.sessions.get? ref = some x ∧
                (x.phase = .expired ∨ y.phase = x.phase ∧ y.feedback = x.feedback))) := by
  intro w begun
  have start : (fresh files descriptors results settings label).Sound := fresh_sound _ _ _ _ _
  have known := fresh_registered files descriptors results settings label
  have sound : w.Sound := run_sound start earlier
  have registered : w.service.Registered settings := run_registered start known earlier
  have sound' : begun.1.Sound := perform_sound sound _
  have registered' : begun.1.service.Registered settings := perform_registered sound registered _
  have alike := beginRefine_alike w.service ref budget
  cases outcome : w.service.beginRefine ref budget with
  | mk s answered =>
    rw [outcome] at alike
    cases answered with
    | error e =>
      have same : begun = (⟨s, w.pending⟩, .error e) := perform_beginRefine_error outcome
      rw [same]
      exact ⟨alike, fun _ _ => rfl, nofun⟩
    | ok r =>
      have same : begun = (⟨s, r :: w.pending⟩, .ok ()) := perform_beginRefine_ok outcome
      obtain ⟨rfl, visit, awaits⟩ := beginRefine_ok outcome
      obtain ⟨x, found, _⟩ := awaits.session
      obtain ⟨x', _, rfl, counted⟩ := visit.toTouch.some_of_some found
      rw [same] at sound' registered' ⊢
      refine ⟨alike, fun _ => nofun, fun _ => ⟨r, rfl, rfl, ?_⟩⟩
      intro between place answer amid after here
      obtain ⟨y, found', _⟩ := run_later sound' found between
      have overtakes (interrupted : (World.mk s (r :: w.pending)).Interrupted r.session between) :
          y.Overtakes r.resets := by
        obtain ⟨y', found'', overtakes⟩ := run_overtakes sound' found interrupted
        cases found'.symm.trans found''
        exact counted ▸ overtakes
      obtain ⟨z, ended, concluded⟩ := endRefine_concluded here found' overtakes answer
      exact ⟨y, z, found', ended, concluded, fun simple => session_alone sound registered sound'
        registered' List.mem_cons_self alike simple found'⟩

/-- A refinement whose ranker resets the session fails for that, however the ranker scores. -/
theorem refine_of_run_reset :
    let files : FileTree := ⟨default, 0⟩
    let key : Key := ⟨"kind", "a"⟩
    let descriptors : Store Descriptor := .memory (SortedMap.ofList [(key, [⟨0x3f800000⟩])])
    let indexes := SortedMap.ofList [(0, Index.unbuilt Hasher.sign 1)]
    let earlier : List Operation := [.elsewhere files descriptors (.memory ∅) indexes,
      .startAlone "s" ⟨1800, 200⟩ 0 ⟨fun _ _ _ => .ok []⟩ none, .seed 0 key 1]
    let w := (fresh files descriptors (.memory ∅) default none).run earlier
    let begun := w.perform (.beginRefine 0 .unlimited)
    begun.2 = .ok () ∧ ∀ scores,
      ((begun.1.run [.reset 0]).perform (.endRefine 0 (.ok scores))).2 =
        .error (.invalidState (.resetMeanwhile "s")) := by
  intro files key descriptors indexes earlier w begun
  have succeeds : begun.2 = .ok () := by decide +kernel
  have resets : (begun.1.service.reset 0).2 = .ok () := by decide +kernel
  have created : ((begun.1.run [.reset 0]).service.sessions.get? 0).map
      (fun x => (x.id, x.phase)) = some ("s", .created) := by decide +kernel
  obtain ⟨r, _, pending, ends⟩ := (refine_of_run files descriptors (.memory ∅) default none earlier 0
    .unlimited).2.2 succeeds
  refine ⟨succeeds, fun scores => ?_⟩
  have waits : (begun.1.run [.reset 0]).pending[0]? = some r := by
    have same : (begun.1.perform (.reset 0)).1.pending = begun.1.pending :=
      perform_pending begun.1 rfl
    rw [run, List.foldl_cons, List.foldl_nil, same, pending]
    rfl
  obtain ⟨y, _, found, _, concluded, _⟩ := ends [.reset 0] 0 (.ok scores) waits
  obtain ⟨failed, _⟩ := concluded.overtaken (.inl ⟨rfl, resets⟩)
  dsimp only [begun, w] at created ⊢
  rw [found, Option.map_some, Option.some.injEq, Prod.mk.injEq] at created
  rw [failed, setback, created.1, created.2]
  rfl

/-- A sweep while a ranker is asked leaves the session alone, which it would expire otherwise. So a
refinement that then fails does not leave what the other operations alone make of the session. -/
theorem not_refine_alone_of_run :
    ¬ ∀ (files : FileTree) (descriptors : Store Descriptor) (results : Store Classification)
      (settings : RegistrySettings) (label : Option String) (earlier : List Operation) (ref : Ref)
      (budget : Budget) (between : List Operation) (place : Nat)
      (answer : Except Error (List Scored)) (x z : Session),
      let w := (fresh files descriptors results settings label).run earlier
      let begun := w.perform (.beginRefine ref budget)
      let after := (begun.1.run between).perform (.endRefine place answer)
      begun.2 = .ok () → (∀ operation ∈ between, operation.isRefinement = false) →
      (begun.1.run between).pending[place]?.map (·.session) = some ref →
      (∃ e, after.2 = .error e) → (w.run between).service.sessions.get? ref = some x →
      after.1.service.sessions.get? ref = some z → z.phase = x.phase ∧ z.feedback = x.feedback := by
  intro alone
  let files : FileTree := ⟨default, 0⟩
  let key : Key := ⟨"kind", "a"⟩
  let descriptors : Store Descriptor := .memory (SortedMap.ofList [(key, [⟨0x3f800000⟩])])
  let indexes := SortedMap.ofList [(0, Index.unbuilt Hasher.sign 1)]
  let earlier : List Operation := [.elsewhere files descriptors (.memory ∅) indexes,
    .openSession "s" 0 ⟨fun _ _ _ => .ok []⟩, .seed 0 key 1]
  let between : List Operation := [.advance 5000000000, .reap []]
  let settings : RegistrySettings := ⟨⟨1, 200⟩, true, 30, 1⟩
  have alone := alone files descriptors (.memory ∅) settings none earlier 0 .unlimited between 0
    (.error .cancelled)
  have phases : ((((fresh files descriptors (.memory ∅) settings none).run earlier).run
      between).service.sessions.get? 0).map (·.phase) = some .expired ∧
    ((((((fresh files descriptors (.memory ∅) settings none).run earlier).perform
      (.beginRefine 0 .unlimited)).1.run between).perform
        (.endRefine 0 (.error .cancelled))).1.service.sessions.get? 0).map (·.phase) =
          some .initialized := by
    decide +kernel
  obtain ⟨x, found, expired⟩ := Option.map_eq_some_iff.mp phases.1
  obtain ⟨z, found', stays⟩ := Option.map_eq_some_iff.mp phases.2
  have same := alone x z (by decide +kernel) (by decide) (by decide +kernel)
    ⟨.cancelled, by decide +kernel⟩ found found'
  rw [expired, stays] at same
  exact absurd same.1 (by decide)

end World
end Retrieval
