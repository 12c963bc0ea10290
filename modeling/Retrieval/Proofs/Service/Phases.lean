import Retrieval.Proofs.Service.Idle
import Retrieval.Proofs.Service.Interleaving

/-!
The phases of sessions. Few operations move a session from one phase to another, each along edges of
its own and only if it succeeds (`World.perform_shifts`). A session that is over stays as it ended
and answers every call with that (`World.phases_of_run`).
-/
namespace Retrieval

namespace Operation

/-- The session that an operation is a call of. -/
def called? : Operation → Option Ref
  | .seed ref _ _ | .addPositive ref _ | .addNegative ref _ | .removePositive ref _
  | .removeNegative ref _ | .adjudicate ref _ | .positives ref | .negatives ref | .ranking ref
  | .top ref _ | .reset ref | .beginRefine ref _ => some ref
  | _ => none

/-- The edges from phase to phase: which operations, performed in `w` and so answered, move the
session at `ref` along them. -/
inductive Moves (w : World) (ref : Ref) : Operation → Except Error Unit → Phase → Phase → Prop where
  | seeded {query : Key} {n : Nat} :
      Moves w ref (.seed ref query n) (.ok ()) .created .initialized
  | refined {place : Nat} {answer : Except Error (List Scored)} {r : Refinement} {before : Phase}
      (pending : w.pending[place]? = some r)
      (session : r.session = ref)
      (seeded : before = .initialized ∨ before = .refining) :
      Moves w ref (.endRefine place answer) (.ok ()) before .refining
  | reset {before : Phase}
      (live : before.isTerminal = false) : Moves w ref (.reset ref) (.ok ()) before .created
  | closed {id : String} {before : Phase}
      (live : before.isTerminal = false)
      (known : w.service.registry.live.get? id = some ref) :
      Moves w ref (.close id) (.ok ()) before .closed
  | drained {id : String} {order : List String} {before : Phase}
      (live : before.isTerminal = false)
      (known : w.service.registry.live.get? id = some ref) :
      Moves w ref (.drain order) (.ok ()) before .closed
  | expired {id : String} {order : List String} {before : Phase}
      (live : before.isTerminal = false)
      (known : w.service.registry.live.get? id = some ref)
      (swept : id ∈ (w.service.reap order).2) :
      Moves w ref (.reap order) (.ok ()) before .expired

/-- An operation has one end for its moves. -/
theorem Moves.unique {w : World} {ref : Ref} {operation : Operation} {answer : Except Error Unit}
    {before after after' : Phase} (one : operation.Moves w ref answer before after)
    (two : operation.Moves w ref answer before after') : after = after' := by
  cases one <;> cases two <;> rfl

/-- An operation that fails moves no session. -/
theorem not_moves_error {w : World} {ref : Ref} {operation : Operation} {e : Error}
    {before after : Phase} : ¬ operation.Moves w ref (.error e) before after := by
  intro moves
  cases moves

end Operation

/-- What is refined was seeded. -/
theorem Session.Turn.seeded_of_refining {x y : Session} (turn : x.Turn y)
    (refined : y.phase = .refining) : x.phase = .initialized ∨ x.phase = .refining := by
  cases turn with
  | still same => exact .inr (same.phase.symm.trans refined)
  | seeded _ phase _ _ => rw [phase] at refined; cases refined
  | revised _ phase _ _ => exact .inr (phase.symm.trans refined)
  | reranked seeded _ _ _ => exact seeded
  | reset _ phase _ _ => rw [phase] at refined; cases refined
  | ended _ phase _ _ => rw [refined] at phase; cases phase

namespace Service
open Session
variable {α : Type} {s s' : Service} {ref : Ref} {x y : Session}

/-- The phase of the session at a place, if there is one. -/
def phase? (s : Service) (ref : Ref) : Option Phase := (s.sessions.get? ref).map Session.phase

theorem phase?_congr (same : s'.sessions = s.sessions) : s'.phase? = s.phase? := by
  funext other
  rw [phase?, phase?, same]

theorem phase?_put (s : Service) (ref : Ref) (x : Session) (other : Ref) :
    (s.putSession ref x).phase? other = if other = ref then some x.phase else s.phase? other := by
  show ((s.sessions.insert ref x).get? other).map Session.phase = _
  by_cases same : other = ref
  · rw [if_pos same, same, SortedMap.get?_insert_self]
    rfl
  · rw [if_neg same, SortedMap.get?_insert_of_ne same]
    rfl

/-- Putting a session back in its phase. -/
theorem phase?_put_back (found : s.sessions.get? ref = some x) (same : y.phase = x.phase) :
    (s.putSession ref y).phase? = s.phase? := by
  funext other
  rw [phase?_put]
  split
  · rename_i here
    rw [here, phase?, found, same]
    rfl
  · rfl

theorem phase?_leave (s : Service) (ref : Ref) : (s.leave ref).phase? = s.phase? := by
  unfold leave
  cases found : s.sessions.get? ref with
  | none => rfl
  | some x => exact phase?_put_back found rfl

/-- A call is refused and changes nothing, or its body runs where all phases are as before. -/
theorem call_cases (s : Service) (ref : Ref) (body : Service → Session → Outcome α) :
    (∃ e, s.call ref body = (s, .error e)) ∨
      ∃ s' x, s'.phase? = s.phase? ∧ s'.sessions.get? ref = some x ∧ x.phase.isTerminal = false ∧
        s.call ref body = ((body s' x).1.leave ref, (body s' x).2) := by
  cases entered : s.enter ref with
  | error e =>
    refine .inl ⟨e, ?_⟩
    rw [call, entered]
  | ok s' =>
    obtain ⟨x, found, live, rfl⟩ := enter_ok entered
    have here : (s.putSession ref (x.begun s.now)).sessions.get? ref = some (x.begun s.now) :=
      SortedMap.get?_insert_self _ _ _
    refine .inr ⟨s.putSession ref (x.begun s.now), x.begun s.now, phase?_put_back found rfl, here,
      live, ?_⟩
    rw [call, entered]
    simp only [here]

/-- A call whose body keeps all phases keeps them. -/
theorem call_phase {body : Service → Session → Outcome α}
    (keeps : ∀ s x, s.sessions.get? ref = some x → (body s x).1.phase? = s.phase?) :
    (s.call ref body).1.phase? = s.phase? := by
  rcases call_cases s ref body with ⟨e, refused⟩ | ⟨s', x, same, found, _, done⟩
  · rw [refused]
  · rw [done, phase?_leave, keeps s' x found, same]

theorem revise_phase (s : Service) (ref : Ref)
    (change : Service → Session → Except Error Feedback) :
    (s.revise ref change).1.phase? = s.phase? := by
  apply call_phase
  intro s x found
  cases change s x with
  | error e => rfl
  | ok f => exact phase?_put_back found rfl

theorem consult_phase (s : Service) (ref : Ref) (look : Feedback → α)
    (change : Feedback → Feedback) : (s.consult ref look change).1.phase? = s.phase? :=
  call_phase fun _ _ found => phase?_put_back found rfl

theorem find_phase (s : Service) (id : String) : (s.find id).1.phase? = s.phase? := by
  unfold find
  split
  · rfl
  · exact call_phase fun _ _ _ => rfl

/-- Seeding moves a session that was as if new, and nothing else; if it fails, nothing at all. -/
theorem seed_phase (s : Service) (ref : Ref) (query : Key) (n : Nat) :
    (∃ e, (s.seed ref query n).2 = .error e ∧ (s.seed ref query n).1.phase? = s.phase?) ∨
    ∃ ranking, (s.seed ref query n).2 = .ok ranking ∧ s.phase? ref = some .created ∧
      ∀ other, (s.seed ref query n).1.phase? other =
        if other = ref then some .initialized else s.phase? other := by
  unfold seed
  rcases call_cases s ref _ with ⟨e, refused⟩ | ⟨s', x, same, found, _, done⟩
  · rw [refused]
    exact .inl ⟨e, rfl, rfl⟩
  rw [done, ← same, phase?_leave]
  cases allowed : x.require .seed with
  | error e => exact .inl ⟨e, rfl, rfl⟩
  | ok _ =>
    cases s'.vector query with
    | error e => exact .inl ⟨e, rfl, rfl⟩
    | ok v =>
      have aside := aside_of_frame (nearest_frame s' x.index v n)
      dsimp only
      cases near : s'.nearest x.index v n with
      | mk s'' answer =>
        rw [near] at aside
        have kept : s''.phase? = s'.phase? := phase?_congr aside.sessions
        cases answer with
        | error e => exact .inl ⟨e, rfl, kept⟩
        | ok neighbors =>
          refine .inr ⟨_, rfl, ?_, fun other => ?_⟩
          · rw [phase?, found, Option.map_some, require_seed_ok allowed]
          · rw [phase?_put, kept]

/-- Resetting moves one session and cannot fail for one that is not over. -/
theorem reset_phase (s : Service) (ref : Ref) :
    (∃ e, (s.reset ref).2 = .error e ∧ (s.reset ref).1.phase? = s.phase?) ∨
    (s.reset ref).2 = .ok () ∧ (∃ before, s.phase? ref = some before ∧
      before.isTerminal = false) ∧
      ∀ other, (s.reset ref).1.phase? other =
        if other = ref then some .created else s.phase? other := by
  unfold reset
  rcases call_cases s ref _ with ⟨e, refused⟩ | ⟨s', x, same, found, live, done⟩
  · rw [refused]
    exact .inl ⟨e, rfl, rfl⟩
  refine .inr ?_
  rw [done, ← same, phase?_leave]
  refine ⟨rfl, ⟨x.phase, ?_, live⟩, fun other => ?_⟩
  · rw [phase?, found]
    rfl
  · rw [phase?_put]
    rfl

/-- A refinement that begins, or fails to, keeps all phases. -/
theorem beginRefine_phase (s : Service) (ref : Ref) (budget : Budget) :
    (s.beginRefine ref budget).1.phase? = s.phase? := by
  unfold beginRefine
  cases entered : s.enter ref with
  | error e => rfl
  | ok s' =>
    obtain ⟨x, found, _, rfl⟩ := enter_ok entered
    have here : (s.putSession ref (x.begun s.now)).sessions.get? ref = some (x.begun s.now) :=
      SortedMap.get?_insert_self _ _ _
    have begun : (s.putSession ref (x.begun s.now)).phase? = s.phase? := phase?_put_back found rfl
    have aside := aside_of_frame
      (prepareRefine_frame (s.putSession ref (x.begun s.now)) ref (x.begun s.now) budget)
    simp only [here]
    split
    · rename_i after e prepared
      rw [prepared] at aside
      rw [phase?_leave, phase?_congr aside.sessions, begun]
    · rename_i after r prepared
      rw [prepared] at aside
      exact (phase?_congr aside.sessions).trans begun

/-- The end of a refinement moves its session if it succeeds, and nothing if it fails. -/
theorem endRefine_phase {r : Refinement} (awaits : World.Awaits s r)
    (answer : Except Error (List Scored)) :
    (∃ e, (s.endRefine r answer).2 = .error e ∧ (s.endRefine r answer).1.phase? = s.phase?) ∨
    ∃ ranking, (s.endRefine r answer).2 = .ok ranking ∧
      (∃ before, s.phase? r.session = some before ∧
        (before = .initialized ∨ before = .refining)) ∧
      ∀ other, (s.endRefine r answer).1.phase? other =
        if other = r.session then some .refining else s.phase? other := by
  obtain ⟨x, found, _⟩ := awaits.session
  have visit := endRefine_visit awaits answer
  have others {other : Ref} (apart : other ≠ r.session) :
      (s.endRefine r answer).1.phase? other = s.phase? other := by
    rw [phase?, visit.others other apart]
    rfl
  rcases endRefine_ends found answer with ⟨e, failed, found'⟩ | ⟨scores, _, done, found'⟩
  · refine .inl ⟨e, failed, ?_⟩
    funext other
    by_cases here : other = r.session
    · rw [here, phase?, phase?, found, found']
      rfl
    · exact others here
  · refine .inr ⟨_, done, ⟨x.phase, ?_, ?_⟩, fun other => ?_⟩
    · rw [phase?, found]
      rfl
    · obtain ⟨y, there, served, _⟩ := visit.toTouch.exists_after found
      cases found'.symm.trans there
      exact served.turn.seeded_of_refining rfl
    · split
      · rename_i here
        rw [here, phase?, found']
        rfl
      · rename_i apart
        exact others apart

/-- The sessions that are taken out of the registry end, and no others. -/
theorem phase?_evictAll {settings : RegistrySettings} (registered : Registered settings s)
    {phase : Phase} (final : phase.isTerminal = true) {entries : List (String × Ref)}
    (known : s.Listed entries) (other : Ref) :
    (s.evictAll phase entries).phase? other =
      if other ∈ entries.map (·.2) then some phase else s.phase? other := by
  rw [phase?, get?_evictAll s final, Option.map_map]
  split
  · rename_i ended
    obtain ⟨entry, member, rfl⟩ := List.mem_map.mp ended
    obtain ⟨x, found, _, live, _⟩ := registered.live entry.1 entry.2 (known entry member)
    simp only [found, Option.map_some, Function.comp_apply, terminate_of_live live]
  · rename_i kept
    congr 1

/-- A new session starts in the first phase. -/
theorem Effect.created {order : List String} {accessed : List Ref} {ending : Option Phase}
    (effect : Effect s s' order accessed ending) (vacant : s.sessions.get? ref = none)
    (found : s'.sessions.get? ref = some y) : y.phase = .created := by
  have put {x : Session} (created : x.phase = .created)
      (added : s'.sessions = (s.addSession x).1.sessions) : y.phase = .created := by
    rw [added] at found
    by_cases here : ref = s.sessions.size
    · rw [here] at found
      cases (SortedMap.get?_insert_self s.sessions _ x).symm.trans found
      exact created
    · cases vacant.symm.trans ((SortedMap.get?_insert_of_ne here).symm.trans found)
  cases effect with
  | aside sessions _ _ =>
    rw [sessions, vacant] at found
    cases found
  | @visited here visit =>
    by_cases same : ref = here
    · rw [same] at found vacant
      obtain ⟨x, was, _⟩ := visit.toTouch.some_of_some found
      cases vacant.symm.trans was
    · cases vacant.symm.trans ((visit.others ref same).symm.trans found)
  | alone after =>
    apply put _ (congrArg Service.sessions after)
    rfl
  | opened _ after =>
    apply put (x := .create _ _ _ _ _ _) rfl
    rw [after]
  | evicted final _ after =>
    rw [after, get?_evictAll _ final, vacant] at found
    cases found

/-- A session that is over refuses every call and stays as it is, like all the rest. -/
theorem call_refused (found : s.sessions.get? ref = some x) (final : x.phase.isTerminal = true)
    (body : Service → Session → Outcome α) :
    s.call ref body = (s, .error (.sessionUnavailable x.id x.phase)) := by
  simp only [call, enter, found, Session.enter, final, if_true, Except.map]

theorem beginRefine_refused (found : s.sessions.get? ref = some x)
    (final : x.phase.isTerminal = true) (budget : Budget) :
    s.beginRefine ref budget = (s, .error (.sessionUnavailable x.id x.phase)) := by
  simp only [beginRefine, enter, found, Session.enter, final, if_true, Except.map]

end Service

namespace World
open Service Session
variable {w : World} {ref : Ref} {x : Session} {settings : RegistrySettings}

/-- What an operation, so answered, makes of a phase: it moves it along an edge, or it keeps it
where it has no edge to move it along. -/
def Moved (w : World) (operation : Operation) (answer : Except Error Unit) (ref : Ref)
    (before after : Phase) : Prop :=
  operation.Moves w ref answer before after ∨
    after = before ∧ ∀ phase, ¬ operation.Moves w ref answer before phase

/-- Every session is where it was, and its phase was moved by the operation or kept. -/
def Shifts (w : World) (operation : Operation) (after : Service) (answer : Except Error Unit) :
    Prop :=
  ∀ ref before, w.service.phase? ref = some before →
    ∃ phase, after.phase? ref = some phase ∧ w.Moved operation answer ref before phase

theorem shifts_of_same {operation : Operation} {after : Service} {answer : Except Error Unit}
    (same : after.phase? = w.service.phase?)
    (still : ∀ ref before phase, ¬ operation.Moves w ref answer before phase) :
    w.Shifts operation after answer :=
  fun ref before found => ⟨before, same ▸ found, .inr ⟨rfl, still ref before⟩⟩

theorem shifts_of_error {operation : Operation} {after : Service} {e : Error}
    (same : after.phase? = w.service.phase?) : w.Shifts operation after (.error e) :=
  shifts_of_same same fun _ _ _ => Operation.not_moves_error

/-- An operation that sets the phase of some sessions and has edges for these and no others. -/
theorem shifts_of_set {operation : Operation} {after : Service} {phase : Phase} {set : Ref → Prop}
    [DecidablePred set]
    (phases : ∀ other, after.phase? other =
      if set other then some phase else w.service.phase? other)
    (moves : ∀ ref before, w.service.phase? ref = some before → set ref →
      operation.Moves w ref (.ok ()) before phase)
    (still : ∀ ref before other, ¬ set ref → ¬ operation.Moves w ref (.ok ()) before other) :
    w.Shifts operation after (.ok ()) := by
  intro ref before found
  by_cases here : set ref
  · exact ⟨phase, (phases ref).trans (if_pos here), .inl (moves ref before found here)⟩
  · exact ⟨before, ((phases ref).trans (if_neg here)).trans found,
      .inr ⟨rfl, fun other => still ref before other here⟩⟩

theorem seed_shifts (w : World) (place : Ref) (query : Key) (n : Nat) :
    w.Shifts (.seed place query n) (w.service.seed place query n).1
      ((w.service.seed place query n).2.map fun _ => ()) := by
  rcases seed_phase w.service place query n with
    ⟨e, failed, same⟩ | ⟨ranking, done, created, phases⟩
  · rw [failed]
    exact shifts_of_error same
  · rw [done]
    refine shifts_of_set phases ?_ ?_
    · rintro ref before found rfl
      cases created.symm.trans found
      exact .seeded
    · intro ref before other apart moves
      cases moves
      exact apart rfl

theorem reset_shifts (w : World) (place : Ref) :
    w.Shifts (.reset place) (w.service.reset place).1
      ((w.service.reset place).2.map fun _ => ()) := by
  rcases reset_phase w.service place with ⟨e, failed, same⟩ | ⟨done, ⟨before, was, live⟩, phases⟩
  · rw [failed]
    exact shifts_of_error same
  · rw [done]
    refine shifts_of_set phases ?_ ?_
    · rintro ref before found rfl
      cases was.symm.trans found
      exact .reset live
    · intro ref before other apart moves
      cases moves
      exact apart rfl

theorem endRefine_shifts (sound : w.Sound) (place : Nat) (answer : Except Error (List Scored)) :
    w.Shifts (.endRefine place answer) (w.perform (.endRefine place answer)).1.service
      (w.perform (.endRefine place answer)).2 := by
  cases here : w.pending[place]? with
  | none =>
    simp only [perform, here]
    apply shifts_of_same rfl
    intro ref before phase moves
    cases moves with
    | refined pending _ _ =>
      rw [here] at pending
      cases pending
  | some r =>
    rw [perform_endRefine here]
    rcases endRefine_phase (sound.awaited r (List.mem_of_getElem? here)) answer with
      ⟨e, failed, same⟩ | ⟨ranking, done, ⟨before, was, seeded⟩, phases⟩
    · rw [failed]
      exact shifts_of_error same
    · rw [done]
      refine shifts_of_set phases ?_ ?_
      · rintro ref before' found rfl
        cases was.symm.trans found
        exact .refined here rfl seeded
      · intro ref before' other apart moves
        cases moves with
        | refined pending session _ =>
          cases here.symm.trans pending
          exact apart session.symm

/-- Taking sessions out of the registry moves those that the edges name. -/
theorem evictAll_shifts (registered : w.service.Registered settings) {operation : Operation}
    {phase : Phase} (final : phase.isTerminal = true) {entries : List (String × Ref)}
    (known : w.service.Listed entries)
    (edges : ∀ ref before after, operation.Moves w ref (.ok ()) before after ↔
      before.isTerminal = false ∧ after = phase ∧ ref ∈ entries.map (·.2)) :
    w.Shifts operation (w.service.evictAll phase entries) (.ok ()) := by
  refine shifts_of_set (phase?_evictAll registered final known) ?_ ?_
  · intro ref before found ended
    obtain ⟨entry, member, rfl⟩ := List.mem_map.mp ended
    obtain ⟨x, there, _, live, _⟩ := registered.live entry.1 entry.2 (known entry member)
    rw [phase?, there] at found
    cases found
    exact (edges _ _ _).mpr ⟨live, rfl, ended⟩
  · intro ref before other kept moves
    exact kept ((edges _ _ _).mp moves).2.2

theorem close_shifts (registered : w.service.Registered settings) (id : String) :
    w.Shifts (.close id) (w.service.close id).1 ((w.service.close id).2.map fun _ => ()) := by
  unfold Service.close
  cases known : w.service.registry.live.get? id with
  | none => exact shifts_of_error rfl
  | some place =>
    have listed : w.service.Listed [(id, place)] := List.forall_mem_singleton.mpr known
    apply evictAll_shifts registered rfl listed
    intro ref before after
    constructor
    · intro moves
      cases moves with
      | closed live known' =>
        cases known.symm.trans known'
        exact ⟨live, rfl, List.mem_singleton_self _⟩
    · rintro ⟨live, rfl, here⟩
      rw [List.mem_singleton.mp here]
      exact .closed live known

theorem drain_shifts (registered : w.service.Registered settings) (order : List String) :
    w.Shifts (.drain order) (w.service.drain order).1 (.ok ()) := by
  have listed : w.service.Listed (w.service.registry.arranged order) :=
    listed_of_sublist (List.Sublist.refl _)
  rw [drain_eq]
  apply evictAll_shifts registered rfl listed
  intro ref before after
  constructor
  · intro moves
    cases moves with
    | @drained id _ _ live known =>
      exact ⟨live, rfl, List.mem_map.mpr ⟨(id, ref), Registry.mem_arranged.mpr known, rfl⟩⟩
  · rintro ⟨live, rfl, here⟩
    obtain ⟨entry, member, rfl⟩ := List.mem_map.mp here
    exact .drained live (listed entry member)

theorem reap_shifts (registered : w.service.Registered settings) (order : List String) :
    w.Shifts (.reap order) (w.service.reap order).1 (.ok ()) := by
  cases expires : w.service.registry.settings.expires with
  | false =>
    have idle : w.service.reap order = (w.service, []) := by
      rw [Service.reap, expires]
      rfl
    rw [idle]
    apply shifts_of_same rfl
    intro ref before phase moves
    cases moves with
    | expired _ _ swept =>
      rw [idle] at swept
      cases swept
  | true =>
    have sweep := reap_of_expires expires order
    have listed := w.service.listed_swept order
    rw [sweep]
    apply evictAll_shifts registered rfl listed
    intro ref before after
    constructor
    · intro moves
      cases moves with
      | expired live known swept =>
        rw [sweep] at swept
        obtain ⟨entry, member, rfl⟩ := List.mem_map.mp swept
        cases known.symm.trans (listed entry member)
        exact ⟨live, rfl, List.mem_map_of_mem member⟩
    · rintro ⟨live, rfl, here⟩
      obtain ⟨entry, member, rfl⟩ := List.mem_map.mp here
      refine .expired live (listed entry member) ?_
      rw [sweep]
      exact List.mem_map_of_mem member

/-- A session that is put at a vacant place moves no other. -/
theorem added_shifts (vacant : w.service.sessions.get? w.service.sessions.size = none)
    {operation : Operation} {after : Service} {answer : Except Error Unit} {y : Session}
    (added : after.sessions = (w.service.addSession y).1.sessions)
    (still : ∀ ref before phase, ¬ operation.Moves w ref answer before phase) :
    w.Shifts operation after answer := by
  intro ref before found
  obtain ⟨x, there, rfl⟩ := Option.map_eq_some_iff.mp found
  refine ⟨x.phase, ?_, .inr ⟨rfl, still ref _⟩⟩
  rw [phase?_congr added, phase?, get?_addSession vacant there]
  rfl

theorem openSession_shifts (sound : w.Sound) (id : String) (index : Ref) (ranker : Ranker) :
    w.Shifts (.openSession id index ranker) (w.service.openSession id index ranker).1
      ((w.service.openSession id index ranker).2.map fun _ => ()) := by
  cases taken : w.service.registry.isTaken id with
  | true =>
    rw [openSession_taken taken]
    exact shifts_of_error rfl
  | false =>
    rw [openSession_free taken]
    exact added_shifts sound.vacant rfl nofun

/-- Every operation moves the phases of sessions along its edges and in no other way. -/
theorem perform_shifts (sound : w.Sound) (registered : w.service.Registered settings)
    (operation : Operation) :
    w.Shifts operation (w.perform operation).1.service (w.perform operation).2 := by
  cases operation with
  | seed place query n => exact seed_shifts w place query n
  | addPositive place id => exact shifts_of_same (revise_phase _ _ _) nofun
  | addNegative place id => exact shifts_of_same (revise_phase _ _ _) nofun
  | removePositive place id => exact shifts_of_same (consult_phase _ _ _ _) nofun
  | removeNegative place id => exact shifts_of_same (consult_phase _ _ _ _) nofun
  | adjudicate place changes => exact shifts_of_same (revise_phase _ _ _) nofun
  | positives place => exact shifts_of_same (consult_phase _ _ _ _) nofun
  | negatives place => exact shifts_of_same (consult_phase _ _ _ _) nofun
  | ranking place => exact shifts_of_same (consult_phase _ _ _ _) nofun
  | top place n => exact shifts_of_same (consult_phase _ _ _ _) nofun
  | reset place => exact reset_shifts w place
  | beginRefine place budget =>
    have same := beginRefine_phase w.service place budget
    apply shifts_of_same
    · unfold perform
      dsimp only
      split <;> rename_i begun <;> rw [begun] at same <;> exact same
    · nofun
  | endRefine place answer => exact endRefine_shifts sound place answer
  | openSession id index ranker => exact openSession_shifts sound id index ranker
  | startAlone id settings index ranker label => exact added_shifts sound.vacant rfl nofun
  | find id => exact shifts_of_same (find_phase _ _) nofun
  | close id => exact close_shifts registered id
  | reap order => exact reap_shifts registered order
  | drain order => exact drain_shifts registered order
  | advance nanoseconds => exact shifts_of_same (phase?_congr rfl) nofun
  | elsewhere files descriptors results indexes => exact shifts_of_same (phase?_congr rfl) nofun

/-- A call of a session that is over changes nothing at all. -/
theorem perform_refused (found : w.service.sessions.get? ref = some x)
    (final : x.phase.isTerminal = true) {operation : Operation}
    (called : operation.called? = some ref) :
    w.perform operation = (w, .error (.sessionUnavailable x.id x.phase)) := by
  have refused {α : Type} (body : Service → Session → Outcome α) :
      w.goOn (w.service.call ref body) = (w, .error (.sessionUnavailable x.id x.phase)) := by
    rw [call_refused found final]
    rfl
  cases operation with
  | beginRefine place budget =>
    cases called
    simp only [perform, beginRefine_refused found final]
  | endRefine | openSession | startAlone | find | close | reap | drain | advance | elsewhere =>
    cases called
  | _ =>
    cases called
    exact refused _

/-- However long things go on, a session that is over keeps its name and its phase. -/
theorem run_over (sound : w.Sound) (found : w.service.sessions.get? ref = some x)
    (final : x.phase.isTerminal = true) (operations : List Operation) :
    ∃ y, (w.run operations).service.sessions.get? ref = some y ∧ y.phase = x.phase ∧
      y.id = x.id := by
  obtain ⟨y, found', later⟩ := run_later sound found operations
  obtain ⟨z, found'', profile⟩ := run_profile sound found operations
  cases found'.symm.trans found''
  exact ⟨y, found', later.ended final, congrArg Profile.id profile⟩

/-- The phases of sessions, whatever was performed before. A new session starts as created. The
phase of another one changes along an edge of the operation that is performed and in no other way,
where there is an edge it is taken, and an operation that fails changes no phase. A session that is
over stays so in the phase it ended in, and whatever is performed later, each of its calls answers
that it is unavailable, naming it and that phase, and changes nothing. -/
theorem phases_of_run (files : FileTree) (descriptors : Store Descriptor)
    (results : Store Classification) (settings : RegistrySettings) (label : Option String)
    (operations : List Operation) :
    let w := (fresh files descriptors results settings label).run operations
    (∀ operation ref y, (w.perform operation).1.service.sessions.get? ref = some y →
      w.service.sessions.get? ref = none ∧ y.phase = .created ∨
      ∃ x, w.service.sessions.get? ref = some x ∧
        (y.phase ≠ x.phase → operation.Moves w ref (w.perform operation).2 x.phase y.phase) ∧
        (∀ phase, operation.Moves w ref (w.perform operation).2 x.phase phase → y.phase = phase) ∧
        ∀ e, (w.perform operation).2 = .error e → y.phase = x.phase) ∧
    ∀ ref x, w.service.sessions.get? ref = some x → x.phase.isTerminal = true →
      ∀ later, let w' := w.run later
        (∃ y, w'.service.sessions.get? ref = some y ∧ y.phase = x.phase) ∧
        ∀ operation, operation.called? = some ref →
          w'.perform operation = (w', .error (.sessionUnavailable x.id x.phase)) := by
  intro w
  have start : (fresh files descriptors results settings label).Sound := fresh_sound _ _ _ _ _
  have sound : w.Sound := run_sound start operations
  have registered : w.service.Registered settings :=
    run_registered start (fresh_registered files descriptors results settings label) operations
  refine ⟨fun operation ref y found => ?_, fun ref x found final later => ?_⟩
  · cases was : w.service.sessions.get? ref with
    | none => exact .inl ⟨rfl, (perform_effect sound operation).created was found⟩
    | some x =>
      have before : w.service.phase? ref = some x.phase := by rw [phase?, was]; rfl
      obtain ⟨phase, after, moved⟩ := perform_shifts sound registered operation ref x.phase before
      rw [phase?, found] at after
      cases after
      refine .inr ⟨x, rfl, fun changed => ?_, fun phase moves => ?_, fun e failed => ?_⟩
      · exact moved.resolve_right fun kept => changed kept.1
      · rcases moved with moves' | ⟨_, still⟩
        · exact moves'.unique moves
        · exact absurd moves (still phase)
      · rcases moved with moves | ⟨same, _⟩
        · rw [failed] at moves
          exact absurd moves Operation.not_moves_error
        · exact same
  · intro w'
    obtain ⟨y, found', phase, named⟩ := run_over sound found final later
    refine ⟨⟨y, found', phase⟩, fun operation called => ?_⟩
    rw [← phase, ← named]
    exact perform_refused found' (phase ▸ final) called

end World
end Retrieval
