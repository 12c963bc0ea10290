import Retrieval.Proofs.Service.Touch

/-!
What the calls of a session do to it. A call is counted while it is under way and is over in any
case, so all that is left of it is the turn that its body takes and a note of the access
(`call_visit`).
-/
namespace Retrieval

namespace Session
variable {x y : Session}

/-- A session with one more call under way. -/
def begun (x : Session) (now : Nat) : Session := { x with busy := x.busy + 1, lastAccess := now }

/-- A session that was served by a call which is over. -/
structure Called (now : Nat) (before after : Session) : Prop extends Served now before after where
  busy : after.busy = before.busy

theorem Called.change {now : Nat} (called : Called now x y) : Change x y :=
  ⟨called.turn, called.busy, called.profile⟩

theorem begun_still (x : Session) (now : Nat) : Still x (x.begun now) := ⟨rfl, rfl, rfl⟩

theorem leave_still (x : Session) (now : Nat) : Still x (x.leave now) := ⟨rfl, rfl, rfl⟩

theorem begun_served (x : Session) (now : Nat) : Served now x (x.begun now) :=
  ⟨.still (x.begun_still now), rfl, rfl, fun _ => rfl⟩

/-- The end of a call in which the session went on. -/
theorem leave_served {now : Nat} (progress : Progress x y) : Served now x (y.leave now) :=
  ⟨progress.turn.between ⟨rfl, rfl, rfl⟩ (y.leave_still now), progress.profile, progress.lasts,
    fun _ => rfl⟩

/-- A whole call in which the session went on. -/
theorem leave_called {now : Nat} (progress : Progress (x.begun now) y) :
    Called now x (y.leave now) := by
  refine ⟨⟨?_, progress.profile, progress.lasts, fun _ => rfl⟩, ?_⟩
  · exact progress.turn.between (x.begun_still now) (y.leave_still now)
  · show y.busy - 1 = x.busy
    rw [progress.busy]
    exact Nat.add_sub_cancel x.busy 1

end Session

namespace Service
open Session
variable {α : Type} {ref : Ref} {s s' : Service}

theorem enter_ok (entered : s.enter ref = .ok s') :
    ∃ x, s.sessions.get? ref = some x ∧ x.phase.isTerminal = false ∧
      s' = s.putSession ref (x.begun s.now) := by
  unfold enter at entered
  cases found : s.sessions.get? ref with
  | none =>
    rw [found] at entered
    cases entered
  | some x =>
    rw [found] at entered
    simp only [Session.enter] at entered
    split at entered
    · cases entered
    · rename_i live
      cases entered
      exact ⟨x, rfl, Bool.eq_false_iff.mpr live, rfl⟩

/-- A call is refused only if the session is over, unless there is no session. -/
theorem enter_error {e : Error} (refused : s.enter ref = .error e) {x : Session}
    (found : s.sessions.get? ref = some x) : x.phase.isTerminal = true := by
  simp only [enter, found, Session.enter] at refused
  split at refused
  · assumption
  · cases refused

/-- A call that has begun finds its session, which is not over. -/
theorem get?_of_enter (entered : s.enter ref = .ok s') :
    ∃ x, s'.sessions.get? ref = some x ∧ x.phase.isTerminal = false := by
  obtain ⟨x, _, live, rfl⟩ := enter_ok entered
  exact ⟨x.begun s.now, SortedMap.get?_insert_self _ _ _, live⟩

theorem enter_visit (entered : s.enter ref = .ok s') :
    Visit ref (fun x y => x.phase.isTerminal = false ∧ y = x.begun s.now) s s' := by
  obtain ⟨x, found, live, rfl⟩ := enter_ok entered
  exact .put (.refl s) found ⟨live, rfl⟩

theorem leave_visit (s : Service) (ref : Ref) :
    Visit ref (fun x y => y = x.leave s.now) s (s.leave ref) := by
  unfold leave
  cases found : s.sessions.get? ref with
  | none =>
    refine ⟨⟨fun _ _ => rfl, ?_⟩, rfl, rfl⟩
    rw [found]
    exact .none
  | some x => exact .put (.refl s) found rfl

/-- A call that is refused leaves everything as it is. -/
theorem refused_visit {e : Error} (refused : s.enter ref = .error e) :
    Visit ref (Called s.now) s s := by
  apply (Visit.of_aside (.refl s) fun _ => rfl).mono
  rintro x _ found rfl
  exact ⟨served_of_terminal (enter_error refused found) s.now, rfl⟩

/-- Beginning and ending a call cancel out. -/
theorem enter_leave_visit {between : Service} (entered : s.enter ref = .ok s')
    (within : Visit ref Progress s' between) : Visit ref (Called s.now) s (between.leave ref) := by
  have clock : between.now = s.now := within.now.trans (enter_visit entered).now
  apply (((enter_visit entered).trans within).trans (leave_visit _ ref)).mono
  intro x z _ steps
  obtain ⟨y', ⟨y, ⟨_, rfl⟩, progress⟩, rfl⟩ := steps
  rw [clock]
  exact leave_called progress

/-- A call does to its session what its body does, and nothing to the others. -/
theorem call_visit {body : Service → Session → Outcome α}
    (bodies : ∀ s x, s.sessions.get? ref = some x → x.phase.isTerminal = false →
      Visit ref Progress s (body s x).1) : Visit ref (Called s.now) s (s.call ref body).1 := by
  unfold call
  cases entered : s.enter ref with
  | error e => exact refused_visit entered
  | ok s' =>
    obtain ⟨x, here, live⟩ := get?_of_enter entered
    simp only [here]
    exact enter_leave_visit entered (bodies s' x here live)

/-! Looking at indexes and stores -/

/-- Whatever is done to an index leaves the rest of the service alone. -/
theorem onIndex_frame (s : Service) (ref : Ref) (change : Index → Index × Except Error α) :
    (s.onIndex ref change).1 = { s with indexes := (s.onIndex ref change).1.indexes } := by
  unfold onIndex
  split <;> rfl

theorem nearest_frame (s : Service) (ref : Ref) (query : Descriptor) (n : Nat) :
    (s.nearest ref query n).1 = { s with indexes := (s.nearest ref query n).1.indexes } :=
  onIndex_frame s ref _

theorem aside_of_frame (frame : s' = { s with indexes := s'.indexes }) : Aside s s' := by
  rw [frame]
  exact ⟨rfl, rfl, rfl⟩

/-! The bodies of calls -/

theorem revise_visit {change : Service → Session → Except Error Feedback}
    (revised : ∀ s x f, change s x = .ok f → x.feedback.Revised f) :
    Visit ref (Called s.now) s (s.revise ref change).1 := by
  apply call_visit
  intro s x found live
  cases result : change s x with
  | error e => exact .of_aside (.refl s) Progress.refl
  | ok f =>
    exact .put (.refl s) found ⟨⟨.revised live rfl (revised s x f result) rfl, rfl, rfl⟩, rfl⟩

theorem consult_visit {look : Feedback → α} {change : Feedback → Feedback}
    (revised : ∀ f : Feedback, f.Revised (change f)) :
    Visit ref (Called s.now) s (s.consult ref look change).1 :=
  call_visit fun s x found live =>
    .put (.refl s) found ⟨⟨.revised live rfl (revised x.feedback) rfl, rfl, rfl⟩, rfl⟩

theorem addPositive_visit (id : String) :
    Visit ref (Called s.now) s (s.addPositive ref id).1 := by
  apply revise_visit
  intro s x f result
  cases indexed : s.requireIndexed x id with
  | error e =>
    rw [indexed] at result
    cases result
  | ok _ =>
    rw [indexed] at result
    exact Feedback.addPositive_revised result

theorem addNegative_visit (id : String) :
    Visit ref (Called s.now) s (s.addNegative ref id).1 := by
  apply revise_visit
  intro s x f result
  cases indexed : s.requireIndexed x id with
  | error e =>
    rw [indexed] at result
    cases result
  | ok _ =>
    rw [indexed] at result
    exact Feedback.addNegative_revised result

theorem adjudicate_visit (a : Adjudication) :
    Visit ref (Called s.now) s (s.adjudicate ref a).1 := by
  apply revise_visit
  intro s x f result
  cases indexed : (a.positives ++ a.negatives).forM (s.requireIndexed x) with
  | error e =>
    rw [indexed] at result
    cases result
  | ok _ =>
    rw [indexed] at result
    exact Feedback.adjudicate_revised result

theorem reset_visit : Visit ref (Called s.now) s (s.reset ref).1 :=
  call_visit fun s _ found live =>
    .put (.refl s) found ⟨⟨.reset live rfl rfl rfl, rfl, rfl⟩, live.symm⟩

theorem seed_visit (query : Key) (n : Nat) :
    Visit ref (Called s.now) s (s.seed ref query n).1 := by
  apply call_visit
  intro s x found live
  cases allowed : x.require .seed with
  | error e => exact .of_aside (.refl s) Progress.refl
  | ok _ =>
    cases s.vector query with
    | error e => exact .of_aside (.refl s) Progress.refl
    | ok v =>
      have aside := aside_of_frame (nearest_frame s x.index v n)
      simp only
      cases near : s.nearest x.index v n with
      | mk s' answer =>
        rw [near] at aside
        cases answer with
        | error e => exact .of_aside aside Progress.refl
        | ok found' =>
          have seeded := require_seed_ok allowed
          exact .put aside found ⟨⟨.seeded seeded rfl rfl rfl, rfl, rfl⟩, live.symm⟩

/-- Looking up a session that is live is a call of it. -/
theorem find_visit {id : String} (registered : s.registry.live.get? id = some ref) :
    Visit ref (Called s.now) s (s.find id).1 := by
  simp only [find, registered]
  exact call_visit fun s _ _ _ => .of_aside (.refl s) Progress.refl

theorem find_missing {id : String} (missing : s.registry.live.get? id = none) :
    s.find id = (s, .error (s.registry.missing id)) := by
  simp only [find, missing]

end Service

/-- A call of a session keeps a world sound. -/
theorem World.Sound.of_visit {w : World} (sound : w.Sound) {ref : Ref} {now : Nat} {s : Service}
    (visit : Service.Visit ref (Session.Called now) w.service s) :
    (World.mk s w.pending).Sound :=
  sound.of_touch (visit.toTouch.mono fun _ _ _ called => called.change)

end Retrieval
