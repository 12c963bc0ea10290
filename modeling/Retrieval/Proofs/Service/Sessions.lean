import Retrieval.Proofs.Service.Eviction
import Retrieval.Proofs.Service.Refinement

/-!
Sessions stay consistent whatever is done with them and with the registry, also while refinements
are under way (`World.run_sound`).
-/
namespace Retrieval
open Session

namespace World
variable {w : World} {s : Service} {pending : List Refinement}

theorem evictAll_sound (sound : (World.mk s pending).Sound) {phase : Phase}
    (final : phase.isTerminal = true) (entries : List (String × Ref)) :
    (World.mk (s.evictAll phase entries) pending).Sound := by
  induction entries generalizing s with
  | nil => exact sound
  | cons entry rest ih => exact ih (sound.of_touch (s.evict_touch entry.1 entry.2 final))

theorem create_consistent (id : String) (now : Nat) (settings : SessionSettings) (index : Ref)
    (ranker : Ranker) (label : Option String) :
    (Session.create id now settings index ranker label).Consistent :=
  consistent_of_empty rfl (.inl rfl)

theorem openSession_sound (sound : w.Sound) (id : String) (index : Ref) (ranker : Ranker) :
    (w.perform (.openSession id index ranker)).1.Sound := by
  show (World.mk (w.service.openSession id index ranker).1 w.pending).Sound
  unfold Service.openSession
  split
  · exact sound
  · exact (sound.add (create_consistent id _ _ index ranker _) rfl).of_sessions rfl

theorem find_sound (sound : w.Sound) (id : String) : (w.perform (.find id)).1.Sound := by
  show (World.mk (w.service.find id).1 w.pending).Sound
  cases live : w.service.registry.live.get? id with
  | none =>
    rw [Service.find_missing live]
    exact sound
  | some ref => exact sound.of_visit (Service.find_visit live)

theorem close_sound (sound : w.Sound) (id : String) : (w.perform (.close id)).1.Sound := by
  show (World.mk (w.service.close id).1 w.pending).Sound
  unfold Service.close
  split
  · exact sound
  · exact sound.of_touch (w.service.evict_touch id _ rfl)

theorem reap_sound (sound : w.Sound) (order : List String) : (w.perform (.reap order)).1.Sound := by
  show (World.mk (w.service.reap order).1 w.pending).Sound
  unfold Service.reap
  split
  · rw [Service.reapAll_eq]
    exact evictAll_sound sound rfl _
  · exact sound

theorem drain_sound (sound : w.Sound) (order : List String) :
    (w.perform (.drain order)).1.Sound := by
  show (World.mk (w.service.drain order).1 w.pending).Sound
  rw [Service.drain_eq]
  exact evictAll_sound sound rfl _

/-- Counting the calls under way without one of them. -/
theorem countP_eraseIdx {place : Nat} {r : Refinement} (here : pending[place]? = some r)
    (ref : Ref) :
    (pending.eraseIdx place).countP (fun r => r.session = ref) +
      (if r.session = ref then 1 else 0) = pending.countP fun r => r.session = ref := by
  obtain ⟨inside, rfl⟩ := List.getElem?_eq_some_iff.mp here
  have whole : pending.take place ++ pending[place] :: pending.drop (place + 1) = pending := by
    rw [← List.drop_eq_getElem_cons inside, List.take_append_drop]
  have counted := congrArg (List.countP fun r => r.session = ref) whole
  rw [List.countP_append, List.countP_cons] at counted
  rw [List.eraseIdx_eq_take_drop_succ, List.countP_append, ← counted]
  simp only [decide_eq_true_eq]
  omega

theorem beginRefine_sound (sound : w.Sound) (ref : Ref) (budget : Budget) :
    (w.perform (.beginRefine ref budget)).1.Sound := by
  unfold perform
  dsimp only
  split
  · rename_i failed
    exact sound.of_visit (Service.beginRefine_error failed)
  · rename_i service r begun
    obtain ⟨rfl, visit, awaits⟩ := Service.beginRefine_ok begun
    have counts (ref : Ref) : (World.mk service (r :: w.pending)).underWay ref =
        w.underWay ref + if r.session = ref then 1 else 0 := by
      simp [underWay, List.countP_cons]
    refine sound.touch (visit.toTouch.mono ?_) ?_ ?_
    · intro x y _ change
      obtain ⟨rfl, _⟩ := change
      have up : (x.begun w.service.now).busy = x.busy + 1 := rfl
      exact ⟨.still (x.begun_still _), by rw [counts, if_pos rfl]; omega⟩
    · intro other different
      rw [counts, if_neg (Ne.symm different)]
      rfl
    · intro r' member
      rcases List.mem_cons.mp member with rfl | old
      · exact .inr awaits
      · exact .inl old

theorem endRefine_sound (sound : w.Sound) (place : Nat) (answer : Except Error (List Scored)) :
    (w.perform (.endRefine place answer)).1.Sound := by
  unfold perform
  dsimp only
  split
  · exact sound
  · rename_i r here
    have awaits := sound.awaited r (List.mem_of_getElem? here)
    have counts (ref : Ref) := countP_eraseIdx here ref
    refine sound.touch ((Service.endRefine_visit awaits answer).toTouch.mono ?_) ?_ ?_
    · intro x y found ended
      obtain ⟨served, down⟩ := ended
      have counted := sound.counted _ x found
      have before := counts r.session
      rw [if_pos rfl] at before
      refine ⟨served.turn, ?_⟩
      unfold underWay at counted ⊢
      dsimp only
      omega
    · intro other different
      have before := counts other
      rwa [if_neg (Ne.symm different)] at before
    · intro r' member
      exact .inl (List.mem_of_mem_eraseIdx member)

/-- Every operation keeps the world sound. -/
theorem perform_sound (sound : w.Sound) (operation : Operation) :
    (w.perform operation).1.Sound := by
  cases operation with
  | seed ref query n => exact sound.of_visit (Service.seed_visit query n)
  | addPositive ref id => exact sound.of_visit (Service.addPositive_visit id)
  | addNegative ref id => exact sound.of_visit (Service.addNegative_visit id)
  | removePositive ref id =>
    exact sound.of_visit (Service.consult_visit (Feedback.removePositive_revised · id))
  | removeNegative ref id =>
    exact sound.of_visit (Service.consult_visit (Feedback.removeNegative_revised · id))
  | adjudicate ref changes => exact sound.of_visit (Service.adjudicate_visit changes)
  | positives ref => exact sound.of_visit (Service.consult_visit .refl)
  | negatives ref => exact sound.of_visit (Service.consult_visit .refl)
  | ranking ref => exact sound.of_visit (Service.consult_visit .refl)
  | top ref n => exact sound.of_visit (Service.consult_visit .refl)
  | reset ref => exact sound.of_visit Service.reset_visit
  | beginRefine ref budget => exact beginRefine_sound sound ref budget
  | endRefine place answer => exact endRefine_sound sound place answer
  | openSession id index ranker => exact openSession_sound sound id index ranker
  | startAlone id settings index ranker label =>
    exact sound.add (create_consistent id _ settings index ranker label) rfl
  | find id => exact find_sound sound id
  | close id => exact close_sound sound id
  | reap order => exact reap_sound sound order
  | drain order => exact drain_sound sound order
  | advance nanoseconds => exact sound.of_sessions rfl
  | elsewhere files descriptors results indexes => exact sound.of_sessions rfl

theorem run_sound (sound : w.Sound) (operations : List Operation) : (w.run operations).Sound := by
  induction operations generalizing w with
  | nil => exact sound
  | cons operation rest ih => exact ih (perform_sound sound operation)

theorem start_sound (s : Service) (empty : s.sessions = ∅) : (start s).Sound := by
  refine ⟨?_, ?_, ?_, ?_⟩
  · show s.sessions.keys = List.range s.sessions.size
    rw [empty]
    rfl
  · intro ref x found
    rw [start, empty] at found
    cases found
  · intro ref x found
    rw [start, empty] at found
    cases found
  · intro r member
    cases member

/-- A session that is seeded has its seed to refine from. -/
theorem Sound.gathers (sound : w.Sound) {ref : Ref} {x : Session}
    (entered : w.service.enter ref = .ok s) (found : s.sessions.get? ref = some x) (id : String) :
    s.gatherExamples x ≠ .error (.invalidState (.noPositives id)) := by
  obtain ⟨y, was, _, rfl⟩ := (Service.enter_visit entered).toTouch.some_of_some found
  have begun : Turn y (y.begun w.service.now) := .still (y.begun_still _)
  have consistent := begun.consistent (sound.consistent ref y was)
  exact Service.gatherExamples_ne_noPositives consistent id

/-- The sessions of a service after any operations, also between the two ends of refinements. Each
is consistent and counts the calls that are under way, so it counts none when there are none;
gathering the examples for a refinement never fails for want of a positive one, and every ranker is
given one. -/
theorem sessions_of_run (files : FileTree) (descriptors : Store Descriptor)
    (results : Store Classification) (registry : Registry) (operations : List Operation) :
    let w := (start (.create files descriptors results registry)).run operations
    (∀ ref x, w.service.sessions.get? ref = some x → x.Consistent ∧ x.busy = w.underWay ref ∧
        ((∀ r ∈ w.pending, r.session ≠ ref) → x.busy = 0)) ∧
      (∀ ref s x id, w.service.enter ref = .ok s → s.sessions.get? ref = some x →
        s.gatherExamples x ≠ .error (.invalidState (.noPositives id))) ∧
      ∀ r ∈ w.pending, r.request.positives ≠ [] := by
  intro w
  have sound : w.Sound := run_sound (start_sound _ rfl) operations
  refine ⟨fun ref x found => ?_, fun _ _ _ id entered found => sound.gathers entered found id,
    fun r member => (sound.awaited r member).positives⟩
  have counted := sound.counted ref x found
  refine ⟨sound.consistent ref x found, counted, fun none => ?_⟩
  rw [counted, underWay, List.countP_eq_zero]
  intro r member
  simpa using none r member

end World
end Retrieval
