import Retrieval.Proofs.Sorted
import Retrieval.Session.Basic

/-!
What operations do to a session. Whatever is called, a session takes one of six turns, and each of
them keeps its phase and its feedback in step (`Turn.consistent`).
-/
namespace Retrieval

namespace Feedback
variable {f g : Feedback}

/-- No id is an example of both kinds. -/
def Disjoint (f : Feedback) : Prop := ∀ id, id ∈ f.positives → id ∉ f.negatives

/-- Feedback whose examples were changed, and nothing else. -/
structure Revised (before after : Feedback) : Prop where
  seed : after.seed = before.seed
  pool : after.pool = before.pool
  ranking : after.ranking = before.ranking
  disjoint : before.Disjoint → after.Disjoint

theorem Revised.refl (f : Feedback) : f.Revised f := ⟨rfl, rfl, rfl, id⟩

theorem addPositive_revised {id : String} (added : f.addPositive id = .ok g) : f.Revised g := by
  unfold addPositive at added
  split at added
  · cases added
  · rename_i apart
    cases added
    refine ⟨rfl, rfl, rfl, fun disjoint x member => ?_⟩
    rcases SortedSet.mem_insert.mp member with rfl | old
    · exact fun both => apart both
    · exact disjoint x old

theorem addNegative_revised {id : String} (added : f.addNegative id = .ok g) : f.Revised g := by
  unfold addNegative at added
  split at added
  · cases added
  · rename_i apart
    cases added
    refine ⟨rfl, rfl, rfl, fun disjoint x member both => ?_⟩
    rcases SortedSet.mem_insert.mp both with rfl | old
    · exact apart member
    · exact disjoint x member old

theorem removePositive_revised (f : Feedback) (id : String) : f.Revised (f.removePositive id) :=
  ⟨rfl, rfl, rfl, fun disjoint x member => disjoint x (SortedSet.mem_erase.mp member).2⟩

theorem removeNegative_revised (f : Feedback) (id : String) : f.Revised (f.removeNegative id) :=
  ⟨rfl, rfl, rfl, fun disjoint x member both =>
    disjoint x member (SortedSet.mem_erase.mp both).2⟩

/-- A batch without a conflict names no id on both sides, and none that stays on the other side. -/
theorem conflictOf_eq_none_iff {a : Adjudication} :
    f.conflictOf a = none ↔ (∀ id ∈ a.positives, id ∉ a.negatives) ∧
      (∀ id ∈ a.positives, id ∈ f.negatives → id ∈ a.noLongerNegative) ∧
        ∀ id ∈ a.negatives, id ∈ f.positives → id ∈ a.noLongerPositive := by
  simp [conflictOf, Option.orElse_eq_or, Option.or_eq_none_iff, List.find?_eq_none]

theorem adjudicate_revised {a : Adjudication} (applied : f.adjudicate a = .ok g) : f.Revised g := by
  unfold adjudicate at applied
  split at applied
  · cases applied
  · rename_i none
    cases applied
    obtain ⟨apart, positives, negatives⟩ := conflictOf_eq_none_iff.mp none
    refine ⟨rfl, rfl, rfl, fun disjoint x member both => ?_⟩
    rcases SortedSet.mem_insertMany.mp member with fresh | old
    · rcases SortedSet.mem_insertMany.mp both with fresh' | old'
      · exact apart x fresh fresh'
      · obtain ⟨stays, was⟩ := SortedSet.mem_eraseMany.mp old'
        exact stays (positives x fresh was)
    · obtain ⟨stays, was⟩ := SortedSet.mem_eraseMany.mp old
      rcases SortedSet.mem_insertMany.mp both with fresh' | old'
      · exact stays (negatives x fresh' was)
      · exact disjoint x was (SortedSet.mem_eraseMany.mp old').2

end Feedback

namespace Session
variable {x y : Session}

/-- A seed is there from seeding to the end, before it there is nothing to rank, and a session that
is over has forgotten everything. -/
structure Consistent (x : Session) : Prop where
  disjoint : x.feedback.Disjoint
  seeded : x.feedback.seed.isSome = true ↔ x.phase = .initialized ∨ x.phase = .refining
  created : x.phase = .created → x.feedback.pool = ∅ ∧ x.feedback.ranking = []
  ended : x.phase.isTerminal = true → x.feedback = .empty

theorem consistent_of_empty (nothing : x.feedback = .empty)
    (unseeded : x.phase = .created ∨ x.phase.isTerminal = true) : x.Consistent := by
  refine ⟨?_, ?_, ?_, fun _ => nothing⟩
  · intro id member
    rw [nothing] at member
    exact absurd member (SortedSet.not_mem_empty id)
  · rw [nothing]
    rcases unseeded with phase | final
    · simp [Feedback.empty, phase]
    · cases phase : x.phase <;> simp_all [Feedback.empty, Phase.isTerminal]
  · intro _
    rw [nothing]
    exact ⟨rfl, rfl⟩

/-- Sessions that differ at most in the count of their calls and the time of their last access. -/
structure Still (before after : Session) : Prop where
  phase : after.phase = before.phase
  feedback : after.feedback = before.feedback
  resets : after.resets = before.resets

/-- What an operation does to a session, but for the count of its calls and its last access. -/
inductive Turn (before after : Session) : Prop where
  | still (same : Still before after)
  | seeded {query : Descriptor} {ranking : List Scored}
      (fresh : before.phase = .created)
      (phase : after.phase = .initialized)
      (feedback : after.feedback = before.feedback.seeded query ranking)
      (resets : after.resets = before.resets)
  | revised
      (live : before.phase.isTerminal = false)
      (phase : after.phase = before.phase)
      (feedback : before.feedback.Revised after.feedback)
      (resets : after.resets = before.resets)
  | reranked {pool : List Key} {ranking : List Scored}
      (seeded : before.phase = .initialized ∨ before.phase = .refining)
      (phase : after.phase = .refining)
      (feedback : after.feedback = before.feedback.reranked pool ranking)
      (resets : after.resets = before.resets)
  | reset
      (live : before.phase.isTerminal = false)
      (phase : after.phase = .created)
      (feedback : after.feedback = .empty)
      (resets : after.resets = before.resets + 1)
  | ended
      (live : before.phase.isTerminal = false)
      (phase : after.phase.isTerminal = true)
      (feedback : after.feedback = .empty)
      (resets : after.resets = before.resets)

theorem Turn.consistent (turn : Turn x y) (consistent : x.Consistent) : y.Consistent := by
  cases turn with
  | still same =>
    obtain ⟨phase, feedback, _⟩ := same
    refine ⟨?_, ?_, ?_, ?_⟩
    · rw [feedback]
      exact consistent.disjoint
    · rw [feedback, phase]
      exact consistent.seeded
    · rw [feedback, phase]
      exact consistent.created
    · rw [feedback, phase]
      exact consistent.ended
  | seeded fresh phase feedback resets =>
    refine ⟨?_, ?_, ?_, ?_⟩
    · rw [feedback]
      exact consistent.disjoint
    · simp [feedback, phase, Feedback.seeded]
    · simp [phase]
    · simp [phase, Phase.isTerminal]
  | revised live phase feedback resets =>
    refine ⟨feedback.disjoint consistent.disjoint, ?_, ?_, ?_⟩
    · rw [feedback.seed, phase]
      exact consistent.seeded
    · rw [feedback.pool, feedback.ranking, phase]
      exact consistent.created
    · intro final
      rw [phase, live] at final
      cases final
  | reranked seeded phase feedback resets =>
    refine ⟨?_, ?_, ?_, ?_⟩
    · rw [feedback]
      exact consistent.disjoint
    · have kept : y.feedback.seed = x.feedback.seed := by rw [feedback]; rfl
      rw [kept, phase]
      exact iff_of_true (consistent.seeded.mpr seeded) (.inr rfl)
    · simp [phase]
    · simp [phase, Phase.isTerminal]
  | reset live phase feedback resets => exact consistent_of_empty feedback (.inl phase)
  | ended live phase feedback resets => exact consistent_of_empty feedback (.inr phase)

theorem Turn.resets_le (turn : Turn x y) : x.resets ≤ y.resets := by
  cases turn with
  | still same => exact Nat.le_of_eq same.resets.symm
  | seeded _ _ _ resets => exact Nat.le_of_eq resets.symm
  | revised _ _ _ resets => exact Nat.le_of_eq resets.symm
  | reranked _ _ _ resets => exact Nat.le_of_eq resets.symm
  | reset _ _ _ resets => exact resets ▸ Nat.le_succ x.resets
  | ended _ _ _ resets => exact Nat.le_of_eq resets.symm

/-- A session that is over takes no turn. -/
theorem Turn.still_of_terminal (turn : Turn x y) (final : x.phase.isTerminal = true) : Still x y := by
  have impossible (live : x.phase.isTerminal = false) : Still x y := by
    rw [live] at final
    cases final
  cases turn with
  | still same => exact same
  | seeded fresh _ _ _ => rw [fresh] at final; cases final
  | revised live _ _ _ => exact impossible live
  | reranked seeded _ _ _ =>
    rcases seeded with phase | phase
    · exact impossible (phase ▸ rfl)
    · exact impossible (phase ▸ rfl)
  | reset live _ _ _ => exact impossible live
  | ended live _ _ _ => exact impossible live

/-- What holds of a session however many turns later. -/
structure Later (before after : Session) : Prop where
  resets : before.resets ≤ after.resets
  ended : before.phase.isTerminal = true → after.phase = before.phase

theorem Later.refl (x : Session) : Later x x := ⟨Nat.le_refl _, fun _ => rfl⟩

theorem Later.trans {z : Session} (first : Later x y) (second : Later y z) : Later x z := by
  refine ⟨Nat.le_trans first.resets second.resets, fun final => ?_⟩
  have same := first.ended final
  exact (second.ended (same ▸ final)).trans same

theorem Turn.later (turn : Turn x y) : Later x y :=
  ⟨turn.resets_le, fun final => (turn.still_of_terminal final).phase⟩

/-- A session that is as if new was so before, unless it was reset. -/
theorem Turn.created_of_created (turn : Turn x y) (resets : y.resets = x.resets)
    (created : y.phase = .created) : x.phase = .created := by
  cases turn with
  | still same => exact same.phase.symm.trans created
  | seeded fresh _ _ _ => exact fresh
  | revised _ phase _ _ => exact phase.symm.trans created
  | reranked _ phase _ _ => rw [phase] at created; cases created
  | reset _ _ _ counted =>
    exact absurd (resets.symm.trans counted) (Nat.ne_of_lt (Nat.lt_succ_self _))
  | ended _ phase _ _ => rw [created] at phase; cases phase

/-- Counting calls and noting accesses around a turn makes no other turn of it. -/
theorem Turn.between {x' y' : Session} (turn : Turn x' y') (before : Still x x')
    (after : Still y' y) : Turn x y := by
  obtain ⟨phase, feedback, resets⟩ := before
  obtain ⟨phase', feedback', resets'⟩ := after
  cases turn with
  | still same =>
    exact .still ⟨phase'.trans (same.phase.trans phase),
      feedback'.trans (same.feedback.trans feedback), resets'.trans (same.resets.trans resets)⟩
  | seeded fresh seeded learned kept =>
    exact .seeded (phase ▸ fresh) (phase'.trans seeded) (feedback ▸ feedback'.trans learned)
      (resets'.trans (kept.trans resets))
  | revised live stays learned kept =>
    exact .revised (phase ▸ live) (phase'.trans (stays.trans phase))
      (feedback ▸ feedback'.symm ▸ learned) (resets'.trans (kept.trans resets))
  | reranked seeded refined learned kept =>
    exact .reranked (phase ▸ seeded) (phase'.trans refined) (feedback ▸ feedback'.trans learned)
      (resets'.trans (kept.trans resets))
  | reset live fresh learned counted =>
    exact .reset (phase ▸ live) (phase'.trans fresh) (feedback'.trans learned)
      (resets ▸ resets'.trans counted)
  | ended live final learned kept =>
    exact .ended (phase ▸ live) (phase' ▸ final) (feedback'.trans learned)
      (resets'.trans (kept.trans resets))

/-- A call in a wrong phase is refused for its phase. -/
theorem require_error {call : PhasedCall} {e : Error} (refused : x.require call = .error e) :
    e = .sessionUnavailable x.id x.phase ∨ e = .invalidState (.wrongPhase call x.id x.phase) := by
  unfold require at refused
  split at refused
  · cases refused
  · cases refused
  · cases refused
  · split at refused
    · exact .inl (Except.error.inj refused).symm
    · exact .inr (Except.error.inj refused).symm

/-- What a session is created with and keeps. -/
structure Profile where
  id : String
  createdAt : Nat
  settings : SessionSettings
  index : Ref
  ranker : Ranker
  resultLabel : Option String

def profile (x : Session) : Profile :=
  ⟨x.id, x.createdAt, x.settings, x.index, x.ranker, x.resultLabel⟩

/-- A turn that leaves the count of calls alone. -/
structure Change (before after : Session) : Prop where
  turn : Turn before after
  busy : after.busy = before.busy
  profile : after.profile = before.profile

/-- A change that does not end the session. -/
structure Progress (before after : Session) : Prop extends Change before after where
  lasts : after.phase.isTerminal = before.phase.isTerminal

theorem Change.refl (x : Session) : Change x x := ⟨.still ⟨rfl, rfl, rfl⟩, rfl, rfl⟩

theorem Progress.refl (x : Session) : Progress x x := ⟨.refl x, rfl⟩

/-- What comes of a call: a turn that does not end the session, and the access is noted. -/
structure Served (now : Nat) (before after : Session) : Prop where
  turn : Turn before after
  profile : after.profile = before.profile
  lasts : after.phase.isTerminal = before.phase.isTerminal
  noted : before.phase.isTerminal = false → after.lastAccess = now

/-- A session that is over is not served, and stays as it is. -/
theorem served_of_terminal (final : x.phase.isTerminal = true) (now : Nat) : Served now x x := by
  refine ⟨.still ⟨rfl, rfl, rfl⟩, rfl, rfl, fun live => ?_⟩
  rw [final] at live
  cases live

theorem require_seed_ok (allowed : x.require .seed = .ok ()) : x.phase = .created := by
  unfold require at allowed
  cases phase : x.phase <;> simp [phase, Phase.isTerminal] at allowed ⊢

theorem require_refine_ok_iff :
    x.require .refine = .ok () ↔ x.phase = .initialized ∨ x.phase = .refining := by
  unfold require
  cases phase : x.phase <;> simp [Phase.isTerminal]

theorem terminate_change (x : Session) {phase : Phase} (final : phase.isTerminal = true) :
    Change x (x.terminate phase) := by
  unfold terminate
  split
  · exact ⟨.still ⟨rfl, rfl, rfl⟩, rfl, rfl⟩
  · rename_i live
    exact ⟨.ended (Bool.eq_false_iff.mpr live) final rfl rfl, rfl, rfl⟩

end Session
end Retrieval
