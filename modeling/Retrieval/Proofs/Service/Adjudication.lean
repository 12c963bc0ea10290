import Retrieval.Proofs.Service.Phases
import Retrieval.Proofs.Traversal

/-!
What a batch of changes to the examples comes to. A batch can be applied if its new examples are
indexed and it would leave no id an example of both kinds (`Feedback.Adjudicated.ok_iff`); three
looks at the lists of the batch tell that, whatever ids they share and repeat
(`Feedback.conflictOf_eq_none_iff_apart`). A batch that cannot be applied leaves all examples as
they are, unless the session is over already (`Service.adjudicated_of_found`).
-/
namespace Retrieval

namespace Adjudication
variable (a : Adjudication) (before : Feedback) (id : String)

/-- The id is to be a positive example: it becomes one, or it was one and does not cease to be. -/
def Positive : Prop := (id ∈ before.positives ∧ id ∉ a.noLongerPositive) ∨ id ∈ a.positives

/-- The id is to be a negative example: it becomes one, or it was one and does not cease to be. -/
def Negative : Prop := (id ∈ before.negatives ∧ id ∉ a.noLongerNegative) ∨ id ∈ a.negatives

/-- No id is to be an example of both kinds. -/
def Apart : Prop := ∀ id, ¬ (a.Positive before id ∧ a.Negative before id)

end Adjudication

namespace Feedback
variable {f g : Feedback} {a : Adjudication} {id : String}

/-- The id that a conflict names would be an example of both kinds. -/
theorem of_conflictOf (conflict : f.conflictOf a = some id) :
    a.Positive f id ∧ a.Negative f id := by
  simp only [conflictOf, HOrElse.hOrElse, OrElse.orElse, Option.orElse_eq_or,
    Option.or_eq_some_iff] at conflict
  rcases conflict with both | ⟨_, stays | ⟨_, stays⟩⟩
  · have negative := List.find?_some both
    exact ⟨.inr (List.mem_of_find?_eq_some both), .inr (by simpa using negative)⟩
  · have negative := List.find?_some stays
    exact ⟨.inr (List.mem_of_find?_eq_some stays), .inl (by simpa using negative)⟩
  · have positive := List.find?_some stays
    exact ⟨.inl (by simpa using positive), .inr (List.mem_of_find?_eq_some stays)⟩

/-- There is no conflict exactly if the batch would keep the examples apart. -/
theorem conflictOf_eq_none_iff_apart (disjoint : f.Disjoint) :
    f.conflictOf a = none ↔ a.Apart f := by
  constructor
  · intro none
    obtain ⟨apart, positives, negatives⟩ := conflictOf_eq_none_iff.mp none
    rintro id ⟨⟨was, stays⟩ | becomes, ⟨was', stays'⟩ | becomes'⟩
    · exact disjoint id was was'
    · exact stays (negatives id becomes' was)
    · exact stays' (positives id becomes was')
    · exact apart id becomes becomes'
  · intro apart
    cases conflict : f.conflictOf a with
    | none => rfl
    | some id => exact absurd (of_conflictOf conflict) (apart id)

/-- What comes of a batch, `indexed` being the ids that can be examples: it is applied, or an id is
the reason why all examples stay as they are. An id that is not indexed comes before a conflict. -/
inductive Adjudicated (indexed : String → Prop) (before : Feedback) (a : Adjudication) :
    Except Error Unit → Feedback → Prop where
  | applied {after : Feedback}
      (known : ∀ id ∈ a.positives ++ a.negatives, indexed id)
      (apart : a.Apart before)
      (positives : ∀ id, id ∈ after.positives ↔ a.Positive before id)
      (negatives : ∀ id, id ∈ after.negatives ↔ a.Negative before id)
      (rest : after = { before with positives := after.positives, negatives := after.negatives }) :
      Adjudicated indexed before a (.ok ()) after
  | unknown {first rest : List String} {id : String}
      (split : a.positives ++ a.negatives = first ++ id :: rest)
      (known : ∀ other ∈ first, indexed other)
      (missing : ¬ indexed id) :
      Adjudicated indexed before a (.error (.notFound indexSpace id)) before
  | conflict {id : String}
      (known : ∀ id ∈ a.positives ++ a.negatives, indexed id)
      (positive : a.Positive before id)
      (negative : a.Negative before id) :
      Adjudicated indexed before a (.error (.conflict id)) before

theorem Adjudicated.ok_iff {indexed : String → Prop} {answer : Except Error Unit}
    (adjudicated : Adjudicated indexed f a answer g) :
    answer = .ok () ↔ (∀ id ∈ a.positives ++ a.negatives, indexed id) ∧ a.Apart f := by
  cases adjudicated with
  | applied known apart => exact iff_of_true rfl ⟨known, apart⟩
  | @unknown _ _ id split _ missing =>
    refine iff_of_false nofun fun both => missing (both.1 id ?_)
    rw [split]
    exact List.mem_append_right _ List.mem_cons_self
  | @conflict id _ positive negative =>
    exact iff_of_false nofun fun both => both.2 id ⟨positive, negative⟩

/-- Feedback that was changed in answer to a batch, or stayed. -/
theorem adjudicated_of_known {indexed : String → Prop} (disjoint : f.Disjoint)
    (known : ∀ id ∈ a.positives ++ a.negatives, indexed id) :
    Adjudicated indexed f a ((f.adjudicate a).map fun _ => ())
      ((f.adjudicate a).toOption.getD f) := by
  unfold adjudicate
  cases conflict : f.conflictOf a with
  | none =>
    refine .applied known ((conflictOf_eq_none_iff_apart disjoint).mp conflict) ?_ ?_ rfl
    · intro id
      simp [Except.toOption, Adjudication.Positive, or_comm, and_comm]
    · intro id
      simp [Except.toOption, Adjudication.Negative, or_comm, and_comm]
  | some id =>
    obtain ⟨positive, negative⟩ := of_conflictOf conflict
    exact .conflict known positive negative

end Feedback

namespace Service
variable {s : Service} {ref : Ref} {x : Session}

theorem requireIndexed_ok_iff {id : String} :
    s.requireIndexed x id = .ok () ↔ s.isIndexed x.index id = true := by
  unfold requireIndexed
  split
  · rename_i indexed
    exact iff_of_true rfl indexed
  · rename_i missing
    exact iff_of_false nofun missing

theorem requireIndexed_error_iff {id : String} {e : Error} :
    s.requireIndexed x id = .error e ↔
      ¬ s.isIndexed x.index id = true ∧ e = .notFound indexSpace id := by
  unfold requireIndexed
  split
  · rename_i indexed
    exact iff_of_false nofun fun refused => refused.1 indexed
  · rename_i missing
    simp only [missing, Except.error.injEq, Bool.false_eq_true, not_false_eq_true, true_and]
    exact eq_comm

/-- A revision of a session that is not over. -/
theorem revise_live (found : s.sessions.get? ref = some x) (live : x.phase.isTerminal = false)
    (change : Service → Session → Except Error Feedback) :
    (s.revise ref change).2 =
        (change (s.putSession ref (x.begun s.now)) (x.begun s.now)).map (fun _ => ()) ∧
      ∃ y, (s.revise ref change).1.sessions.get? ref = some y ∧ y.feedback =
        (change (s.putSession ref (x.begun s.now)) (x.begun s.now)).toOption.getD x.feedback := by
  have here : (s.putSession ref (x.begun s.now)).sessions.get? ref = some (x.begun s.now) :=
    SortedMap.get?_insert_self _ _ _
  have entered : s.enter ref = .ok (s.putSession ref (x.begun s.now)) := by
    simp only [enter, found, Session.enter, live]
    rfl
  simp only [revise, call, entered, here]
  cases change (s.putSession ref (x.begun s.now)) (x.begun s.now) with
  | error e => exact ⟨rfl, _, get?_leave here, rfl⟩
  | ok feedback => exact ⟨rfl, _, get?_leave (SortedMap.get?_insert_self _ _ _), rfl⟩

/-- A batch of changes on any session whose examples are apart. A session that is over answers that
it is unavailable and nothing changes. Otherwise the batch is applied exactly if all new examples are
indexed and it would keep the examples apart. Then the examples are those that the batch names and
the old ones that it does not take away; else they are as before, and the error is the first new
example that is not indexed, positive ones first, or an id that would be an example of both kinds. -/
theorem adjudicated_of_found (found : s.sessions.get? ref = some x) (disjoint : x.feedback.Disjoint)
    (a : Adjudication) :
    (x.phase.isTerminal = true →
      s.adjudicate ref a = (s, .error (.sessionUnavailable x.id x.phase))) ∧
    (x.phase.isTerminal = false →
      ((s.adjudicate ref a).2 = .ok () ↔
        (∀ id ∈ a.positives ++ a.negatives, s.isIndexed x.index id = true) ∧ a.Apart x.feedback) ∧
      ∃ y, (s.adjudicate ref a).1.sessions.get? ref = some y ∧
        x.feedback.Adjudicated (fun id => s.isIndexed x.index id = true) a (s.adjudicate ref a).2
          y.feedback) := by
  refine ⟨fun final => call_refused found final _, fun live => ?_⟩
  obtain ⟨answer, y, there, after⟩ := revise_live found live fun s session => do
    (a.positives ++ a.negatives).forM (s.requireIndexed session)
    session.feedback.adjudicate a
  -- Beginning the call changes neither the examples nor what is indexed.
  have adjudicated : x.feedback.Adjudicated (fun id => s.isIndexed x.index id = true) a
      (s.adjudicate ref a).2 y.feedback := by
    rw [after]
    unfold adjudicate
    rw [answer]
    cases checked : (a.positives ++ a.negatives).forM
        ((s.putSession ref (x.begun s.now)).requireIndexed (x.begun s.now)) with
    | ok _ =>
      refine Feedback.adjudicated_of_known disjoint fun id member => ?_
      exact requireIndexed_ok_iff.mp (forM_ok_iff.mp checked id member)
    | error e =>
      obtain ⟨first, id, rest, split, known, refused⟩ := forM_error_iff.mp checked
      obtain ⟨missing, rfl⟩ := requireIndexed_error_iff.mp refused
      exact .unknown split (fun other member => requireIndexed_ok_iff.mp (known other member)) missing
  exact ⟨adjudicated.ok_iff, y, there, adjudicated⟩

/-- Two examples change sides in one batch, in which ids are repeated. -/
theorem adjudicated_of_found_swap :
    let files : FileTree := ⟨default, 0⟩
    let made := Index.unbuilt Hasher.sign 1
    let call : IndexCall := .update (fun _ => .ok [⟨0x3f800000⟩]) [⟨"kind", "a"⟩, ⟨"kind", "b"⟩]
    let earlier : List Operation :=
      [.elsewhere files (.memory ∅) (.memory ∅) (.ofList [(0, (made.run [call]).1)]),
        .startAlone "s" default 0 ⟨fun _ _ _ => .ok []⟩ none, .addPositive 0 "a", .addNegative 0 "b"]
    let s := ((World.fresh files (.memory ∅) (.memory ∅) default none).run earlier).service
    let a : Adjudication := ⟨["b", "b"], ["a"], ["a", "b"], ["b"]⟩
    ∃ x, (s.sessions.get? 0 = some x ∧ x.feedback.Disjoint) ∧
      (x.feedback.positives = .ofList ["a"] ∧ x.feedback.negatives = .ofList ["b"]) ∧
      (x.phase.isTerminal = true →
        s.adjudicate 0 a = (s, .error (.sessionUnavailable x.id x.phase))) ∧
      (x.phase.isTerminal = false →
        ((s.adjudicate 0 a).2 = .ok () ↔
          (∀ id ∈ a.positives ++ a.negatives, s.isIndexed x.index id = true) ∧
            a.Apart x.feedback) ∧
        ∃ y, (s.adjudicate 0 a).1.sessions.get? 0 = some y ∧
          x.feedback.Adjudicated (fun id => s.isIndexed x.index id = true) a (s.adjudicate 0 a).2
            y.feedback) := by
  intro files made call earlier s a
  have there : (s.sessions.get? 0).map (fun x => (x.feedback.positives, x.feedback.negatives)) =
      some (.ofList ["a"], .ofList ["b"]) := by decide +kernel
  obtain ⟨x, found, told⟩ := Option.map_eq_some_iff.mp there
  rw [Prod.mk.injEq] at told
  have sound := World.run_sound
    (World.fresh_sound files (.memory ∅) (.memory ∅) default none) earlier
  have disjoint := (sound.consistent 0 x found).disjoint
  exact ⟨x, ⟨found, disjoint⟩, told, adjudicated_of_found found disjoint a⟩

/-- That the examples would stay apart is not enough: no batch is applied to a closed session. -/
theorem not_adjudicated_of_closed :
    ¬ ∀ (s : Service) (ref : Ref) (x : Session) (a : Adjudication),
      s.sessions.get? ref = some x → x.feedback.Disjoint →
      ((s.adjudicate ref a).2 = .ok () ↔
        (∀ id ∈ a.positives ++ a.negatives, s.isIndexed x.index id = true) ∧
          a.Apart x.feedback) := by
  intro always
  let s := ((World.fresh ⟨default, 0⟩ (.memory ∅) (.memory ∅) default none).run
    [.openSession "s" 0 ⟨fun _ _ _ => .ok []⟩, .close "s"]).service
  let a : Adjudication := ⟨[], [], [], []⟩
  have there : (s.sessions.get? 0).map (fun x => (x.phase, x.feedback.positives)) =
      some (.closed, ∅) := by decide +kernel
  obtain ⟨x, found, told⟩ := Option.map_eq_some_iff.mp there
  rw [Prod.mk.injEq] at told
  have nothing (id : String) : id ∉ x.feedback.positives := by
    rw [told.2]
    exact SortedSet.not_mem_empty id
  have refused : (s.adjudicate 0 a).2 = .error (.sessionUnavailable x.id x.phase) := by
    rw [adjudicate, revise, call_refused found (by rw [told.1]; rfl)]
  have applied := (always s 0 x a found fun id member => absurd member (nothing id)).mpr
    ⟨by simp [a], fun id both => by simpa [a, Adjudication.Positive, nothing] using both.1⟩
  rw [refused] at applied
  cases applied

end Service
end Retrieval
