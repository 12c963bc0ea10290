import Retrieval.Proofs.Index.Nearest
import Retrieval.Proofs.Service.Idle

/-!
A call that is under way makes no difference to the others: services that differ in how one session
is called, and in what indexes have counted, stay so whatever is performed on both
(`World.perform_alike`), but that a session which is called is not expired.
-/
namespace Retrieval

/-- Whether an operation is an end of a refinement. -/
def Operation.isRefinement : Operation → Bool
  | .beginRefine .. | .endRefine .. => true
  | _ => false

namespace Index
variable {ix : Index}

/-- An index but for its metrics. -/
def unmetered (ix : Index) : Index := { ix with metrics := none }

/-- A query changes nothing but the metrics. -/
theorem nearest_unmetered {read : ReadVector} {query : Descriptor} {n : Nat}
    {found : List Neighbor} {after : Index}
    (answered : ix.nearest read query n = .ok (found, after)) :
    after.unmetered = ix.unmetered := by
  unfold nearest at answered
  cases hashed : ix.hasher.hash query with
  | error e =>
    rw [hashed] at answered
    cases answered
  | ok code =>
    simp only [hashed, bind, Except.bind] at answered
    split at answered
    · split at answered
      · cases answered
      · cases answered
        rfl
    · cases answered
      rfl

/-- The metrics have no part in the answer to a query. -/
theorem unmetered_nearest (ix : Index) (read : ReadVector) (query : Descriptor) (n : Nat) :
    (ix.unmetered.nearest read query n).map (·.1) = (ix.nearest read query n).map (·.1) := by
  cases hashed : ix.hasher.hash query with
  | error e =>
    have hashed' : ix.unmetered.hasher.hash query = .error e := hashed
    simp only [nearest, hashed, hashed']
    rfl
  | ok code =>
    have hashed' : ix.unmetered.hasher.hash query = .ok code := hashed
    by_cases asked : 0 < n ∧ 0 < ix.count
    · have some_id : 0 < ix.unmetered.count := asked.2
      exact (nearest_probed hashed' asked.1 some_id).trans (nearest_probed hashed asked.1 asked.2).symm
    · have nothing : n = 0 ∨ ix.count = 0 := by omega
      have nothing' : n = 0 ∨ ix.unmetered.count = 0 := nothing
      rw [nearest_nothing hashed nothing, nearest_nothing hashed' nothing']

end Index

namespace Session
variable {x y : Session}

/-- A session but for its calls. -/
def atRest (x : Session) : Session := { x with busy := 0, lastAccess := 0 }

theorem enter_eq (x : Session) (now : Nat) : x.enter now =
    if x.phase.isTerminal then .error (.sessionUnavailable x.id x.phase) else .ok (x.begun now) := rfl

theorem terminate_atRest (x : Session) (phase : Phase) :
    (x.terminate phase).atRest = x.atRest.terminate phase := by
  have same : x.atRest.phase.isTerminal = x.phase.isTerminal := rfl
  unfold terminate
  rw [same]
  split <;> rfl

/-- The session at `ref` but for its calls, and any other session as it is. -/
def blur (ref place : Ref) (x : Session) : Session := if place = ref then x.atRest else x

variable {ref place : Ref}

theorem atRest_of_blur (same : y.blur ref place = x.blur ref place) : y.atRest = x.atRest := by
  unfold blur at same
  split at same
  · exact same
  · exact congrArg atRest same

theorem blur_of_change (change : Session → Session) (same : y.blur ref place = x.blur ref place)
    (kept : y.atRest = x.atRest → (change y).atRest = (change x).atRest) :
    (change y).blur ref place = (change x).blur ref place := by
  unfold blur at same ⊢
  by_cases here : place = ref
  · rw [if_pos here, if_pos here] at same ⊢
    exact kept same
  · rw [if_neg here, if_neg here] at same ⊢
    exact congrArg change same

theorem still_of_atRest (rest : y.atRest = x.atRest) : Still x y :=
  ⟨(congrArg Session.phase rest : y.atRest.phase = x.atRest.phase),
    (congrArg Session.feedback rest : y.atRest.feedback = x.atRest.feedback),
    (congrArg Session.resets rest : y.atRest.resets = x.atRest.resets)⟩

theorem profile_of_atRest (rest : y.atRest = x.atRest) : y.profile = x.profile :=
  (congrArg Session.profile rest : y.atRest.profile = x.atRest.profile)

end Session

namespace Service
open Session
variable {α : Type} {ref place : Ref} {s s' t t' : Service} {x y : Session}

/-- Services that are the same but for how the session at `ref` is called and for what indexes have
counted. -/
structure Alike (ref : Ref) (s t : Service) : Prop where
  now : t.now = s.now
  files : t.files = s.files
  descriptors : t.descriptors = s.descriptors
  results : t.results = s.results
  registry : t.registry = s.registry
  indexes : ∀ place,
    (t.indexes.get? place).map Index.unmetered = (s.indexes.get? place).map Index.unmetered
  sessions : ∀ place,
    (t.sessions.get? place).map (blur ref place) = (s.sessions.get? place).map (blur ref place)

namespace Alike

theorem refl (ref : Ref) (s : Service) : Alike ref s s :=
  ⟨rfl, rfl, rfl, rfl, rfl, fun _ => rfl, fun _ => rfl⟩

theorem trans {u : Service} (first : Alike ref s t) (second : Alike ref t u) : Alike ref s u where
  now := second.now.trans first.now
  files := second.files.trans first.files
  descriptors := second.descriptors.trans first.descriptors
  results := second.results.trans first.results
  registry := second.registry.trans first.registry
  indexes := fun place => (second.indexes place).trans (first.indexes place)
  sessions := fun place => (second.sessions place).trans (first.sessions place)

theorem exists_session (alike : Alike ref s t) (found : s.sessions.get? place = some x) :
    ∃ y, t.sessions.get? place = some y ∧ y.blur ref place = x.blur ref place := by
  have same := alike.sessions place
  rw [found] at same
  exact Option.map_eq_some_iff.mp same

theorem no_session (alike : Alike ref s t) (missing : s.sessions.get? place = none) :
    t.sessions.get? place = none := by
  have same := alike.sessions place
  rw [missing] at same
  exact Option.map_eq_none_iff.mp same

theorem size (alike : Alike ref s t) : t.sessions.size = s.sessions.size := by
  have keys : t.sessions.keys = s.sessions.keys := by
    apply SortedMap.keys_eq_of_ascending s.sessions.keys_ascending
    intro place
    rw [SortedMap.mem_keys, SortedMap.contains, SortedMap.contains]
    cases found : s.sessions.get? place with
    | none => rw [alike.no_session found]
    | some x =>
      obtain ⟨y, found', _⟩ := alike.exists_session found
      rw [found']
      rfl
  rw [← SortedMap.length_keys, keys, SortedMap.length_keys]

theorem put (alike : Alike ref s t) (same : y.blur ref place = x.blur ref place) :
    Alike ref (s.putSession place x) (t.putSession place y) := by
  refine { alike with sessions := fun other => ?_ }
  show ((t.sessions.insert place y).get? other).map _ = ((s.sessions.insert place x).get? other).map _
  by_cases here : other = place
  · rw [here, SortedMap.get?_insert_self, SortedMap.get?_insert_self]
    exact congrArg some same
  · rw [SortedMap.get?_insert_of_ne here, SortedMap.get?_insert_of_ne here]
    exact alike.sessions other

/-- Putting a session in its place again that differs in its calls. -/
theorem put_self (found : s.sessions.get? ref = some x) (same : y.atRest = x.atRest) :
    Alike ref s (s.putSession ref y) := by
  refine { refl ref s with sessions := fun other => ?_ }
  show ((s.sessions.insert ref y).get? other).map _ = _
  by_cases here : other = ref
  · rw [here, SortedMap.get?_insert_self, found, Option.map_some, Option.map_some]
    simp only [blur, if_true, same]
  · rw [SortedMap.get?_insert_of_ne here]

theorem leave_self (s : Service) (ref : Ref) : Alike ref s (s.leave ref) := by
  unfold Service.leave
  cases found : s.sessions.get? ref with
  | none => exact refl ref s
  | some x => exact put_self found rfl

theorem vector (alike : Alike ref s t) : t.vector = s.vector := by
  unfold Service.vector descriptorShelf
  rw [alike.descriptors, alike.files]

theorem isIndexed (alike : Alike ref s t) (place : Ref) (id : String) :
    t.isIndexed place id = s.isIndexed place id := by
  have indexed (s : Service) : s.isIndexed place id =
      ((s.indexes.get? place).map Index.unmetered).any (·.contains id) := by
    unfold Service.isIndexed
    cases s.indexes.get? place <;> rfl
  rw [indexed, indexed, alike.indexes]

theorem enter (alike : Alike ref s t) (place : Ref) :
    (∃ e, s.enter place = .error e ∧ t.enter place = .error e) ∨
      ∃ s' t', s.enter place = .ok s' ∧ t.enter place = .ok t' ∧ Alike ref s' t' := by
  unfold Service.enter
  cases found : s.sessions.get? place with
  | none => exact .inl ⟨_, rfl, by rw [alike.no_session found]⟩
  | some x =>
    obtain ⟨y, found', same⟩ := alike.exists_session found
    have phase := (still_of_atRest (atRest_of_blur same)).phase
    have id : y.id = x.id := congrArg Profile.id (profile_of_atRest (atRest_of_blur same))
    rw [found']
    dsimp only
    rw [enter_eq, enter_eq, id, phase, alike.now]
    split
    · exact .inl ⟨_, rfl, rfl⟩
    · exact .inr ⟨_, _, rfl, rfl, alike.put (blur_of_change (·.begun s.now) same fun rest => rest)⟩

theorem leave (alike : Alike ref s t) (place : Ref) :
    Alike ref (s.leave place) (t.leave place) := by
  unfold Service.leave
  cases found : s.sessions.get? place with
  | none =>
    rw [alike.no_session found]
    exact alike
  | some x =>
    obtain ⟨y, found', same⟩ := alike.exists_session found
    rw [found', alike.now]
    exact alike.put (blur_of_change (·.leave s.now) same fun rest => rest)

theorem symm (alike : Alike ref s t) : Alike ref t s where
  now := alike.now.symm
  files := alike.files.symm
  descriptors := alike.descriptors.symm
  results := alike.results.symm
  registry := alike.registry.symm
  indexes := fun place => (alike.indexes place).symm
  sessions := fun place => (alike.sessions place).symm

theorem onIndex_self (ref : Ref) (s : Service) (index : Ref)
    {change : Index → Index × Except Error α}
    (counts : ∀ ix, (change ix).1.unmetered = ix.unmetered) :
    Alike ref s (s.onIndex index change).1 := by
  unfold onIndex
  cases found : s.indexes.get? index with
  | none => exact refl ref s
  | some ix =>
    refine { refl ref s with indexes := fun other => ?_ }
    show ((s.indexes.insert index (change ix).1).get? other).map _ = _
    by_cases here : other = index
    · rw [here, SortedMap.get?_insert_self, found]
      exact congrArg some (counts ix)
    · rw [SortedMap.get?_insert_of_ne here]

/-- A query is only counted. -/
theorem nearest_self (ref : Ref) (s : Service) (index : Ref) (query : Descriptor) (n : Nat) :
    Alike ref s (s.nearest index query n).1 := by
  refine onIndex_self ref s index fun ix => ?_
  cases answered : ix.nearest s.vector query n with
  | error e => rfl
  | ok answer => exact Index.nearest_unmetered answered

theorem nearest_answer (alike : Alike ref s t) (index : Ref) (query : Descriptor) (n : Nat) :
    (t.nearest index query n).2 = (s.nearest index query n).2 := by
  have answer (s : Service) : (s.nearest index query n).2 =
      ((s.indexes.get? index).map Index.unmetered).elim (.error noIndex)
        fun ix => (ix.nearest s.vector query n).map (·.1) := by
    unfold Service.nearest onIndex
    cases s.indexes.get? index with
    | none => rfl
    | some ix =>
      rw [Option.map_some, Option.elim_some, Index.unmetered_nearest]
      dsimp only
      cases ix.nearest s.vector query n <;> rfl
  rw [answer, answer, alike.indexes, alike.vector]

end Alike

/-! Calls -/

/-- Outcomes with the same answer that leave alike services behind. -/
structure Agree (ref : Ref) (first second : Outcome α) : Prop where
  answer : second.2 = first.2
  alike : Alike ref first.1 second.1

namespace Alike

theorem call {body : Service → Session → Outcome α} (alike : Alike ref s t)
    (bodies : ∀ s t x y, Alike ref s t → y.blur ref place = x.blur ref place →
      Agree ref (body s x) (body t y)) : Agree ref (s.call place body) (t.call place body) := by
  unfold Service.call
  rcases alike.enter place with ⟨e, refused, refused'⟩ | ⟨s', t', entered, entered', alike'⟩
  · rw [refused, refused']
    exact ⟨rfl, alike⟩
  · rw [entered, entered']
    dsimp only
    cases found : s'.sessions.get? place with
    | none =>
      rw [alike'.no_session found]
      exact ⟨rfl, alike'⟩
    | some x =>
      obtain ⟨y, found', same⟩ := alike'.exists_session found
      rw [found']
      have agree := bodies s' t' x y alike' same
      exact ⟨agree.answer, agree.alike.leave place⟩

theorem nearest (alike : Alike ref s t) (index : Ref) (query : Descriptor) (n : Nat) :
    Agree ref (s.nearest index query n) (t.nearest index query n) :=
  ⟨alike.nearest_answer index query n, (nearest_self ref s index query n).symm.trans
    (alike.trans (nearest_self ref t index query n))⟩

theorem revise {change : Service → Session → Except Error Feedback} (alike : Alike ref s t)
    (same : ∀ s t x y, Alike ref s t → y.atRest = x.atRest → change t y = change s x) :
    Agree ref (s.revise place change) (t.revise place change) := by
  refine alike.call fun s t x y alike blurred => ?_
  rw [same s t x y alike (atRest_of_blur blurred)]
  cases change s x with
  | error e => exact ⟨rfl, alike⟩
  | ok f =>
    refine ⟨rfl, alike.put (blur_of_change (fun x => { x with feedback := f }) blurred ?_)⟩
    exact fun rest => congrArg (fun x : Session => { x with feedback := f }) rest

theorem consult {look : Feedback → α} {change : Feedback → Feedback} (alike : Alike ref s t) :
    Agree ref (s.consult place look change) (t.consult place look change) := by
  refine alike.call fun s t x y alike blurred => ⟨?_, alike.put (blur_of_change
    (fun x => { x with feedback := change x.feedback }) blurred fun rest => ?_)⟩
  · exact congrArg (fun f => Except.ok (look f)) (still_of_atRest (atRest_of_blur blurred)).feedback
  · exact congrArg (fun x : Session => { x with feedback := change x.feedback }) rest

theorem reset (alike : Alike ref s t) : Agree ref (s.reset place) (t.reset place) :=
  alike.call fun _ _ _ _ alike blurred =>
    ⟨rfl, alike.put (blur_of_change Session.reset blurred fun rest => congrArg Session.reset rest)⟩

theorem requireIndexed (alike : Alike ref s t) (rest : y.atRest = x.atRest) :
    t.requireIndexed y = s.requireIndexed x := by
  have index : y.index = x.index := congrArg Profile.index (profile_of_atRest rest)
  funext id
  unfold Service.requireIndexed
  rw [index, alike.isIndexed]

theorem addPositive (alike : Alike ref s t) (id : String) :
    Agree ref (s.addPositive place id) (t.addPositive place id) :=
  alike.revise fun s t x y alike rest => by
    rw [alike.requireIndexed rest, (still_of_atRest rest).feedback]

theorem addNegative (alike : Alike ref s t) (id : String) :
    Agree ref (s.addNegative place id) (t.addNegative place id) :=
  alike.revise fun s t x y alike rest => by
    rw [alike.requireIndexed rest, (still_of_atRest rest).feedback]

theorem adjudicate (alike : Alike ref s t) (a : Adjudication) :
    Agree ref (s.adjudicate place a) (t.adjudicate place a) :=
  alike.revise fun s t x y alike rest => by
    rw [alike.requireIndexed rest, (still_of_atRest rest).feedback]

theorem seed (alike : Alike ref s t) (query : Key) (n : Nat) :
    Agree ref (s.seed place query n) (t.seed place query n) := by
  refine alike.call fun s t x y alike blurred => ?_
  have rest := atRest_of_blur blurred
  have allowed : y.require .seed = x.require .seed :=
    (congrArg (Session.require · .seed) rest : y.atRest.require .seed = x.atRest.require .seed)
  have index : y.index = x.index := congrArg Profile.index (profile_of_atRest rest)
  have seeded (v : Descriptor) (ranking : List Scored) : Session.blur ref place
      { y with phase := .initialized, feedback := y.feedback.seeded v ranking } = Session.blur ref place
      { x with phase := .initialized, feedback := x.feedback.seeded v ranking } :=
    blur_of_change (fun x => { x with
      phase := .initialized, feedback := x.feedback.seeded v ranking }) blurred
      fun rest => congrArg (fun x : Session => { x with
        phase := .initialized, feedback := x.feedback.seeded v ranking }) rest
  rw [allowed, alike.vector]
  cases x.require .seed with
  | error e => exact ⟨rfl, alike⟩
  | ok _ =>
    cases s.vector query with
    | error e => exact ⟨rfl, alike⟩
    | ok v =>
      have near : Agree ref (s.nearest x.index v n) (t.nearest y.index v n) :=
        index ▸ alike.nearest x.index v n
      dsimp only
      cases first : s.nearest x.index v n with
      | mk s' answer =>
        cases second : t.nearest y.index v n with
        | mk t' answer' =>
          rw [first, second] at near
          obtain ⟨rfl, alike'⟩ := near
          cases answer' with
          | error e => exact ⟨rfl, alike'⟩
          | ok found => exact ⟨rfl, alike'.put (seeded v _)⟩

theorem find (alike : Alike ref s t) (id : String) : Agree ref (s.find id) (t.find id) := by
  unfold Service.find
  rw [alike.registry]
  cases s.registry.live.get? id with
  | none => exact ⟨rfl, alike⟩
  | some place => exact alike.call fun _ _ _ _ alike _ => ⟨rfl, alike⟩

/-! Coming and going -/

theorem add (alike : Alike ref s t) (x : Session) : Alike ref (s.addSession x).1 (t.addSession x).1 := by
  unfold addSession
  rw [alike.size]
  exact alike.put rfl

theorem openSession (alike : Alike ref s t) (id : String) (index : Ref) (ranker : Ranker) :
    Alike ref (s.openSession id index ranker).1 (t.openSession id index ranker).1 := by
  cases taken : s.registry.isTaken id with
  | true =>
    rw [openSession_taken taken, openSession_taken (alike.registry ▸ taken)]
    exact alike
  | false =>
    rw [openSession_free taken, openSession_free (alike.registry ▸ taken), alike.now,
      alike.registry, alike.size]
    exact { alike.add _ with registry := rfl }

theorem evict (alike : Alike ref s t) (id : String) (place : Ref) (phase : Phase) :
    Alike ref (s.evict id place phase) (t.evict id place phase) := by
  unfold Service.evict
  rw [alike.registry]
  cases found : s.sessions.get? place with
  | none =>
    rw [alike.no_session found]
    exact { alike with registry := rfl }
  | some x =>
    obtain ⟨y, found', blurred⟩ := alike.exists_session found
    have rest : (y.terminate phase).atRest = (x.terminate phase).atRest := by
      rw [terminate_atRest, terminate_atRest, atRest_of_blur blurred]
    have ended := alike.put (blur_of_change (·.terminate phase) blurred fun _ => rest)
    rw [found']
    exact { ended with
      registry := congrArg (s.registry.retire id) (still_of_atRest rest).phase }

theorem evictAll (alike : Alike ref s t) (phase : Phase) (entries : List (String × Ref)) :
    Alike ref (s.evictAll phase entries) (t.evictAll phase entries) := by
  induction entries generalizing s t with
  | nil => exact alike
  | cons entry rest ih => exact ih (alike.evict entry.1 entry.2 phase)

theorem close (alike : Alike ref s t) (id : String) : Alike ref (s.close id).1 (t.close id).1 := by
  unfold Service.close
  rw [alike.registry]
  cases s.registry.live.get? id with
  | none => exact alike
  | some place => exact alike.evict id place .closed

theorem drain (alike : Alike ref s t) (order : List String) :
    Alike ref (s.drain order).1 (t.drain order).1 := by
  rw [drain_eq, drain_eq, alike.registry]
  exact alike.evictAll .closed _

theorem other (alike : Alike ref s t) (different : place ≠ ref) :
    t.sessions.get? place = s.sessions.get? place := by
  have same := alike.sessions place
  have whole : Session.blur ref place = fun x => x := funext fun _ => if_neg different
  simpa only [whole, Option.map_id'] using same

/-- A sweep makes no difference either, if it agrees on the session that is called. -/
theorem reap (alike : Alike ref s t) (agree : s.registry.settings.expires = true →
    ∀ id, s.registry.live.get? id = some ref → t.isSpent ref = s.isSpent ref)
    (order : List String) : Alike ref (s.reap order).1 (t.reap order).1 := by
  unfold Service.reap
  rw [alike.registry]
  split
  · rename_i expires
    have spent : ∀ entry ∈ s.registry.arranged order, t.isSpent entry.2 = s.isSpent entry.2 := by
      intro entry member
      by_cases here : entry.2 = ref
      · rw [here]
        exact agree expires entry.1 (here ▸ Registry.mem_arranged.mp member)
      · unfold isSpent
        rw [alike.other here, alike.now]
    rw [reapAll_eq, reapAll_eq, List.filter_congr spent]
    exact alike.evictAll .expired _
  · exact alike

end Alike

/-! Beginning to refine -/

theorem growPool_alike (ref : Ref) (s : Service) (index : Ref) (size : Nat) (budget : Budget)
    (pool : SortedSet String) (positives : List Descriptor) :
    Alike ref s (s.growPool index size budget pool positives).1 := by
  induction positives generalizing s pool with
  | nil => exact .refl ref s
  | cons chosen rest ih =>
    unfold growPool
    cases budget.check with
    | error e => exact .refl ref s
    | ok _ =>
      have counted := Alike.nearest_self ref s index chosen size
      dsimp only
      cases near : s.nearest index chosen size with
      | mk s' answer =>
        rw [near] at counted
        cases answer with
        | error e => exact counted
        | ok found => exact counted.trans (ih s' _)

theorem prepareRefine_alike (ref : Ref) (s : Service) (x : Session) (budget : Budget) :
    Alike ref s (s.prepareRefine ref x budget).1 := by
  unfold prepareRefine
  cases s.gatherExamples x with
  | error e => exact .refl ref s
  | ok examples =>
    have grown := growPool_alike ref s x.index x.settings.poolSize budget x.feedback.pool examples.1
    dsimp only
    cases pool : s.growPool x.index x.settings.poolSize budget x.feedback.pool examples.1 with
    | mk s' answer =>
      rw [pool] at grown
      cases answer <;> exact grown

/-- Beginning to refine changes nothing but how the session is called and what indexes have counted,
whether it succeeds or fails. -/
theorem beginRefine_alike (s : Service) (ref : Ref) (budget : Budget) :
    Alike ref s (s.beginRefine ref budget).1 := by
  unfold beginRefine
  cases entered : s.enter ref with
  | error e => exact .refl ref s
  | ok begun =>
    obtain ⟨x, found, _, rfl⟩ := enter_ok entered
    have begins : Alike ref s (s.putSession ref (x.begun s.now)) := .put_self found rfl
    dsimp only
    cases here : (s.putSession ref (x.begun s.now)).sessions.get? ref with
    | none => exact begins
    | some y =>
      have prepares := prepareRefine_alike ref (s.putSession ref (x.begun s.now)) y budget
      dsimp only
      cases prepared : (s.putSession ref (x.begun s.now)).prepareRefine ref y budget with
      | mk s' answer =>
        rw [prepared] at prepares
        cases answer with
        | error e => exact (begins.trans prepares).trans (.leave_self s' ref)
        | ok r => exact begins.trans prepares

end Service

namespace World
open Service
variable {w v : World} {ref : Ref} {settings : RegistrySettings}

/-- Whatever is performed on alike services but refining and reaping leaves them alike. -/
theorem perform_alike (alike : Alike ref w.service v.service) (operation : Operation)
    (simple : operation.isRefinement = false) (reaps : ∀ order, operation ≠ .reap order) :
    Alike ref (w.perform operation).1.service (v.perform operation).1.service := by
  cases operation with
  | seed place query n => exact (alike.seed query n).alike
  | addPositive place id => exact (alike.addPositive id).alike
  | addNegative place id => exact (alike.addNegative id).alike
  | removePositive place id => exact alike.consult.alike
  | removeNegative place id => exact alike.consult.alike
  | adjudicate place changes => exact (alike.adjudicate changes).alike
  | positives place => exact alike.consult.alike
  | negatives place => exact alike.consult.alike
  | ranking place => exact alike.consult.alike
  | top place n => exact alike.consult.alike
  | reset place => exact alike.reset.alike
  | beginRefine place budget => cases simple
  | endRefine place answer => cases simple
  | openSession id index ranker => exact alike.openSession id index ranker
  | startAlone id settings index ranker label =>
    have added := alike.add (.create id w.service.now settings index ranker label)
    show Alike ref _ (v.service.addSession (.create id v.service.now settings index ranker label)).1
    rw [alike.now]
    exact added
  | find id => exact (alike.find id).alike
  | close id => exact alike.close id
  | reap order => exact absurd rfl (reaps order)
  | drain order => exact alike.drain order
  | advance nanoseconds => exact { alike with now := congrArg (· + nanoseconds) alike.now }
  | elsewhere files descriptors results indexes =>
    exact { alike with
      files := rfl, descriptors := rfl, results := rfl, indexes := fun _ => rfl }

theorem perform_pending (w : World) {operation : Operation}
    (simple : operation.isRefinement = false) : (w.perform operation).1.pending = w.pending := by
  cases operation <;> first | rfl | cases simple

/-- A session with a call under way is not idle. -/
theorem isSpent_of_pending (sound : v.Sound) (registered : v.service.Registered settings)
    {r : Refinement} (pending : r ∈ v.pending) {id : String}
    (known : v.service.registry.live.get? id = some r.session) :
    v.service.isSpent r.session = false := by
  obtain ⟨x, found, _, live, _⟩ := registered.live id r.session known
  have counted := sound.counted r.session x found
  have busy : 0 < v.underWay r.session := List.countP_pos_iff.mpr ⟨r, pending, decide_eq_true rfl⟩
  have called : x.busy ≠ 0 := by omega
  simp [isSpent, found, live, Session.isIdle, called]

/-- A sweep expires a session, or it makes no difference to it that a refinement of it is pending. -/
theorem reap_alike (registered : w.service.Registered settings) (sound : v.Sound)
    (registered' : v.service.Registered settings) {r : Refinement} (pending : r ∈ v.pending)
    (alike : Alike r.session w.service v.service) (order : List String) :
    Alike r.session (w.service.reap order).1 (v.service.reap order).1 ∨
      ∃ x, (w.service.reap order).1.sessions.get? r.session = some x ∧ x.phase = .expired := by
  by_cases lapses : w.service.registry.settings.expires = true ∧
      ∃ id, w.service.registry.live.get? id = some r.session ∧ w.service.isSpent r.session = true
  · obtain ⟨expires, id, known, spent⟩ := lapses
    obtain ⟨x, found, _, live, _⟩ := registered.live id r.session known
    have ended : r.session ∈ (w.service.swept order).map (·.2) := List.mem_map.mpr
      ⟨(id, r.session), List.mem_filter.mpr ⟨Registry.mem_arranged.mpr known, spent⟩, rfl⟩
    rw [reap_of_expires expires, get?_evictAll _ rfl, found, Option.map_some, if_pos ended,
      Session.terminate_of_live live]
    exact .inr ⟨_, rfl, rfl⟩
  · refine .inl (alike.reap (fun expires id known => ?_) order)
    rw [isSpent_of_pending sound registered' pending (alike.registry ▸ known)]
    symm
    rw [Bool.eq_false_iff]
    exact fun spent => lapses ⟨expires, id, known, spent⟩

/-- Whatever is performed but refining, it makes no difference to the session of a pending
refinement that the refinement is pending, unless the session expires without it. -/
theorem run_alike (sound : w.Sound) (registered : w.service.Registered settings) (sound' : v.Sound)
    (registered' : v.service.Registered settings) {r : Refinement} (pending : r ∈ v.pending)
    (alike : Alike r.session w.service v.service) {operations : List Operation}
    (simple : ∀ operation ∈ operations, operation.isRefinement = false) :
    Alike r.session (w.run operations).service (v.run operations).service ∨
      ∃ x, (w.run operations).service.sessions.get? r.session = some x ∧ x.phase = .expired := by
  induction operations generalizing w v with
  | nil => exact .inl alike
  | cons operation rest ih =>
    have plain := simple operation List.mem_cons_self
    have step : Alike r.session (w.perform operation).1.service (v.perform operation).1.service ∨
        ∃ x, (w.perform operation).1.service.sessions.get? r.session = some x ∧
          x.phase = .expired := by
      by_cases reaps : ∃ order, operation = .reap order
      · obtain ⟨order, rfl⟩ := reaps
        exact reap_alike registered sound' registered' pending alike order
      · exact .inl (perform_alike alike operation plain (not_exists.mp reaps))
    have later := perform_sound sound operation
    rcases step with alike' | ⟨x, found, expired⟩
    · exact ih later (perform_registered sound registered operation) (perform_sound sound' operation)
        (perform_registered sound' registered' operation) (perform_pending v plain ▸ pending) alike'
        fun other member => simple other (List.mem_cons_of_mem _ member)
    · obtain ⟨y, found', after⟩ := run_later later found rest
      exact .inr ⟨y, found', (after.ended (expired ▸ rfl)).trans expired⟩

end World
end Retrieval
