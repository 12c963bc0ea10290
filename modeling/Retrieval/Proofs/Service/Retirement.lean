import Retrieval.Proofs.Service.Effect
import Retrieval.Proofs.Session.Retired

/-!
Which sessions left the registry, and how they ended, is read off what was performed. The registry
remembers the last of them, and what it says about an id follows from that
(`World.registry_of_run`).
-/
namespace Retrieval

namespace Service
open Session
variable {s s' : Service} {settings : RegistrySettings} {log : List (String × Phase)}
  {order : List String}

/-- The ids that the registry has lost, in the order in which it was visited, each with the phase
that its session is now in. -/
def departed (order : List String) (s s' : Service) : List (String × Phase) :=
  (s.registry.arranged order).filterMap fun entry =>
    if s'.registry.live.contains entry.1 then none
    else (s'.sessions.get? entry.2).map fun x => (entry.1, x.phase)

theorem departed_eq_nil (stay : ∀ id, s.registry.live.contains id = true →
    s'.registry.live.contains id = true) : s.departed order s' = [] := by
  refine List.filterMap_eq_nil_iff.mpr fun entry member => if_pos (stay entry.1 ?_)
  exact SortedMap.contains_iff.mpr ⟨entry.2, Registry.mem_arranged.mp member⟩

/-- An id that is added leaves the others in the registry. -/
theorem contains_add (s : Service) (id' : String) (ref : Ref) (id : String)
    (known : s.registry.live.contains id = true) :
    (s.registry.add id' ref).live.contains id = true := by
  show ((s.registry.live.insert id' ref).get? id).isSome = true
  by_cases same : id = id'
  · rw [same, SortedMap.get?_insert_self]
    rfl
  · rw [SortedMap.get?_insert_of_ne same]
    exact known

/-- Mapping a part of a list is filtering the list for it. -/
theorem filterMap_of_sublist {α β : Type} {part whole : List α} {keep : α → Option β} {f : α → β}
    (sub : part.Sublist whole) (distinct : whole.Nodup) (kept : ∀ x ∈ part, keep x = some (f x))
    (dropped : ∀ x ∈ whole, x ∉ part → keep x = none) : whole.filterMap keep = part.map f := by
  induction sub with
  | slnil => rfl
  | @cons part rest x sub ih =>
    obtain ⟨new, distinct'⟩ := List.nodup_cons.mp distinct
    have out : keep x = none := dropped x List.mem_cons_self fun member => new (sub.subset member)
    rw [List.filterMap_cons_none out]
    exact ih distinct' kept fun y member => dropped y (List.mem_cons_of_mem x member)
  | @cons_cons part rest x sub ih =>
    obtain ⟨new, distinct'⟩ := List.nodup_cons.mp distinct
    rw [List.filterMap_cons_some (kept x List.mem_cons_self), List.map_cons]
    refine congrArg _ (ih distinct' (fun y member => kept y (List.mem_cons_of_mem x member)) ?_)
    intro y member apart
    refine dropped y (List.mem_cons_of_mem x member) fun both => ?_
    rcases List.mem_cons.mp both with rfl | there
    · exact new member
    · exact apart there

/-- The registry loses the entries whose sessions are ended. -/
theorem departed_evictAll (registered : Registered settings s) {phase : Phase}
    (final : phase.isTerminal = true) {entries : List (String × Ref)}
    (known : entries.Sublist (s.registry.arranged order)) :
    s.departed order (s.evictAll phase entries) = entries.map fun entry => (entry.1, phase) := by
  have listed := listed_of_sublist known
  have distinct : (s.registry.arranged order).Nodup := List.Pairwise.of_map (·.1)
    (fun _ _ apart same => apart (congrArg _ same)) Registry.nodup_arranged
  refine filterMap_of_sublist known distinct (fun entry member => ?_) fun entry member apart => ?_
  · obtain ⟨x, found, _, live, _⟩ := registered.live entry.1 entry.2 (listed entry member)
    have gone : entry.1 ∈ entries.map (·.1) := List.mem_map_of_mem member
    have ended : entry.2 ∈ entries.map (·.2) := List.mem_map_of_mem member
    rw [SortedMap.contains, live_evictAll, if_pos gone, get?_evictAll s final, found]
    simp only [Option.map_some, if_pos ended, terminate_of_live live]
    rfl
  · have here := Registry.mem_arranged.mp member
    have stays : entry.1 ∉ entries.map (·.1) := by
      intro gone
      obtain ⟨other, there, same⟩ := List.mem_map.mp gone
      have here' := listed other there
      rw [same, here] at here'
      exact apart (Prod.ext same.symm (Option.some.inj here') ▸ there)
    rw [SortedMap.contains, live_evictAll, if_neg stays, here]
    rfl

theorem evict_registry {id : String} {ref : Ref} {x : Session}
    (found : s.sessions.get? ref = some x) (live : x.phase.isTerminal = false) (phase : Phase) :
    (s.evict id ref phase).registry = s.registry.retire id phase := by
  simp only [evict, found, terminate_of_live live]

/-- The registry remembers the entries whose sessions are ended, in their order. -/
theorem evictAll_retired {phase : Phase} {entries : List (String × Ref)}
    (live : ∀ entry ∈ entries, ∃ x, s.sessions.get? entry.2 = some x ∧ x.phase.isTerminal = false)
    (apart : (entries.map (·.2)).Nodup) :
    (s.evictAll phase entries).registry.retired = s.registry.retired.addAll
      (entries.map fun entry => (entry.1, phase)) s.registry.settings.remembered := by
  induction entries generalizing s with
  | nil => rfl
  | cons entry rest ih =>
    obtain ⟨x, found, lives⟩ := live entry List.mem_cons_self
    obtain ⟨other, apart'⟩ := List.nodup_cons.mp apart
    have after : (s.evict entry.1 entry.2 phase).registry = s.registry.retire entry.1 phase :=
      evict_registry found lives phase
    have later := ih (s := s.evict entry.1 entry.2 phase) (fun entry' member => ?_) apart'
    · rw [after] at later
      exact later
    · obtain ⟨y, found', lives'⟩ := live entry' (List.mem_cons_of_mem entry member)
      have different : entry'.2 ≠ entry.2 := fun same =>
        other (List.mem_map.mpr ⟨entry', member, same⟩)
      rw [get?_evict, found']
      exact ⟨y, congrArg some (if_neg different), lives'⟩

/-- The registry remembers the last of those that left it, and none of them is in it. -/
structure Remembers (settings : RegistrySettings) (log : List (String × Phase)) (s : Service) :
    Prop where
  holds : s.registry.retired.Holds (log.rtake settings.remembered)
  apart : ∀ id ref, s.registry.live.get? id = some ref →
    id ∉ (log.rtake settings.remembered).map (·.1)

/-- Nothing is new to a registry that loses nothing and takes in only ids that are free. -/
theorem Remembers.of_stay (remembers : Remembers settings log s)
    (retired : s'.registry.retired = s.registry.retired)
    (stay : ∀ id, s.registry.live.contains id = true → s'.registry.live.contains id = true)
    (free : ∀ id ref, s'.registry.live.get? id = some ref →
      s.registry.live.get? id = some ref ∨ s.registry.retired.phases.contains id = false) :
    Remembers settings (log ++ s.departed order s') s' := by
  rw [departed_eq_nil stay, List.append_nil]
  refine ⟨retired ▸ remembers.holds, fun id ref known recent => ?_⟩
  rcases free id ref known with old | new
  · exact remembers.apart id ref old recent
  · obtain ⟨entry, member, rfl⟩ := List.mem_map.mp recent
    rw [Bool.eq_false_iff, ne_eq, remembers.holds.contains_iff] at new
    exact new ⟨entry.2, member⟩

theorem Remembers.evictAll (remembers : Remembers settings log s)
    (registered : Registered settings s) {phase : Phase} (final : phase.isTerminal = true)
    {entries : List (String × Ref)} (known : entries.Sublist (s.registry.arranged order)) :
    Remembers settings (log ++ s.departed order (s.evictAll phase entries))
      (s.evictAll phase entries) := by
  have here := listed_of_sublist known
  have ids : (entries.map fun entry => (entry.1, phase)).map (·.1) = entries.map (·.1) := by
    rw [List.map_map]
    rfl
  have distinct : (entries.map (·.1)).Nodup := (known.map _).nodup Registry.nodup_arranged
  have apart : (entries.map (·.2)).Nodup := by
    refine List.pairwise_map.mpr ((List.pairwise_map.mp distinct).imp_of_mem ?_)
    intro entry other member member' different same
    exact different (registered.id_unique (here entry member) (same ▸ here other member'))
  have live : ∀ entry ∈ entries,
      ∃ x, s.sessions.get? entry.2 = some x ∧ x.phase.isTerminal = false := by
    intro entry member
    obtain ⟨x, found, _, lives, _⟩ := registered.live entry.1 entry.2 (here entry member)
    exact ⟨x, found, lives⟩
  have new : ∀ id ∈ (entries.map fun entry => (entry.1, phase)).map (·.1),
      id ∉ (log.rtake settings.remembered).map (·.1) := by
    intro id gone
    rw [ids] at gone
    obtain ⟨entry, member, rfl⟩ := List.mem_map.mp gone
    exact remembers.apart entry.1 entry.2 (here entry member)
  rw [departed_evictAll registered final known]
  refine ⟨?_, fun id ref stays recent => ?_⟩
  · rw [evictAll_retired live apart, registered.configured, ← Retired.rtake_append_rtake]
    exact Retired.addAll_holds remembers.holds (Retired.rtake_length_le _ _) (ids ▸ distinct) new
  · rw [live_evictAll] at stays
    split at stays
    · cases stays
    · rename_i kept
      rw [← Retired.rtake_append_rtake] at recent
      have either := ((List.drop_sublist _ _).map _).subset recent
      rw [List.map_append, ids, List.mem_append] at either
      rcases either with old | gone
      · exact remembers.apart id ref stays old
      · exact kept gone

/-- What an operation takes out of the registry comes last in the log. -/
theorem Effect.remembers {accessed : List Ref} {ending : Option Phase}
    (effect : Effect s s' order accessed ending) (registered : Registered settings s)
    (remembers : Remembers settings log s) :
    Remembers settings (log ++ s.departed order s') s' := by
  have of_registry (same : s'.registry = s.registry) :
      Remembers settings (log ++ s.departed order s') s' := by
    apply remembers.of_stay
    · rw [same]
    · rw [same]
      exact fun _ => id
    · rw [same]
      exact fun _ _ => .inl
  cases effect with
  | aside _ registry _ => exact of_registry registry
  | visited visit => exact of_registry visit.registry
  | alone after => exact of_registry (after ▸ rfl)
  | @opened id' _ _ free after =>
    have forgotten := (Bool.or_eq_false_iff.mp free).2
    rw [after]
    refine remembers.of_stay rfl (contains_add s id' _) fun id ref known => ?_
    by_cases same : id = id'
    · exact .inr (same ▸ forgotten)
    · exact .inl ((SortedMap.get?_insert_of_ne same).symm.trans known)
  | evicted final known after =>
    rw [after]
    exact remembers.evictAll registered final known

/-- What leaves the registry leaves it in the phase that the operation ends sessions in. -/
theorem Effect.departed_ending {accessed : List Ref} {ending : Option Phase}
    (effect : Effect s s' order accessed ending) (registered : Registered settings s) :
    ∀ entry ∈ s.departed order s', ending = some entry.2 := by
  have of_stay (nothing : s.departed order s' = []) :
      ∀ entry ∈ s.departed order s', ending = some entry.2 := by
    intro entry member
    rw [nothing] at member
    cases member
  cases effect with
  | aside _ registry _ => exact of_stay (departed_eq_nil (registry ▸ fun _ => id))
  | visited visit => exact of_stay (departed_eq_nil (visit.registry ▸ fun _ => id))
  | alone after => exact of_stay (departed_eq_nil (after ▸ fun _ => id))
  | opened _ after => exact of_stay (departed_eq_nil (after ▸ contains_add s _ _))
  | evicted final known after =>
    intro entry member
    rw [after, departed_evictAll registered final known] at member
    obtain ⟨_, _, rfl⟩ := List.mem_map.mp member
    rfl

/-- Nothing but what left the registry is noted, and all of it. -/
theorem Effect.mem_departed {accessed : List Ref} {ending : Option Phase}
    (effect : Effect s s' order accessed ending) (vacant : s.sessions.get? s.sessions.size = none)
    (registered : Registered settings s) {id : String} :
    id ∈ (s.departed order s').map (·.1) ↔
      s.registry.live.contains id = true ∧ s'.registry.live.contains id = false := by
  constructor
  · intro member
    obtain ⟨entry, inside, rfl⟩ := List.mem_map.mp member
    obtain ⟨known, here, noted⟩ := List.mem_filterMap.mp inside
    split at noted
    · cases noted
    · rename_i gone
      obtain ⟨y, _, rfl⟩ := Option.map_eq_some_iff.mp noted
      have was := SortedMap.contains_iff.mpr ⟨known.2, Registry.mem_arranged.mp here⟩
      exact ⟨was, Bool.eq_false_iff.mpr gone⟩
  · rintro ⟨known, gone⟩
    obtain ⟨ref, here⟩ := SortedMap.contains_iff.mp known
    obtain ⟨x, found, _⟩ := registered.live id ref here
    obtain ⟨y, found', _⟩ := effect.exists_after vacant found
    refine List.mem_map.mpr ⟨(id, y.phase), List.mem_filterMap.mpr ⟨(id, ref), ?_, ?_⟩, rfl⟩
    · exact Registry.mem_arranged.mpr here
    · simp only [gone, Bool.false_eq_true, if_false, found', Option.map_some]

/-! What the registry says about an id -/

/-- What is answered about an id: success if it is in the registry, how it ended if that is
remembered, and else that it is not known. -/
structure Tells {α : Type} (s : Service) (recent : List (String × Phase)) (id : String)
    (answer : Except Error α) : Prop where
  live : (∃ a, answer = .ok a) ↔ s.registry.live.contains id = true
  ended : ∀ phase, answer = .error (.sessionUnavailable id phase) ↔ (id, phase) ∈ recent
  unknown : answer = .error (.notFound sessionSpace id) ↔
    s.registry.live.contains id = false ∧ ∀ phase, (id, phase) ∉ recent

variable {id : String} {ref : Ref}

theorem Remembers.tells {α : Type} (remembers : Remembers settings log s) {answer : Except Error α}
    (succeeds : ∀ ref, s.registry.live.get? id = some ref → ∃ a, answer = .ok a)
    (fails : s.registry.live.get? id = none → answer = .error (s.registry.missing id)) :
    s.Tells (log.rtake settings.remembered) id answer := by
  have phases := remembers.holds.phases id
  cases known : s.registry.live.get? id with
  | some ref =>
    obtain ⟨a, rfl⟩ := succeeds ref known
    have forgotten (phase : Phase) : (id, phase) ∉ log.rtake settings.remembered :=
      fun member => remembers.apart id ref known (List.mem_map_of_mem member)
    have here : s.registry.live.contains id = true := SortedMap.contains_iff.mpr ⟨ref, known⟩
    exact ⟨by simp [here], fun phase => by simp [forgotten], by simp [here]⟩
  | none =>
    have absent : s.registry.live.contains id = false := by
      rw [SortedMap.contains, known]
      rfl
    rw [fails known, Registry.missing]
    cases ended : s.registry.retired.phases.get? id with
    | some phase =>
      have member := (phases phase).mp ended
      refine ⟨by simp [absent], fun other => ?_, ?_⟩
      · rw [← phases other, ended]
        simp
      · simp only [reduceCtorEq, Except.error.injEq, absent, true_and, false_iff, not_forall,
          Classical.not_not]
        exact ⟨phase, member⟩
    | none =>
      have forgotten (phase : Phase) : (id, phase) ∉ log.rtake settings.remembered := by
        rw [← phases phase, ended]
        simp
      exact ⟨by simp [absent], fun phase => by simp [forgotten], by simp [absent, forgotten]⟩

theorem find_ok (registered : Registered settings s) (known : s.registry.live.get? id = some ref) :
    (s.find id).2 = .ok ref := by
  obtain ⟨x, found, _, live, _⟩ := registered.live id ref known
  have entered : s.enter ref = .ok (s.putSession ref (x.begun s.now)) := by
    simp only [enter, found, Session.enter, live]
    rfl
  have here : (s.putSession ref (x.begun s.now)).sessions.get? ref = some (x.begun s.now) :=
    SortedMap.get?_insert_self _ _ _
  simp only [find, known, call, entered, here]

theorem find_tells (registered : Registered settings s) (remembers : Remembers settings log s)
    (id : String) : s.Tells (log.rtake settings.remembered) id (s.find id).2 := by
  apply remembers.tells
  · exact fun ref known => ⟨ref, find_ok registered known⟩
  · intro absent
    rw [find_missing absent]

theorem close_tells (remembers : Remembers settings log s) (id : String) :
    s.Tells (log.rtake settings.remembered) id (s.close id).2 := by
  apply remembers.tells
  · intro ref known
    exact ⟨(), by simp only [close, known]⟩
  · intro absent
    simp only [close, absent]

/-- The registry of `s` has lost these ids and no others in `s'`, and remembers them behind the
log. -/
structure Retires (settings : RegistrySettings) (log gone : List (String × Phase)) (s s' : Service) :
    Prop where
  known : ∀ entry ∈ gone, s.registry.live.contains entry.1 = true
  live : ∀ id, s'.registry.live.get? id =
    if id ∈ gone.map (·.1) then none else s.registry.live.get? id
  remembered : s'.registry.retired.Holds ((log ++ gone).rtake settings.remembered)

theorem Remembers.retires (remembers : Remembers settings log s)
    (registered : Registered settings s) {phase : Phase} (final : phase.isTerminal = true)
    {entries : List (String × Ref)} (part : entries.Sublist (s.registry.arranged order)) :
    Retires settings log (entries.map fun entry => (entry.1, phase)) s
      (s.evictAll phase entries) where
  known := by
    refine List.forall_mem_map.mpr fun entry member => ?_
    exact SortedMap.contains_iff.mpr ⟨entry.2, listed_of_sublist part entry member⟩
  live id := by
    rw [live_evictAll, List.map_map]
    rfl
  remembered := by
    rw [← departed_evictAll registered final part]
    exact (remembers.evictAll registered final part).holds

theorem close_retires (remembers : Remembers settings log s) (registered : Registered settings s)
    {id : String} (known : s.registry.live.contains id = true) :
    Retires settings log [(id, .closed)] s (s.close id).1 := by
  obtain ⟨ref, known⟩ := SortedMap.contains_iff.mp known
  have listed : (id, ref) ∈ s.registry.arranged [] := Registry.mem_arranged.mpr known
  simp only [close, known]
  exact remembers.retires registered rfl (List.singleton_sublist.mpr listed)

theorem drain_retires (remembers : Remembers settings log s) (registered : Registered settings s)
    (order : List String) :
    Retires settings log ((s.registry.arranged order).map fun entry => (entry.1, .closed)) s
      (s.drain order).1 := by
  rw [drain_eq]
  exact remembers.retires registered rfl (List.Sublist.refl _)

theorem reap_retires (remembers : Remembers settings log s) (registered : Registered settings s)
    (order : List String) :
    Retires settings log ((s.reap order).2.map fun id => (id, .expired)) s (s.reap order).1 := by
  unfold reap
  split
  · rw [reapAll_eq, List.map_map]
    exact remembers.retires registered rfl List.filter_sublist
  · exact ⟨nofun, fun _ => rfl, by simpa using remembers.holds⟩

/-- A sweep takes out the sessions that may go, if sessions expire at all. -/
theorem mem_reap_iff (s : Service) (order : List String) (id : String) :
    id ∈ (s.reap order).2 ↔ s.registry.settings.expires = true ∧
      ∃ ref, s.registry.live.get? id = some ref ∧ s.isSpent ref = true := by
  unfold reap
  split
  · rename_i expires
    simp [reapAll_eq, Registry.mem_arranged, expires]
  · rename_i never
    simp [never]

/-- An id is taken if it is in the registry or remembered. -/
theorem Remembers.isTaken_iff (remembers : Remembers settings log s) (id : String) :
    s.registry.isTaken id = true ↔ s.registry.live.contains id = true ∨
      ∃ phase, (id, phase) ∈ log.rtake settings.remembered := by
  rw [Registry.isTaken, Bool.or_eq_true, remembers.holds.contains_iff]

end Service

namespace World
open Service
variable {w : World} {settings : RegistrySettings} {past : List (String × Phase)}

/-- The ids that leave the registry with the operations, in turn, each with the phase that its
session ended in. -/
def departures (w : World) (operations : List Operation) : List (String × Phase) :=
  w.trace (fun w operation => w.service.departed operation.order (w.perform operation).1.service)
    operations

theorem run_remembers (sound : w.Sound) (registered : w.service.Registered settings)
    (remembers : w.service.Remembers settings past) (operations : List Operation) :
    (w.run operations).service.Remembers settings (past ++ w.departures operations) := by
  have step (past : List (String × Phase)) (w : World) (operation : Operation)
      (kept : w.Sound ∧ w.service.Registered settings ∧ w.service.Remembers settings past) :=
    And.intro (perform_sound kept.1 operation)
      (And.intro (perform_registered kept.1 kept.2.1 operation)
        ((perform_effect kept.1 operation).remembers kept.2.1 kept.2.2))
  exact (run_trace step ⟨sound, registered, remembers⟩ operations).2.2

/-- The registry after any operations, whatever it has room to remember and in whatever order it is
visited. It remembers the last ids that left it and how their sessions ended, each once; an id
leaves it only by being closed or drained, or by being reaped, and its session ends accordingly.
Closing a session takes it out, draining takes all of them out and reaping those that may go, and
they are remembered as closed or expired. The sessions in it are not over, and their ids are not
remembered. An id is free for a new session unless it is in the registry or remembered; looking it
up and closing it succeed if it is in the registry, and tell otherwise how it ended as long as that
is remembered. -/
theorem registry_of_run (files : FileTree) (descriptors : Store Descriptor)
    (results : Store Classification) (settings : RegistrySettings) (label : Option String)
    (operations : List Operation) :
    let begun := fresh files descriptors results settings label
    let w := begun.run operations
    let s := w.service
    let log := begun.departures operations
    let recent := log.rtake settings.remembered
    let taken (id : String) := s.registry.live.contains id = true ∨ ∃ phase, (id, phase) ∈ recent
    s.registry.retired.Holds recent ∧
      (∀ operation,
        (∀ id, id ∈ (s.departed operation.order (w.perform operation).1.service).map (·.1) ↔
          s.registry.live.contains id = true ∧
            (w.perform operation).1.service.registry.live.contains id = false) ∧
        ∀ entry ∈ s.departed operation.order (w.perform operation).1.service,
          operation.ending = some entry.2) ∧
      (∀ id, s.registry.live.contains id = true →
        Retires settings log [(id, .closed)] s (s.close id).1) ∧
      (∀ order, Retires settings log
          ((s.registry.arranged order).map fun entry => (entry.1, .closed)) s (s.drain order).1 ∧
        Retires settings log ((s.reap order).2.map fun id => (id, .expired)) s (s.reap order).1 ∧
        ∀ id, id ∈ (s.reap order).2 ↔ settings.expires = true ∧
          ∃ ref, s.registry.live.get? id = some ref ∧ s.isSpent ref = true) ∧
      (∀ id ref, s.registry.live.get? id = some ref → (∀ phase, (id, phase) ∉ recent) ∧
        (∃ x, s.sessions.get? ref = some x ∧ x.id = id ∧ x.phase.isTerminal = false) ∧
          (s.find id).2 = .ok ref) ∧
      (∀ id index ranker,
        ((∃ ref, (s.openSession id index ranker).2 = .ok ref) ↔ ¬ taken id) ∧
          ((s.openSession id index ranker).2 = .error (.invalidState (.idInUse id)) ↔ taken id)) ∧
      ∀ id, s.Tells recent id (s.find id).2 ∧ s.Tells recent id (s.close id).2 := by
  intro begun w s log recent taken
  have start : begun.Sound := fresh_sound files descriptors results settings label
  have sound : w.Sound := run_sound start operations
  have registered : s.Registered settings :=
    run_registered start (fresh_registered files descriptors results settings label) operations
  have remembers : s.Remembers settings log := by
    have nothing : begun.service.Remembers settings [] := by
      refine ⟨?_, fun id ref known => by cases known⟩
      rw [List.rtake_nil]
      exact Retired.empty_holds
    exact run_remembers start (fresh_registered files descriptors results settings label) nothing
      operations
  refine ⟨remembers.holds, fun operation => ?_,
    fun id known => close_retires remembers registered known,
    fun order => ⟨drain_retires remembers registered order,
      reap_retires remembers registered order, ?_⟩,
    fun id ref known => ?_, fun id index ranker => ?_,
    fun id => ⟨find_tells registered remembers id, close_tells remembers id⟩⟩
  · have effect := perform_effect sound operation
    exact ⟨fun id => effect.mem_departed sound.vacant registered, effect.departed_ending registered⟩
  · rw [← registered.configured]
    exact s.mem_reap_iff order
  · obtain ⟨x, found, named, live, _⟩ := registered.live id ref known
    refine ⟨fun phase member => ?_, ⟨x, found, named, live⟩, find_ok registered known⟩
    exact remembers.apart id ref known (List.mem_map_of_mem member)
  · have taken_iff : s.registry.isTaken id = true ↔ taken id := remembers.isTaken_iff id
    rw [← taken_iff]
    cases free : s.registry.isTaken id with
    | true => simp [openSession_taken free]
    | false => simp [openSession_free free]

/-- With room for one id, closing a second session frees the id of the first. -/
example :
    let ranker : Ranker := ⟨fun _ _ _ => .ok []⟩
    let w := (fresh ⟨default, 0⟩ (.memory ∅) (.memory ∅) ⟨⟨1, 200⟩, false, 30, 1⟩ none).run
      [.openSession "a" 0 ranker, .openSession "b" 0 ranker, .close "a", .close "b"]
    w.service.registry.isTaken "a" = false ∧ w.service.registry.isTaken "b" = true := by
  decide +kernel

end World
end Retrieval
