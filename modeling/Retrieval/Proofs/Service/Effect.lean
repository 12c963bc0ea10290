import Retrieval.Proofs.Service.Sessions

/-!
Whatever is performed, the sessions and the registry see one of five effects of it
(`World.perform_effect`). Each of them keeps the registry to live sessions (`Effect.registered`).
-/
namespace Retrieval

namespace Operation

/-- The sessions that an operation accesses: it creates them, finds them, or begins or ends a call
of them. -/
def accesses (w : World) : Operation → List Ref
  | .seed ref _ _ | .addPositive ref _ | .addNegative ref _ | .removePositive ref _
  | .removeNegative ref _ | .adjudicate ref _ | .positives ref | .negatives ref | .ranking ref
  | .top ref _ | .reset ref | .beginRefine ref _ => [ref]
  | .endRefine place _ => (w.pending[place]?.map (·.session)).toList
  | .openSession id _ _ => if w.service.registry.isTaken id then [] else [w.service.sessions.size]
  | .startAlone .. => [w.service.sessions.size]
  | .find id => (w.service.registry.live.get? id).toList
  | .close _ | .reap _ | .drain _ | .advance _ | .elsewhere .. => []

/-- The phase of the sessions that an operation takes out of the registry. -/
def ending : Operation → Option Phase
  | .close _ | .drain _ => some .closed
  | .reap _ => some .expired
  | _ => none

/-- The order in which an operation visits the registry. -/
def order : Operation → List String
  | .reap order | .drain order => order
  | _ => []

end Operation

namespace Service
open Session
variable {s s' : Service} {ref : Ref} {order : List String}

/-- What an operation may do to the sessions and the registry, by the sessions it accesses and the
phase of those it takes out of the registry, in the given order. -/
inductive Effect (s s' : Service) (order : List String) : List Ref → Option Phase → Prop where
  | aside {ending : Option Phase}
      (sessions : s'.sessions = s.sessions)
      (registry : s'.registry = s.registry)
      (now : s.now ≤ s'.now) : Effect s s' order [] ending
  | visited {ref : Ref} (visit : Visit ref (Served s.now) s s') : Effect s s' order [ref] none
  | alone {id : String} {settings : SessionSettings} {index : Ref} {ranker : Ranker}
      {label : Option String}
      (after : s' = (s.addSession (.create id s.now settings index ranker label)).1) :
      Effect s s' order [s.sessions.size] none
  | opened {id : String} {index : Ref} {ranker : Ranker}
      (free : s.registry.isTaken id = false)
      (after : s' = { (s.addSession (.create id s.now s.registry.settings.session index ranker
        s.registry.resultLabel)).1 with registry := s.registry.add id s.sessions.size }) :
      Effect s s' order [s.sessions.size] none
  | evicted {phase : Phase} {entries : List (String × Ref)}
      (final : phase.isTerminal = true)
      (registered : entries.Sublist (s.registry.arranged order))
      (after : s' = s.evictAll phase entries) : Effect s s' order [] (some phase)

theorem Effect.of_call (visit : Visit ref (Called s.now) s s') : Effect s s' order [ref] none :=
  .visited (visit.mono fun _ _ _ called => called.toServed)

theorem openSession_taken {id : String} (taken : s.registry.isTaken id = true) (index : Ref)
    (ranker : Ranker) :
    s.openSession id index ranker = (s, .error (.invalidState (.idInUse id))) := if_pos taken

theorem openSession_free {id : String} (free : s.registry.isTaken id = false) (index : Ref)
    (ranker : Ranker) :
    s.openSession id index ranker = ({ (s.addSession (.create id s.now s.registry.settings.session
      index ranker s.registry.resultLabel)).1 with
        registry := s.registry.add id s.sessions.size }, .ok s.sessions.size) :=
  if_neg (Bool.eq_false_iff.mp free)

theorem openSession_effect (s : Service) (id : String) (index : Ref) (ranker : Ranker) :
    Effect s (s.openSession id index ranker).1 order
      (if s.registry.isTaken id then [] else [s.sessions.size]) none := by
  cases taken : s.registry.isTaken id with
  | true =>
    rw [openSession_taken taken]
    exact .aside rfl rfl (Nat.le_refl _)
  | false =>
    rw [openSession_free taken]
    exact .opened taken rfl

theorem find_effect (s : Service) (id : String) :
    Effect s (s.find id).1 order (s.registry.live.get? id).toList none := by
  cases registered : s.registry.live.get? id with
  | none =>
    rw [find_missing registered]
    exact .aside rfl rfl (Nat.le_refl _)
  | some ref => exact .of_call (find_visit registered)

theorem close_effect (s : Service) (id : String) :
    Effect s (s.close id).1 [] [] (some .closed) := by
  unfold close
  split
  · exact .aside rfl rfl (Nat.le_refl _)
  · rename_i ref registered
    have listed : (id, ref) ∈ s.registry.arranged [] := Registry.mem_arranged.mpr registered
    exact .evicted rfl (List.singleton_sublist.mpr listed) rfl

theorem reap_effect (s : Service) (order : List String) :
    Effect s (s.reap order).1 order [] (some .expired) := by
  unfold reap
  split
  · rw [reapAll_eq]
    exact .evicted rfl List.filter_sublist rfl
  · exact .aside rfl rfl (Nat.le_refl _)

theorem drain_effect (s : Service) (order : List String) :
    Effect s (s.drain order).1 order [] (some .closed) :=
  .evicted rfl (List.Sublist.refl _) (s.drain_eq order)

/-! What every effect keeps -/

/-- A place is vacant until a session is put there. -/
theorem get?_addSession (vacant : s.sessions.get? s.sessions.size = none) {x : Session}
    (found : s.sessions.get? ref = some x) (y : Session) :
    (s.addSession y).1.sessions.get? ref = some x := by
  have old : ref ≠ s.sessions.size := by
    rintro rfl
    rw [vacant] at found
    cases found
  exact (SortedMap.get?_insert_of_ne old).trans found

/-- Every session stays at its place, keeps its profile and takes a turn. -/
theorem Effect.exists_after {accessed : List Ref} {ending : Option Phase}
    (effect : Effect s s' order accessed ending) (vacant : s.sessions.get? s.sessions.size = none)
    {x : Session} (found : s.sessions.get? ref = some x) :
    ∃ y, s'.sessions.get? ref = some y ∧ x.Turn y ∧ y.profile = x.profile := by
  have unchanged : x.Turn x := .still ⟨rfl, rfl, rfl⟩
  cases effect with
  | aside sessions _ _ => exact ⟨x, (sessions ▸ found), unchanged, rfl⟩
  | @visited here visit =>
    by_cases same : ref = here
    · rw [same] at found ⊢
      obtain ⟨y, found', served⟩ := visit.toTouch.exists_after found
      exact ⟨y, found', served.turn, served.profile⟩
    · exact ⟨x, (visit.others ref same).trans found, unchanged, rfl⟩
  | alone after =>
    rw [after]
    exact ⟨x, get?_addSession vacant found _, unchanged, rfl⟩
  | opened _ after =>
    rw [after]
    exact ⟨x, get?_addSession vacant found _, unchanged, rfl⟩
  | @evicted phase entries final _ after =>
    have change := x.terminate_change final
    rw [after, get?_evictAll s final, found]
    by_cases ends : ref ∈ entries.map (·.2)
    · exact ⟨_, congrArg some (if_pos ends), change.turn, change.profile⟩
    · exact ⟨x, congrArg some (if_neg ends), unchanged, rfl⟩

/-- The registry was set up as told and knows the sessions that it gave out and that are not over,
each by its id. -/
structure Registered (settings : RegistrySettings) (s : Service) : Prop where
  configured : s.registry.settings = settings
  live : ∀ id ref, s.registry.live.get? id = some ref → ∃ x, s.sessions.get? ref = some x ∧
    x.id = id ∧ x.phase.isTerminal = false ∧ x.settings = settings.session

variable {settings : RegistrySettings}

theorem Registered.id_unique (registered : Registered settings s) {id id' : String}
    (here : s.registry.live.get? id = some ref) (there : s.registry.live.get? id' = some ref) :
    id = id' := by
  obtain ⟨x, found, named, _⟩ := registered.live id ref here
  obtain ⟨x', found', named', _⟩ := registered.live id' ref there
  cases found.symm.trans found'
  exact named.symm.trans named'

/-- A session that stays in the registry is not among those that are ended. -/
theorem Registered.not_mem_ended (registered : Registered settings s) {id : String}
    {entries : List (String × Ref)} (known : s.Listed entries)
    (here : s.registry.live.get? id = some ref) (stays : id ∉ entries.map (·.1)) :
    ref ∉ entries.map (·.2) := by
  intro ended
  obtain ⟨entry, member, rfl⟩ := List.mem_map.mp ended
  exact stays (registered.id_unique (known entry member) here ▸ List.mem_map_of_mem member)

theorem Effect.registered {accessed : List Ref} {ending : Option Phase}
    (effect : Effect s s' order accessed ending) (vacant : s.sessions.get? s.sessions.size = none)
    (registered : Registered settings s) : Registered settings s' := by
  cases effect with
  | aside sessions registry _ =>
    refine ⟨registry ▸ registered.configured, ?_⟩
    rw [sessions, registry]
    exact registered.live
  | @visited here visit =>
    refine ⟨visit.registry ▸ registered.configured, ?_⟩
    rw [visit.registry]
    intro id ref known
    obtain ⟨x, found, named, lives, told⟩ := registered.live id ref known
    by_cases same : ref = here
    · rw [same] at found ⊢
      obtain ⟨y, found', served⟩ := visit.toTouch.exists_after found
      have profile := served.profile
      exact ⟨y, found', (congrArg Profile.id profile).trans named, served.lasts.trans lives,
        (congrArg Profile.settings profile).trans told⟩
    · exact ⟨x, (visit.others ref same).trans found, named, lives, told⟩
  | alone after =>
    rw [after]
    refine ⟨registered.configured, fun id ref known => ?_⟩
    obtain ⟨x, found, rest⟩ := registered.live id ref known
    exact ⟨x, get?_addSession vacant found _, rest⟩
  | @opened id' _ _ _ after =>
    rw [after]
    refine ⟨registered.configured, fun id ref known => ?_⟩
    by_cases same : id = id'
    · have place : s.sessions.size = ref := by
        rw [same] at known
        exact Option.some.inj ((SortedMap.get?_insert_self _ _ _).symm.trans known)
      rw [same, ← place]
      exact ⟨_, SortedMap.get?_insert_self _ _ _, rfl, rfl,
        congrArg RegistrySettings.session registered.configured⟩
    · obtain ⟨x, found, rest⟩ :=
        registered.live id ref ((SortedMap.get?_insert_of_ne same).symm.trans known)
      exact ⟨x, get?_addSession vacant found _, rest⟩
  | @evicted phase entries final known after =>
    rw [after]
    refine ⟨(evictAll_settings s phase entries).trans registered.configured, fun id ref here => ?_⟩
    rw [live_evictAll] at here
    split at here
    · cases here
    · rename_i stays
      obtain ⟨x, found, rest⟩ := registered.live id ref here
      rw [get?_evictAll s final, found]
      have apart := registered.not_mem_ended (listed_of_sublist known) here stays
      exact ⟨x, congrArg some (if_neg apart), rest⟩

end Service

namespace World
open Service
variable {w : World} {settings : RegistrySettings}

theorem beginRefine_effect (w : World) (ref : Ref) (budget : Budget) :
    Effect w.service (w.perform (.beginRefine ref budget)).1.service [] [ref] none := by
  unfold perform
  dsimp only
  split
  · rename_i failed
    exact .of_call (beginRefine_error failed)
  · rename_i begun
    obtain ⟨_, visit, _⟩ := beginRefine_ok begun
    apply Effect.visited
    apply visit.mono
    intro x y _ change
    rw [change.1]
    exact x.begun_served w.service.now

theorem endRefine_effect (sound : w.Sound) (place : Nat) (answer : Except Error (List Scored)) :
    Effect w.service (w.perform (.endRefine place answer)).1.service []
      (w.pending[place]?.map (·.session)).toList none := by
  unfold perform
  dsimp only
  cases here : w.pending[place]? with
  | none => exact .aside rfl rfl (Nat.le_refl _)
  | some r =>
    have awaits := sound.awaited r (List.mem_of_getElem? here)
    exact .visited ((endRefine_visit awaits answer).mono fun _ _ _ ended => ended.1)

theorem perform_effect (sound : w.Sound) (operation : Operation) :
    Effect w.service (w.perform operation).1.service operation.order (operation.accesses w)
      operation.ending := by
  cases operation with
  | seed ref query n => exact .of_call (seed_visit query n)
  | addPositive ref id => exact .of_call (addPositive_visit id)
  | addNegative ref id => exact .of_call (addNegative_visit id)
  | removePositive ref id =>
    exact .of_call (consult_visit (Feedback.removePositive_revised · id))
  | removeNegative ref id =>
    exact .of_call (consult_visit (Feedback.removeNegative_revised · id))
  | adjudicate ref changes => exact .of_call (adjudicate_visit changes)
  | positives ref => exact .of_call (consult_visit .refl)
  | negatives ref => exact .of_call (consult_visit .refl)
  | ranking ref => exact .of_call (consult_visit .refl)
  | top ref n => exact .of_call (consult_visit .refl)
  | reset ref => exact .of_call reset_visit
  | beginRefine ref budget => exact beginRefine_effect w ref budget
  | endRefine place answer => exact endRefine_effect sound place answer
  | openSession id index ranker => exact openSession_effect w.service id index ranker
  | startAlone id settings index ranker label => exact .alone rfl
  | find id => exact find_effect w.service id
  | close id => exact close_effect w.service id
  | reap order => exact reap_effect w.service order
  | drain order => exact drain_effect w.service order
  | advance nanoseconds => exact .aside rfl rfl (Nat.le_add_right _ _)
  | elsewhere files descriptors results indexes => exact .aside rfl rfl (Nat.le_refl _)

theorem Sound.vacant (sound : w.Sound) :
    w.service.sessions.get? w.service.sessions.size = none := by
  cases found : w.service.sessions.get? w.service.sessions.size with
  | none => rfl
  | some x => exact absurd (sound.lt_size found) (Nat.lt_irrefl _)

theorem perform_registered (sound : w.Sound)
    (registered : w.service.Registered settings) (operation : Operation) :
    (w.perform operation).1.service.Registered settings :=
  (perform_effect sound operation).registered sound.vacant registered

theorem run_registered (sound : w.Sound) (registered : w.service.Registered settings)
    (operations : List Operation) : (w.run operations).service.Registered settings := by
  induction operations generalizing w with
  | nil => exact registered
  | cons operation rest ih =>
    exact ih (perform_sound sound operation) (perform_registered sound registered operation)

/-- Sessions stay where they are, however long things go on. -/
theorem run_later (sound : w.Sound) {ref : Ref} {x : Session}
    (found : w.service.sessions.get? ref = some x) (operations : List Operation) :
    ∃ y, (w.run operations).service.sessions.get? ref = some y ∧ x.Later y := by
  induction operations generalizing w x with
  | nil => exact ⟨x, found, .refl x⟩
  | cons operation rest ih =>
    obtain ⟨y, found', turn, _⟩ := (perform_effect sound operation).exists_after sound.vacant found
    obtain ⟨z, found'', later⟩ := ih (perform_sound sound operation) found'
    exact ⟨z, found'', turn.later.trans later⟩

/-- However long things go on, a session keeps its profile. -/
theorem run_profile (sound : w.Sound) {ref : Ref} {x : Session}
    (found : w.service.sessions.get? ref = some x) (operations : List Operation) :
    ∃ y, (w.run operations).service.sessions.get? ref = some y ∧ y.profile = x.profile := by
  induction operations generalizing w x with
  | nil => exact ⟨x, found, rfl⟩
  | cons operation rest ih =>
    obtain ⟨y, found', _, profile⟩ :=
      (perform_effect sound operation).exists_after sound.vacant found
    obtain ⟨z, found'', later⟩ := ih (perform_sound sound operation) found'
    exact ⟨z, found'', later.trans profile⟩

/-- What is noted of each operation, in turn. -/
def trace {α : Type} (note : World → Operation → List α) (w : World) : List Operation → List α
  | [] => []
  | operation :: rest => note w operation ++ (w.perform operation).1.trace note rest

/-- What every operation keeps of a world and of all that was noted, a run keeps. -/
theorem run_trace {α : Type} {note : World → Operation → List α} {kept : List α → World → Prop}
    (step : ∀ past w operation, kept past w →
      kept (past ++ note w operation) (w.perform operation).1)
    {past : List α} (begun : kept past w) (operations : List Operation) :
    kept (past ++ w.trace note operations) (w.run operations) := by
  induction operations generalizing w past with
  | nil =>
    rw [trace, List.append_nil]
    exact begun
  | cons operation rest ih =>
    rw [trace, ← List.append_assoc]
    exact ih (step past w operation begun)

/-- A service that nothing was asked of yet, with a registry of the given settings. -/
def fresh (files : FileTree) (descriptors : Store Descriptor) (results : Store Classification)
    (settings : RegistrySettings) (label : Option String) : World :=
  start (.create files descriptors results ⟨settings, label, ∅, .empty⟩)

theorem fresh_sound (files : FileTree) (descriptors : Store Descriptor)
    (results : Store Classification) (settings : RegistrySettings) (label : Option String) :
    (fresh files descriptors results settings label).Sound := start_sound _ rfl

theorem fresh_registered (files : FileTree) (descriptors : Store Descriptor)
    (results : Store Classification) (settings : RegistrySettings) (label : Option String) :
    (fresh files descriptors results settings label).service.Registered settings := by
  refine ⟨rfl, fun id ref known => ?_⟩
  cases known

end World
end Retrieval
