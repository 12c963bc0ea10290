import Retrieval.Proofs.Service.Effect

/-!
When a live session was last accessed is the latest access that the operations so far made of it, so
a sweep expires the sessions that nobody accessed for too long and that no call keeps, and no others
(`World.reap_of_run`).
-/
namespace Retrieval

namespace Service
open Session
variable {s s' : Service} {ref : Ref} {past : List (Ref × Nat)} {order : List String}

/-- A live session was last accessed at the latest of its accesses, none of which is still to come. -/
structure Tracks (past : List (Ref × Nat)) (s : Service) : Prop where
  before : ∀ ref time, (ref, time) ∈ past → time ≤ s.now
  latest : ∀ ref x, s.sessions.get? ref = some x → x.phase.isTerminal = false →
    (ref, x.lastAccess) ∈ past ∧ ∀ time, (ref, time) ∈ past → time ≤ x.lastAccess

theorem Effect.now_le {accessed : List Ref} {ending : Option Phase}
    (effect : Effect s s' order accessed ending) : s.now ≤ s'.now := by
  cases effect with
  | aside _ _ now => exact now
  | visited visit => exact Nat.le_of_eq visit.now.symm
  | alone after => exact Nat.le_of_eq (after ▸ rfl)
  | opened _ after => exact Nat.le_of_eq (after ▸ rfl)
  | evicted _ _ after => exact Nat.le_of_eq (after ▸ (evictAll_now s _ _).symm)

theorem mem_noted {place : Ref} {time : Nat} :
    (ref, time) ∈ past ++ [place].map (·, s.now) ↔
      (ref, time) ∈ past ∨ ref = place ∧ time = s.now := by
  simp

/-- The session whose access is noted was last accessed now. -/
theorem Tracks.latest_here (tracks : Tracks past s) (ref : Ref) :
    (ref, s.now) ∈ past ++ [ref].map (·, s.now) ∧
      ∀ time, (ref, time) ∈ past ++ [ref].map (·, s.now) → time ≤ s.now := by
  refine ⟨mem_noted.mpr (.inr ⟨rfl, rfl⟩), fun time member => ?_⟩
  rcases mem_noted.mp member with old | new
  · exact tracks.before ref time old
  · exact Nat.le_of_eq new.2

/-- A session that is as it was, while the access of another one is noted. -/
theorem Tracks.latest_there (tracks : Tracks past s) {place : Ref} (other : ref ≠ place)
    {x : Session} (found : s.sessions.get? ref = some x) (live : x.phase.isTerminal = false) :
    (ref, x.lastAccess) ∈ past ++ [place].map (·, s.now) ∧
      ∀ time, (ref, time) ∈ past ++ [place].map (·, s.now) → time ≤ x.lastAccess := by
  obtain ⟨member, latest⟩ := tracks.latest ref x found live
  refine ⟨mem_noted.mpr (.inl member), fun time noted => ?_⟩
  rcases mem_noted.mp noted with old | new
  · exact latest time old
  · exact absurd new.1 other

/-- A session that was just put at a place, where its access is noted. -/
theorem Tracks.latest_put (tracks : Tracks past s) {place : Ref} {y : Session}
    (noted : y.lastAccess = s.now) {x : Session}
    (found : (s.sessions.insert place y).get? ref = some x)
    (live : x.phase.isTerminal = false) :
    (ref, x.lastAccess) ∈ past ++ [place].map (·, s.now) ∧
      ∀ time, (ref, time) ∈ past ++ [place].map (·, s.now) → time ≤ x.lastAccess := by
  by_cases same : ref = place
  · rw [same, SortedMap.get?_insert_self] at found
    cases found
    rw [same, noted]
    exact tracks.latest_here place
  · rw [SortedMap.get?_insert_of_ne same] at found
    exact tracks.latest_there same found live

/-- Noting the accesses of an operation keeps track of every live session. -/
theorem Effect.tracks {accessed : List Ref} {ending : Option Phase}
    (effect : Effect s s' order accessed ending) (tracks : Tracks past s) :
    Tracks (past ++ accessed.map (·, s.now)) s' := by
  refine ⟨fun ref time member => ?_, fun ref x found live => ?_⟩
  · apply Nat.le_trans _ effect.now_le
    rcases List.mem_append.mp member with old | new
    · exact tracks.before ref time old
    · obtain ⟨_, _, same⟩ := List.mem_map.mp new
      cases same
      exact Nat.le_refl _
  cases effect with
  | aside sessions _ _ =>
    rw [List.map_nil, List.append_nil]
    exact tracks.latest ref x (sessions ▸ found) live
  | @visited here visit =>
    by_cases same : ref = here
    · subst same
      obtain ⟨y, _, served⟩ := visit.toTouch.some_of_some found
      rw [served.noted (served.lasts.symm.trans live)]
      exact tracks.latest_here ref
    · exact tracks.latest_there same ((visit.others ref same).symm.trans found) live
  | alone after =>
    rw [after] at found
    exact tracks.latest_put rfl found live
  | opened _ after =>
    rw [after] at found
    exact tracks.latest_put rfl found live
  | @evicted phase entries final _ after =>
    rw [List.map_nil, List.append_nil]
    rw [after, get?_evictAll s final] at found
    obtain ⟨y, was, kept⟩ := Option.map_eq_some_iff.mp found
    split at kept
    · rw [← kept, y.terminate_final final] at live
      cases live
    · exact tracks.latest ref x (kept ▸ was) live

/-- The entries of the registry that a sweep takes out. -/
def swept (s : Service) (order : List String) : List (String × Ref) :=
  (s.registry.arranged order).filter fun entry => s.isSpent entry.2

theorem reap_of_expires (expires : s.registry.settings.expires = true) (order : List String) :
    s.reap order = (s.evictAll .expired (s.swept order), (s.swept order).map (·.1)) := by
  rw [reap, if_pos expires, reapAll_eq]
  rfl

theorem listed_swept (s : Service) (order : List String) : s.Listed (s.swept order) :=
  listed_of_sublist List.filter_sublist

end Service

namespace World
open Service
variable {w : World} {past : List (Ref × Nat)} {settings : RegistrySettings} {order : List String}

/-- The accesses that operations make of sessions, and when. -/
def accesses (w : World) (operations : List Operation) : List (Ref × Nat) :=
  w.trace (fun w operation => (operation.accesses w).map (·, w.service.now)) operations

theorem run_tracks (sound : w.Sound) (tracks : w.service.Tracks past)
    (operations : List Operation) :
    (w.run operations).service.Tracks (past ++ w.accesses operations) := by
  have step (past : List (Ref × Nat)) (w : World) (operation : Operation)
      (kept : w.Sound ∧ w.service.Tracks past) :=
    And.intro (perform_sound kept.1 operation) ((perform_effect kept.1 operation).tracks kept.2)
  exact (run_trace step ⟨sound, tracks⟩ operations).2

/-- No call of a session is under way, and each access of it was longer ago than it may be idle. -/
def Lapsed (w : World) (past : List (Ref × Nat)) (settings : SessionSettings) (ref : Ref) : Prop :=
  w.underWay ref = 0 ∧
    ∀ time, (ref, time) ∈ past → time + settings.timeToLive * 1000000000 < w.service.now

/-- The sessions in the registry that may go are those that lapsed. -/
theorem isSpent_iff_lapsed (sound : w.Sound) (registered : w.service.Registered settings)
    (tracks : w.service.Tracks past) {id : String} {ref : Ref}
    (known : w.service.registry.live.get? id = some ref) :
    w.service.isSpent ref = true ↔ w.Lapsed past settings.session ref := by
  obtain ⟨x, found, _, live, told⟩ := registered.live id ref known
  obtain ⟨member, latest⟩ := tracks.latest ref x found live
  have counted := sound.counted ref x found
  have idle : w.service.isSpent ref = true ↔ x.busy = 0 ∧
      settings.session.timeToLive * 1000000000 < w.service.now - x.lastAccess := by
    simp [isSpent, found, live, Session.isIdle, told]
  rw [idle, Lapsed, counted]
  refine and_congr_right fun _ => ⟨fun longer time noted => ?_, fun longer => ?_⟩
  · have := latest time noted
    omega
  · have := longer x.lastAccess member
    omega

theorem mem_swept_iff (sound : w.Sound) (registered : w.service.Registered settings)
    (tracks : w.service.Tracks past) {id : String} {ref : Ref} :
    (id, ref) ∈ w.service.swept order ↔
      w.service.registry.live.get? id = some ref ∧ w.Lapsed past settings.session ref := by
  rw [swept, List.mem_filter, Registry.mem_arranged]
  exact and_congr_right fun known => isSpent_iff_lapsed sound registered tracks known

/-- A sweep after any operations, in any order and also while refinements are under way. If sessions
expire at all, it takes out those in the registry that lapsed since they were created, found or
called the last time, answers their ids and forgets their feedback; every other session stays in the
registry and as it is. If they do not expire, nothing happens. -/
theorem reap_of_run (files : FileTree) (descriptors : Store Descriptor)
    (results : Store Classification) (settings : RegistrySettings) (label : Option String)
    (operations : List Operation) (order : List String) :
    let begun := fresh files descriptors results settings label
    let w := begun.run operations
    let s := w.service
    let lapsed := w.Lapsed (begun.accesses operations) settings.session
    (settings.expires = false → s.reap order = (s, [])) ∧
      (settings.expires = true →
        (s.reap order).2.Nodup ∧
        (∀ id, id ∈ (s.reap order).2 ↔ ∃ ref, s.registry.live.get? id = some ref ∧ lapsed ref) ∧
        (∀ id ref, (s.reap order).1.registry.live.get? id = some ref ↔
          s.registry.live.get? id = some ref ∧ ¬ lapsed ref) ∧
        (∀ id ref x, s.registry.live.get? id = some ref → lapsed ref →
          s.sessions.get? ref = some x →
          (s.reap order).1.sessions.get? ref = some { x with phase := .expired, feedback := .empty }) ∧
        ∀ ref, (∀ id, s.registry.live.get? id = some ref → ¬ lapsed ref) →
          (s.reap order).1.sessions.get? ref = s.sessions.get? ref) := by
  intro begun w s lapsed
  have sound : w.Sound := run_sound (fresh_sound files descriptors results settings label) operations
  have registered : s.Registered settings := run_registered (fresh_sound _ _ _ _ _)
    (fresh_registered files descriptors results settings label) operations
  have tracks : s.Tracks (begun.accesses operations) := by
    have nothing : begun.service.Tracks [] := by
      refine ⟨fun _ _ member => absurd member List.not_mem_nil, fun ref x found => ?_⟩
      cases found
    exact run_tracks (fresh_sound _ _ _ _ _) nothing operations
  have mem_iff {id : String} {ref : Ref} : (id, ref) ∈ s.swept order ↔
      s.registry.live.get? id = some ref ∧ lapsed ref := mem_swept_iff sound registered tracks
  have goes_iff {id : String} : id ∈ (s.swept order).map (·.1) ↔
      ∃ ref, s.registry.live.get? id = some ref ∧ lapsed ref := by
    simp [← mem_iff]
  have ends_iff {ref : Ref} : ref ∈ (s.swept order).map (·.2) ↔
      ∃ id, s.registry.live.get? id = some ref ∧ lapsed ref := by
    simp [← mem_iff]
  refine ⟨fun never => ?_, fun expires => ?_⟩
  · rw [Service.reap, registered.configured, never]
    rfl
  rw [reap_of_expires (registered.configured.symm ▸ expires)]
  refine ⟨?_, fun _ => goes_iff, fun id ref => ?_, fun id ref x known gone found => ?_,
    fun ref stays => ?_⟩
  · exact (List.filter_sublist.map _).nodup Registry.nodup_arranged
  · rw [live_evictAll]
    split
    · rename_i goes
      obtain ⟨ref', known, gone⟩ := goes_iff.mp goes
      refine ⟨nofun, fun both => ?_⟩
      cases known.symm.trans both.1
      exact absurd gone both.2
    · rename_i stays
      exact ⟨fun known => ⟨known, fun gone => stays (goes_iff.mpr ⟨ref, known, gone⟩)⟩, And.left⟩
  · obtain ⟨x', found', _, live, _⟩ := registered.live id ref known
    cases found.symm.trans found'
    rw [get?_evictAll s rfl, found, Option.map_some, if_pos (ends_iff.mpr ⟨id, known, gone⟩),
      Session.terminate_of_live live]
  · have kept : ref ∉ (s.swept order).map (·.2) := by
      intro ended
      obtain ⟨id, known, gone⟩ := ends_iff.mp ended
      exact stays id known gone
    rw [get?_evictAll s rfl]
    simp only [kept, if_false, Option.map_id']

/-- A session that may be idle for a second stays for exactly that second. -/
example :
    let w := (fresh ⟨default, 0⟩ (.memory ∅) (.memory ∅) ⟨⟨1, 200⟩, true, 30, 1⟩ none).run
      [.openSession "s" 0 ⟨fun _ _ _ => .ok []⟩, .advance 1000000000]
    (w.service.reap []).2 = [] ∧ ((w.service.advance 1).reap []).2 = ["s"] := by
  decide +kernel

end World
end Retrieval
