import Retrieval.Proofs.Service.World

/-!
An operation touches one session and leaves the others alone; the calls of a session also leave the
registry and the clock alone. Where the session takes a turn and its calls are counted, the world
stays sound (`World.Sound.touch`).
-/
namespace Retrieval
variable {ref : Ref} {s s' s'' : Service} {rel rel' : Session → Session → Prop}

namespace Service

/-- The session at `ref` is changed as `rel` tells, if there is one, and no other session is. -/
structure Touch (ref : Ref) (rel : Session → Session → Prop) (before after : Service) : Prop where
  others : ∀ other, other ≠ ref → after.sessions.get? other = before.sessions.get? other
  here : Option.Rel rel (before.sessions.get? ref) (after.sessions.get? ref)

theorem Touch.mono (touch : Touch ref rel s s')
    (weaker : ∀ x y, s.sessions.get? ref = some x → rel x y → rel' x y) : Touch ref rel' s s' := by
  refine ⟨touch.others, ?_⟩
  have here := touch.here
  generalize s.sessions.get? ref = before, s'.sessions.get? ref = after at here weaker ⊢
  cases here with
  | some change => exact .some (weaker _ _ rfl change)
  | none => exact .none

theorem Touch.trans (first : Touch ref rel s s') (second : Touch ref rel' s' s'') :
    Touch ref (fun x z => ∃ y, rel x y ∧ rel' y z) s s'' := by
  refine ⟨?_, ?_⟩
  · intro other different
    exact (second.others other different).trans (first.others other different)
  have here := first.here
  have there := second.here
  generalize s.sessions.get? ref = before, s'.sessions.get? ref = between,
    s''.sessions.get? ref = after at here there ⊢
  cases here with
  | some change =>
    cases there with
    | some change' => exact .some ⟨_, change, change'⟩
  | none =>
    cases there with
    | none => exact .none

/-- Nothing was touched if the sessions are the same. -/
theorem Touch.of_eq (reflexive : ∀ x, rel x x) (same : s'.sessions = s.sessions) :
    Touch ref rel s s' := by
  refine ⟨fun other _ => by rw [same], ?_⟩
  rw [same]
  cases s.sessions.get? ref with
  | some x => exact .some (reflexive x)
  | none => exact .none

theorem Touch.put {x y : Session} (same : s'.sessions = s.sessions)
    (found : s.sessions.get? ref = some x) (change : rel x y) :
    Touch ref rel s (s'.putSession ref y) := by
  refine ⟨fun other different => ?_, ?_⟩
  · show (s'.sessions.insert ref y).get? other = _
    rw [SortedMap.get?_insert_of_ne different, same]
  · show Option.Rel rel _ ((s'.sessions.insert ref y).get? ref)
    rw [SortedMap.get?_insert_self, found]
    exact .some change

theorem Touch.some_of_some {y : Session} (touch : Touch ref rel s s')
    (found : s'.sessions.get? ref = some y) : ∃ x, s.sessions.get? ref = some x ∧ rel x y := by
  have here := touch.here
  rw [found] at here
  generalize s.sessions.get? ref = before at here ⊢
  cases here with
  | some change => exact ⟨_, rfl, change⟩

theorem Touch.exists_after {x : Session} (touch : Touch ref rel s s')
    (found : s.sessions.get? ref = some x) : ∃ y, s'.sessions.get? ref = some y ∧ rel x y := by
  have here := touch.here
  rw [found] at here
  generalize s'.sessions.get? ref = after at here ⊢
  cases here with
  | some change => exact ⟨_, rfl, change⟩

theorem Touch.keys (touch : Touch ref rel s s') : s'.sessions.keys = s.sessions.keys := by
  apply SortedMap.keys_eq_of_ascending s.sessions.keys_ascending
  intro other
  rw [SortedMap.mem_keys, SortedMap.contains, SortedMap.contains]
  by_cases same : other = ref
  · subst same
    have here := touch.here
    generalize s.sessions.get? other = before, s'.sessions.get? other = after at here ⊢
    cases here <;> simp
  · rw [touch.others other same]

/-- Sessions, registry and clock are the same; indexes, stores and files may differ. -/
structure Aside (before after : Service) : Prop where
  sessions : after.sessions = before.sessions
  registry : after.registry = before.registry
  now : after.now = before.now

theorem Aside.refl (s : Service) : Aside s s := ⟨rfl, rfl, rfl⟩

/-- One session is touched, and the registry and the clock are left alone. -/
structure Visit (ref : Ref) (rel : Session → Session → Prop) (before after : Service) : Prop
    extends Touch ref rel before after where
  registry : after.registry = before.registry
  now : after.now = before.now

theorem Visit.mono (visit : Visit ref rel s s')
    (weaker : ∀ x y, s.sessions.get? ref = some x → rel x y → rel' x y) : Visit ref rel' s s' :=
  ⟨visit.toTouch.mono weaker, visit.registry, visit.now⟩

theorem Visit.trans (first : Visit ref rel s s') (second : Visit ref rel' s' s'') :
    Visit ref (fun x z => ∃ y, rel x y ∧ rel' y z) s s'' :=
  ⟨first.toTouch.trans second.toTouch, second.registry.trans first.registry,
    second.now.trans first.now⟩

theorem Visit.of_aside (aside : Aside s s') (reflexive : ∀ x, rel x x) : Visit ref rel s s' :=
  ⟨.of_eq reflexive aside.sessions, aside.registry, aside.now⟩

theorem Visit.put {x y : Session} (aside : Aside s s') (found : s.sessions.get? ref = some x)
    (change : rel x y) : Visit ref rel s (s'.putSession ref y) :=
  ⟨.put aside.sessions found change, aside.registry, aside.now⟩

end Service

namespace World
open Service
variable {w w' : World}

/-- A refinement is awaited on, whatever turn its session takes. -/
theorem Awaits.touch {r : Refinement} (awaits : Awaits s r)
    (touch : Touch ref Session.Turn s s') : Awaits s' r := by
  obtain ⟨x, found, kept, seeded⟩ := awaits.session
  refine ⟨awaits.positives, ?_⟩
  by_cases same : r.session = ref
  · rw [same] at found ⊢
    obtain ⟨y, found', turn⟩ := touch.exists_after found
    refine ⟨y, found', Nat.le_trans kept turn.resets_le, fun unreset created => ?_⟩
    have both : y.resets = x.resets :=
      Nat.le_antisymm (unreset ▸ kept) turn.resets_le
    exact seeded (both.symm.trans unreset) (turn.created_of_created both created)
  · exact ⟨x, (touch.others _ same).trans found, kept, seeded⟩

/-- A world stays sound when one session takes a turn, as long as its calls are counted and what is
newly pending is awaited. -/
theorem Sound.touch (sound : w.Sound)
    (touch : Touch ref (fun x y => x.Turn y ∧ y.busy + w.underWay ref = x.busy + w'.underWay ref)
      w.service w'.service)
    (others : ∀ other, other ≠ ref → w'.underWay other = w.underWay other)
    (pending : ∀ r ∈ w'.pending, r ∈ w.pending ∨ Awaits w'.service r) : w'.Sound := by
  have turns : Touch ref Session.Turn w.service w'.service :=
    touch.mono fun _ _ _ change => change.1
  refine ⟨?_, ?_, ?_, ?_⟩
  · have size : w'.service.sessions.size = w.service.sessions.size := by
      rw [← SortedMap.length_keys, turns.keys, SortedMap.length_keys]
    rw [turns.keys, size, sound.placed]
  · intro other y found
    by_cases same : other = ref
    · rw [same] at found
      obtain ⟨x, was, turn⟩ := turns.some_of_some found
      exact turn.consistent (sound.consistent ref x was)
    · exact sound.consistent other y ((turns.others other same).symm.trans found)
  · intro other y found
    by_cases same : other = ref
    · rw [same] at found ⊢
      obtain ⟨x, was, _, counted⟩ := touch.some_of_some found
      have before := sound.counted ref x was
      omega
    · rw [others other same]
      exact sound.counted other y ((turns.others other same).symm.trans found)
  · intro r member
    rcases pending r member with old | new
    · exact (sound.awaited r old).touch turns
    · exact new

/-- Changes of a session within the same calls keep a world sound. -/
theorem Sound.of_touch (sound : w.Sound)
    (touch : Touch ref Session.Change w.service s) : (World.mk s w.pending).Sound := by
  refine sound.touch (touch.mono ?_) (fun _ _ => rfl) (fun _ member => .inl member)
  intro x y _ change
  exact ⟨change.turn, congrArg (· + w.underWay ref) change.busy⟩

theorem Sound.of_sessions (sound : w.Sound) (same : s.sessions = w.service.sessions) :
    (World.mk s w.pending).Sound := by
  obtain ⟨placed, consistent, counted, awaited⟩ := sound
  refine ⟨?_, ?_, ?_, ?_⟩
  · rwa [same]
  · rwa [same]
  · rw [same]
    exact counted
  · intro r member
    obtain ⟨positives, session⟩ := awaited r member
    exact ⟨positives, by rwa [same]⟩

theorem Sound.lt_size (sound : w.Sound) {x : Session}
    (found : w.service.sessions.get? ref = some x) : ref < w.service.sessions.size := by
  rw [← List.mem_range, ← sound.placed, SortedMap.mem_keys]
  exact SortedMap.contains_iff.mpr ⟨x, found⟩

theorem keys_insert_size {x : Session} {sessions : SortedMap Ref Session}
    (placed : sessions.keys = List.range sessions.size) :
    (sessions.insert sessions.size x).keys = List.range (sessions.size + 1) := by
  refine SortedMap.keys_eq_of_ascending ?_ fun other => ?_
  · exact List.pairwise_lt_range.imp fun before => Nat.compare_eq_lt.mpr before
  · have old : other ∈ List.range sessions.size ↔ sessions.contains other = true := by
      rw [← placed, SortedMap.mem_keys]
    rw [List.mem_range, Nat.lt_succ_iff_lt_or_eq, ← List.mem_range, old]
    by_cases same : other = sessions.size
    · rw [same, SortedMap.contains, SortedMap.contains, SortedMap.get?_insert_self]
      simp
    · rw [SortedMap.contains, SortedMap.contains, SortedMap.get?_insert_of_ne same]
      simp [same]

/-- A new session gets a place of its own, and no call of it is under way. -/
theorem Sound.add (sound : w.Sound) {x : Session} (consistent : x.Consistent) (idle : x.busy = 0) :
    (World.mk (w.service.addSession x).1 w.pending).Sound := by
  have keys := keys_insert_size (x := x) sound.placed
  have here : (w.service.addSession x).1.sessions.get? w.service.sessions.size = some x :=
    SortedMap.get?_insert_self _ _ _
  have elsewhere {other : Ref} (different : other ≠ w.service.sessions.size) :
      (w.service.addSession x).1.sessions.get? other = w.service.sessions.get? other :=
    SortedMap.get?_insert_of_ne different
  have old {r : Refinement} (member : r ∈ w.pending) : r.session ≠ w.service.sessions.size := by
    obtain ⟨_, found, _⟩ := (sound.awaited r member).session
    exact Nat.ne_of_lt (sound.lt_size found)
  refine ⟨?_, ?_, ?_, ?_⟩
  · have size : (w.service.sessions.insert w.service.sessions.size x).size =
        w.service.sessions.size + 1 := by
      rw [← SortedMap.length_keys, keys, List.length_range]
    show (w.service.sessions.insert w.service.sessions.size x).keys =
      List.range (w.service.sessions.insert w.service.sessions.size x).size
    rw [keys, size]
  · intro other y found
    by_cases same : other = w.service.sessions.size
    · rw [same, here] at found
      cases found
      exact consistent
    · exact sound.consistent other y ((elsewhere same).symm.trans found)
  · intro other y found
    by_cases same : other = w.service.sessions.size
    · rw [same, here] at found
      cases found
      rw [idle, same]
      symm
      apply List.countP_eq_zero.mpr
      intro r member
      simpa using old member
    · exact sound.counted other y ((elsewhere same).symm.trans found)
  · intro r member
    obtain ⟨positives, z, found, kept⟩ := sound.awaited r member
    exact ⟨positives, z, (elsewhere (old member)).trans found, kept⟩

end World
end Retrieval
