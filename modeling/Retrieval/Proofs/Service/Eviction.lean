import Retrieval.Proofs.Service.Touch

/-!
Closing, reaping and draining all end sessions one after the other and take them out of the registry
(`evictAll`). What a sweep of idle sessions spares or ends is decided before it begins, for ending
one session does not make another one idle (`reapAll_eq`).
-/
namespace Retrieval

namespace Session
variable {phase : Phase}

theorem terminate_final (x : Session) (final : phase.isTerminal = true) :
    (x.terminate phase).phase.isTerminal = true := by
  unfold terminate
  split
  · assumption
  · exact final

theorem terminate_of_terminal {x : Session} (final : x.phase.isTerminal = true) (phase : Phase) :
    x.terminate phase = x := if_pos final

theorem terminate_of_live {x : Session} (live : x.phase.isTerminal = false) (phase : Phase) :
    x.terminate phase = { x with phase := phase, feedback := .empty } := by
  rw [terminate, live]
  rfl

end Session

/-! Orders -/

theorem arrange_perm (order : List String) (entries : List (String × Ref)) :
    (arrange order entries).Perm entries := by
  induction order generalizing entries with
  | nil => exact .refl entries
  | cons id rest ih => exact ((ih _).append_left _).trans (List.filter_append_perm _ entries)

/-- There is no order of entries that cannot be told by their ids. -/
theorem arrange_map_fst {entries told : List (String × Ref)} (same : told.Perm entries)
    (distinct : (entries.map (·.1)).Nodup) : arrange (told.map (·.1)) entries = told := by
  induction told generalizing entries with
  | nil => exact same.symm.eq_nil
  | cons entry rest ih =>
    have distinct' : ((entry :: rest).map (·.1)).Nodup :=
      (same.map _).nodup_iff.mpr distinct
    obtain ⟨other, _⟩ := List.nodup_cons.mp distinct'
    have apart : ∀ e ∈ rest, e.1 ≠ entry.1 := fun e member equal =>
      other (List.mem_map.mpr ⟨e, member, equal⟩)
    have here : entries.filter (·.1 = entry.1) = [entry] := by
      refine List.perm_singleton.mp ((same.symm.filter _).trans (.of_eq ?_))
      rw [List.filter_cons_of_pos (by simp), List.filter_eq_nil_iff.mpr (by simpa using apart)]
    have others : rest.Perm (entries.filter fun e => !(e.1 = entry.1)) := by
      refine .symm ((same.symm.filter _).trans (.of_eq ?_))
      rw [List.filter_cons_of_neg (by simp), List.filter_eq_self.mpr (by simpa using apart)]
    rw [List.map_cons, arrange, here, ih others ((List.filter_sublist.map _).nodup distinct)]
    rfl

namespace Registry
variable {r : Registry} {order : List String}

theorem arranged_perm (r : Registry) (order : List String) :
    (r.arranged order).Perm r.live.entries := arrange_perm _ _

theorem mem_arranged {entry : String × Ref} :
    entry ∈ r.arranged order ↔ r.live.get? entry.1 = some entry.2 :=
  (r.arranged_perm order).mem_iff.trans SortedMap.mem_entries_iff

theorem nodup_arranged : ((r.arranged order).map (·.1)).Nodup :=
  ((r.arranged_perm order).map _).nodup_iff.mpr r.live.nodup_keys

end Registry

namespace Service
open Session
variable {s : Service} {id : String} {ref : Ref} {phase : Phase}

/-- Entries of sessions that are in the registry. -/
def Listed (s : Service) (entries : List (String × Ref)) : Prop :=
  ∀ entry ∈ entries, s.registry.live.get? entry.1 = some entry.2

theorem listed_of_sublist {order : List String} {entries : List (String × Ref)}
    (part : entries.Sublist (s.registry.arranged order)) : s.Listed entries :=
  fun _ member => Registry.mem_arranged.mp (part.subset member)

/-- End the sessions of several entries in the given phase, one after the other. -/
def evictAll (s : Service) (phase : Phase) : List (String × Ref) → Service
  | [] => s
  | (id, ref) :: rest => (s.evict id ref phase).evictAll phase rest

theorem evict_touch (s : Service) (id : String) (ref : Ref) (final : phase.isTerminal = true) :
    Touch ref Change s (s.evict id ref phase) := by
  unfold evict
  cases found : s.sessions.get? ref with
  | none => exact .of_eq Change.refl rfl
  | some x =>
    have put : Touch ref Change s (s.putSession ref (x.terminate phase)) :=
      .put rfl found (terminate_change x final)
    exact ⟨put.others, put.here⟩

theorem evict_now (s : Service) (id : String) (ref : Ref) (phase : Phase) :
    (s.evict id ref phase).now = s.now := by
  unfold evict
  split <;> rfl

theorem evict_live (s : Service) (id : String) (ref : Ref) (phase : Phase) :
    (s.evict id ref phase).registry.live = s.registry.live.erase id := by
  unfold evict
  split <;> rfl

theorem evict_settings (s : Service) (id : String) (ref : Ref) (phase : Phase) :
    (s.evict id ref phase).registry.settings = s.registry.settings := by
  unfold evict
  split <;> rfl

theorem get?_evict (s : Service) (id : String) (ref other : Ref) (phase : Phase) :
    (s.evict id ref phase).sessions.get? other =
      (s.sessions.get? other).map fun x => if other = ref then x.terminate phase else x := by
  unfold evict
  by_cases same : other = ref
  · subst same
    cases found : s.sessions.get? other with
    | none => exact found
    | some x =>
      simp only [Option.map_some, if_true]
      exact SortedMap.get?_insert_self s.sessions other (x.terminate phase)
  · simp only [same, if_false, Option.map_id_fun', id_eq]
    split
    · rfl
    · exact SortedMap.get?_insert_of_ne same

/-! Several sessions -/

theorem evictAll_now (s : Service) (phase : Phase) (entries : List (String × Ref)) :
    (s.evictAll phase entries).now = s.now := by
  induction entries generalizing s with
  | nil => rfl
  | cons entry rest ih => exact (ih _).trans (evict_now s _ _ phase)

theorem evictAll_settings (s : Service) (phase : Phase) (entries : List (String × Ref)) :
    (s.evictAll phase entries).registry.settings = s.registry.settings := by
  induction entries generalizing s with
  | nil => rfl
  | cons entry rest ih => exact (ih _).trans (evict_settings s _ _ phase)

/-- The sessions of the entries are ended, and the others are left alone. -/
theorem get?_evictAll (s : Service) (final : phase.isTerminal = true)
    (entries : List (String × Ref)) (ref : Ref) :
    (s.evictAll phase entries).sessions.get? ref = (s.sessions.get? ref).map fun x =>
      if ref ∈ entries.map (·.2) then x.terminate phase else x := by
  induction entries generalizing s with
  | nil => simp [evictAll]
  | cons entry rest ih =>
    rw [evictAll, ih, get?_evict, Option.map_map]
    congr 1
    funext x
    have again : (x.terminate phase).terminate phase = x.terminate phase :=
      terminate_of_terminal (x.terminate_final final) phase
    simp only [Function.comp_apply, List.map_cons, List.mem_cons]
    by_cases here : ref = entry.2
    · simp [here, again]
    · simp only [here, if_false, false_or]

/-- The ids of the entries go, and the others stay. -/
theorem live_evictAll (s : Service) (phase : Phase) (entries : List (String × Ref)) (id : String) :
    (s.evictAll phase entries).registry.live.get? id =
      if id ∈ entries.map (·.1) then none else s.registry.live.get? id := by
  induction entries generalizing s with
  | nil => rfl
  | cons entry rest ih =>
    rw [evictAll, ih, evict_live]
    simp only [List.map_cons, List.mem_cons]
    by_cases here : id = entry.1
    · simp [here, SortedMap.get?_erase_self]
    · simp only [SortedMap.get?_erase_of_ne here, here, false_or]

theorem drain_eq (s : Service) (order : List String) :
    (s.drain order).1 = s.evictAll .closed (s.registry.arranged order) := by
  unfold drain
  generalize s.registry.arranged order = entries
  induction entries generalizing s with
  | nil => rfl
  | cons entry rest ih => exact ih (s.evict entry.1 entry.2 .closed)

/-- Ending a session that may go lets no other session go, nor does it keep one. -/
theorem isSpent_evict (spent : s.isSpent ref = true) (other : Ref) :
    (s.evict id ref .expired).isSpent other = s.isSpent other := by
  unfold isSpent
  rw [get?_evict, evict_now]
  by_cases same : other = ref
  · unfold isSpent at spent
    rw [same]
    cases found : s.sessions.get? ref with
    | none => rfl
    | some x =>
      have final : (x.terminate .expired).phase.isTerminal = true := x.terminate_final rfl
      rw [found, Option.any_some] at spent
      simp only [Option.map_some, Option.any_some, if_true, final, Bool.true_or, spent]
  · simp [same]

/-- A sweep ends exactly the sessions that may go when it begins. -/
theorem reapAll_eq (s : Service) (entries : List (String × Ref)) :
    s.reapAll entries = (s.evictAll .expired (entries.filter fun entry => s.isSpent entry.2),
      (entries.filter fun entry => s.isSpent entry.2).map (·.1)) := by
  induction entries generalizing s with
  | nil => rfl
  | cons entry rest ih =>
    obtain ⟨id, ref⟩ := entry
    unfold reapAll
    split
    · rename_i spent
      simp only [ih, isSpent_evict spent, List.filter_cons, spent, if_true, evictAll, List.map_cons]
    · rename_i kept
      simp only [ih, List.filter_cons, kept, if_false, Bool.false_eq_true]

end Service
end Retrieval
