import Retrieval.Proofs.Index.Run

/-!
What a call of an index that fails leaves behind, whatever lengths the codes of its hasher have.
Every such call leaves the index as it was, but for an update whose codes the search refuses: that
one has already filed its batch (`Index.failed_of_run`).
-/
namespace Retrieval

/-- A list of codes is refused for a code that is not as long as the one before it or the codes
held. -/
theorem commonLength_error {held : Option Nat} {codes : List Code} {e : Error}
    (refused : commonLength held codes = .error e) :
    ∃ code ∈ codes, ∃ length, code.length ≠ length ∧
      e = .invalidConfig (.mixedLengths code.length length) ∧
      (held = some length ∨ ∃ other ∈ codes, other.length = length) := by
  induction codes generalizing held with
  | nil => cases refused
  | cons code rest ih =>
    unfold commonLength at refused
    cases held with
    | none =>
      obtain ⟨odd, member, length, apart, told, first | ⟨other, there, same⟩⟩ := ih refused
      · refine ⟨odd, List.mem_cons_of_mem _ member, length, apart, told, .inr ⟨code, ?_, ?_⟩⟩
        · exact List.mem_cons_self
        · exact Option.some.inj first
      · exact ⟨odd, List.mem_cons_of_mem _ member, length, apart, told,
          .inr ⟨other, List.mem_cons_of_mem _ there, same⟩⟩
    | some length =>
      dsimp only at refused
      split at refused
      · obtain ⟨odd, member, other, apart, told, first | ⟨other', there, same⟩⟩ := ih refused
        · exact ⟨odd, List.mem_cons_of_mem _ member, other, apart, told, .inl first⟩
        · exact ⟨odd, List.mem_cons_of_mem _ member, other, apart, told,
            .inr ⟨other', List.mem_cons_of_mem _ there, same⟩⟩
      · rename_i apart
        exact ⟨code, List.mem_cons_self, length, apart, (Except.error.inj refused).symm, .inl rfl⟩

theorem CodeIndex.update_error {ix : CodeIndex} {codes : List Code} {e : Error} (sound : ix.Sound)
    (refused : ix.update codes = .error e) :
    ∃ code ∈ codes, ∃ other, (other ∈ codes ∨ other ∈ ix.members) ∧ code.length ≠ other.length ∧
      e = .invalidConfig (.mixedLengths code.length other.length) := by
  have flat := flat_update sound codes
  rw [refused] at flat
  unfold CodeScan.update at flat
  cases agreed : commonLength ix.flat.codeLength codes with
  | ok held =>
    rw [agreed] at flat
    cases flat
  | error e' =>
    rw [agreed] at flat
    cases flat
    obtain ⟨code, member, length, apart, told, held | ⟨other, there, rfl⟩⟩ :=
      commonLength_error agreed
    · have some_code : ¬ ∀ code, code ∉ ix.flat.members := by
        intro none
        rw [sound.flat.unset none] at held
        cases held
      obtain ⟨other, there⟩ := Classical.not_forall_not.mp some_code
      cases (sound.flat.alike other there).symm.trans held
      rw [flat_members] at there
      exact ⟨code, member, other, .inr there, apart, told⟩
    · exact ⟨code, member, other, .inl there, apart, told⟩

namespace Contents
variable {c : Contents}

/-- The codes to be taken up by the search cannot all be, for two of these and those it has differ
in length. -/
structure Misfits (c : Contents) (codes : List Code) (e : Error) : Prop where
  unheld : ∃ code ∈ codes, c.buckets.contains code = true ∧ code ∉ c.search.members
  lengths : ∃ code ∈ codes, ∃ other, (other ∈ codes ∨ other ∈ c.search.members) ∧
    code.length ≠ other.length ∧ e = .invalidConfig (.mixedLengths code.length other.length)

/-- Bringing the search over succeeds, or a fresh code does not fit. A search that refuses a code
has taken up none. -/
theorem sync_cases (sound : c.search.Sound) (emptied fresh : List Code) :
    ∃ search, search.Sound ∧
      (c.sync emptied fresh = ({ c with search := search }, .ok ()) ∨
      ∃ e, c.sync emptied fresh = ({ c with search := search }, .error e) ∧ c.Misfits fresh e ∧
        ∀ code ∈ search.members, code ∈ c.search.members) := by
  unfold sync
  dsimp only
  have gone (code : Code) (member : code ∈ (SortedSet.ofList emptied).toList.filter fun code =>
      !c.buckets.contains code && c.search.contains code) : code ∈ c.search.members := by
    rw [List.mem_filter, Bool.and_eq_true] at member
    exact member.2.2
  have come (code : Code) (member : code ∈ (SortedSet.ofList fresh).toList.filter fun code =>
      c.buckets.contains code && !c.search.contains code) :
      code ∈ fresh ∧ c.buckets.contains code = true ∧ code ∉ c.search.members := by
    simpa [CodeIndex.contains] using member
  generalize (SortedSet.ofList emptied).toList.filter (fun code =>
    !c.buckets.contains code && c.search.contains code) = going at gone ⊢
  generalize (SortedSet.ofList fresh).toList.filter (fun code =>
    c.buckets.contains code && !c.search.contains code) = coming at come ⊢
  obtain ⟨rest, removed, restSound, fewer⟩ : ∃ rest,
      (if going.isEmpty then .ok c.search else c.search.remove going) = Except.ok rest ∧
        rest.Sound ∧ ∀ code ∈ rest.members, code ∈ c.search.members := by
    cases going with
    | nil => exact ⟨c.search, rfl, sound, fun _ member => member⟩
    | cons code more =>
      obtain ⟨rest, removed, restSound, _, members⟩ := CodeIndex.exists_remove sound gone
      exact ⟨rest, removed, restSound, fun code member => ((members code).mp member).2⟩
  rw [removed]
  cases coming with
  | nil => exact ⟨rest, restSound, .inl rfl⟩
  | cons first more =>
    cases updated : rest.update (first :: more) with
    | ok search =>
      refine ⟨search, CodeIndex.update_sound restSound updated, .inl ?_⟩
      simp only [List.isEmpty_cons, Bool.false_eq_true, if_false, updated]
    | error e =>
      obtain ⟨code, member, other, there, apart, told⟩ := CodeIndex.update_error restSound updated
      obtain ⟨isFresh, here, absent⟩ := come code member
      refine ⟨rest, restSound, .inr ⟨e, ?_, ⟨⟨code, isFresh, here, absent⟩, code, isFresh, other,
        there.imp (fun there => (come other there).1) (fewer other), apart, told⟩, fewer⟩⟩
      simp only [List.isEmpty_cons, Bool.false_eq_true, if_false, updated]

theorem empty_sound {kind : CodeSearch} (made : empty kind = .ok c) : c.search.Sound := by
  cases kind with
  | linear =>
    cases made
    exact LengthOf.empty
  | ballTree leafSize =>
    simp only [empty, CodeSearch.create, BallTree.create] at made
    by_cases unusable : leafSize = 0
    · rw [if_pos unusable] at made
      cases made
    · rw [if_neg unusable] at made
      cases made
      exact BallTree.empty_sound leafSize

theorem plant_sound {planted : Contents} (done : c.plant = .ok planted) : planted.search.Sound := by
  unfold plant at done
  cases built : c.search.build c.buckets.keys with
  | error e =>
    rw [built] at done
    cases done
  | ok search =>
    rw [built] at done
    cases done
    exact CodeIndex.build_sound built

end Contents

namespace Index
variable {ix : Index}

/-- An update that files its batch and then fails: the search refuses the codes, so it has lost
those that the batch emptied and has none of the others. -/
inductive Torn (ix : Index) : IndexCall → Error → Index → Prop
  | update {read : ReadVector} {keys : List Key} {hashed : List (Key × Code)} {e : Error}
      {search : CodeIndex} (hashes : ix.hasher.hashAll read keys = .ok hashed)
      (misfits : (ix.contents.assignAll hashed).1.Misfits (ix.contents.assignAll hashed).2.2 e)
      (fewer : ∀ code ∈ search.members, code ∈ ix.contents.search.members) :
    Torn ix (.update read keys) e
      { ix with contents := { (ix.contents.assignAll hashed).1 with search := search } }

/-- A batch is only refused for a code that no id had before, unless the search had already missed
one. -/
theorem Torn.ne {call : IndexCall} {e : Error} {after : Index} (torn : ix.Torn call e after)
    (inStep : ∀ code, ix.contents.buckets.contains code = true →
      code ∈ ix.contents.search.members) :
    after ≠ ix := by
  cases torn with
  | update hashes misfits fewer =>
    obtain ⟨code, _, here, absent⟩ := misfits.unheld
    rw [Contents.assignAll_search] at absent
    intro same
    have buckets := congrArg (·.contents.buckets) same
    dsimp only at buckets
    rw [buckets] at here
    exact absent (inStep code here)

theorem update_sound (sound : ix.contents.search.Sound) (read : ReadVector) (keys : List Key) :
    (ix.update read keys).1.contents.search.Sound ∧
      ∀ e, (ix.update read keys).2 = .error e →
        (ix.update read keys).1 = ix ∨ ix.Torn (.update read keys) e (ix.update read keys).1 := by
  unfold update
  cases hashes : ix.hasher.hashAll read keys with
  | error e => exact ⟨sound, fun _ _ => .inl rfl⟩
  | ok hashed =>
    dsimp only
    have kept := Contents.assignAll_search ix.contents hashed
    obtain ⟨search, searchSound, synced | ⟨e, synced, misfits, fewer⟩⟩ :=
      Contents.sync_cases (kept ▸ sound) (ix.contents.assignAll hashed).2.1
        (ix.contents.assignAll hashed).2.2
    · rw [synced]
      refine ⟨searchSound, ?_⟩
      intro e failed
      cases failed
    · rw [synced]
      refine ⟨searchSound, ?_⟩
      intro e' failed
      cases failed
      exact .inr (.update hashes misfits (kept ▸ fewer))

theorem remove_sound (sound : ix.contents.search.Sound) (ids : List String) :
    (ix.remove ids).1.contents.search.Sound ∧
      ∀ e, (ix.remove ids).2 = .error e → (ix.remove ids).1 = ix := by
  unfold remove
  split
  · exact ⟨sound, fun _ _ => rfl⟩
  · dsimp only
    have kept := (Contents.removeAll_frame ix.contents ids).1
    obtain ⟨search, searchSound, synced | ⟨e, synced, misfits, _⟩⟩ :=
      Contents.sync_cases (kept ▸ sound) (ix.contents.removeAll ids).2.1 []
    · rw [synced]
      refine ⟨searchSound, ?_⟩
      intro e failed
      cases failed
    · obtain ⟨_, member, _⟩ := misfits.unheld
      cases member

theorem build_sound {after : Index} {read : ReadVector} {keys : List Key}
    (built : ix.build read keys = .ok after) : after.contents.search.Sound := by
  unfold build at built
  dsimp only at built
  split at built
  · cases built
  · obtain ⟨hashed, _, built⟩ := exists_of_bind_ok built
    obtain ⟨staged, _, built⟩ := exists_of_bind_ok built
    obtain ⟨contents, planted, built⟩ := exists_of_bind_ok built
    cases built
    exact Contents.plant_sound planted

theorem reset_sound {after : Index} (done : ix.reset = .ok after) :
    after.contents.search.Sound := by
  unfold reset at done
  cases made : Contents.empty ix.settings.search with
  | error e =>
    rw [made] at done
    cases done
  | ok contents =>
    rw [made] at done
    cases done
    exact Contents.empty_sound made

theorem load_sound {after : Index} {artifact : Artifact} {label : String}
    (loaded : ix.load artifact label = .ok after) : after.contents.search.Sound := by
  unfold load at loaded
  obtain ⟨_, _, loaded⟩ := exists_of_bind_ok loaded
  dsimp only at loaded
  split at loaded
  · cases loaded
  · obtain ⟨empty, _, loaded⟩ := exists_of_bind_ok loaded
    obtain ⟨contents, planted, loaded⟩ := exists_of_bind_ok loaded
    split at loaded
    · cases loaded
    · cases loaded
      exact Contents.plant_sound planted

theorem settle_sound {change : Except Error Index} (sound : ix.contents.search.Sound)
    (changed : ∀ after, change = .ok after → after.contents.search.Sound) :
    (ix.settle change).1.contents.search.Sound ∧
      ∀ e, (ix.settle change).2 = .error e → (ix.settle change).1 = ix := by
  cases change with
  | error e => exact ⟨sound, fun _ _ => rfl⟩
  | ok after =>
    refine ⟨changed after rfl, ?_⟩
    intro e failed
    cases failed

/-- Every call keeps the search sound, and one that fails keeps the index, or else is a torn update.
-/
theorem step_sound (sound : ix.contents.search.Sound) (call : IndexCall) :
    (ix.step call).1.contents.search.Sound ∧
      ∀ e, (ix.step call).2 = .error e →
        (ix.step call).1 = ix ∨ ix.Torn call e (ix.step call).1 := by
  cases call with
  | update read keys => exact update_sound sound read keys
  | remove ids =>
    obtain ⟨after, unchanged⟩ := remove_sound sound ids
    exact ⟨after, fun e failed => .inl (unchanged e failed)⟩
  | build read keys =>
    obtain ⟨after, unchanged⟩ := settle_sound sound fun after built => build_sound built
    exact ⟨after, fun e failed => .inl (unchanged e failed)⟩
  | reset =>
    obtain ⟨after, unchanged⟩ := settle_sound sound fun after done => reset_sound done
    exact ⟨after, fun e failed => .inl (unchanged e failed)⟩
  | load artifact label =>
    obtain ⟨after, unchanged⟩ := settle_sound sound fun after loaded => load_sound loaded
    exact ⟨after, fun e failed => .inl (unchanged e failed)⟩

theorem run_sound (sound : ix.contents.search.Sound) (calls : List IndexCall) :
    (ix.run calls).1.contents.search.Sound := by
  induction calls generalizing ix with
  | nil => exact sound
  | cons call rest ih => exact ih (step_sound sound call).1

theorem create_sound {hasher : Hasher} {settings : IndexSettings} {metrics : Bool}
    (created : Index.create hasher settings metrics = .ok ix) : ix.contents.search.Sound := by
  unfold create at created
  obtain ⟨_, _, created⟩ := exists_of_bind_ok created
  by_cases unusable : hasher.dimension = 0 ∨ hasher.bits = 0
  · rw [if_pos unusable] at created
    cases created
  · rw [if_neg unusable] at created
    obtain ⟨contents, made, created⟩ := exists_of_bind_ok created
    cases created
    exact Contents.empty_sound made

/-- A call that fails leaves the index as it was, whatever calls there were before it, unless it is
an update of codes that the search refuses. An index whose search had not missed a code is changed
by such an update. -/
theorem failed_of_run {hasher : Hasher} {settings : IndexSettings} {metrics : Bool}
    (created : Index.create hasher settings metrics = .ok ix) (calls : List IndexCall)
    (call : IndexCall) (e : Error) (failed : ((ix.run calls).1.step call).2 = .error e) :
    let before := (ix.run calls).1
    let after := (before.step call).1
    (after = before ∨ before.Torn call e after) ∧
      ((∀ code, before.contents.buckets.contains code = true →
          code ∈ before.contents.search.members) →
        before.Torn call e after → after ≠ before) := by
  have sound := run_sound (create_sound created) calls
  exact ⟨(step_sound sound call).2 e failed, fun inStep torn => torn.ne inStep⟩

/-- Hash to the signs, however many there are, into an index of codes of two bits. -/
def loose : Index := unbuilt (Hasher.signs 2 2) 1

/-- A batch of `n` ones under the id. -/
def ones (id : String) (n : Nat) : IndexCall :=
  .update (fun _ => .ok (List.replicate n ⟨0x3f800000⟩)) [⟨"kind", id⟩]

/-- A code of three bits does not go with one of two. -/
theorem loose_refuses : ((loose.run [ones "a" 2]).1.step (ones "b" 3)).2 =
    .error (.invalidConfig (.mixedLengths 3 2)) := by
  decide +kernel

theorem failed_of_run_loose :
    let before := (loose.run [ones "a" 2]).1
    let after := (before.step (ones "b" 3)).1
    let e : Error := .invalidConfig (.mixedLengths 3 2)
    (after = before ∨ before.Torn (ones "b" 3) e after) ∧
      ((∀ code, before.contents.buckets.contains code = true →
          code ∈ before.contents.search.members) →
        before.Torn (ones "b" 3) e after → after ≠ before) := by
  have created : create (Hasher.signs 2 2) ⟨.linear, 1⟩ false = .ok loose := rfl
  exact failed_of_run created [ones "a" 2] (ones "b" 3) _ loose_refuses

/-- The id of the refused code is indexed all the same. -/
theorem not_unchanged_of_failed :
    ¬ ∀ (hasher : Hasher) (settings : IndexSettings) (metrics : Bool) (ix : Index),
      Index.create hasher settings metrics = .ok ix → ∀ (calls : List IndexCall) (call : IndexCall)
        (e : Error), ((ix.run calls).1.step call).2 = .error e →
          ((ix.run calls).1.step call).1 = (ix.run calls).1 := by
  intro unchanged
  have same := unchanged (Hasher.signs 2 2) ⟨.linear, 1⟩ false loose rfl [ones "a" 2] (ones "b" 3)
    _ loose_refuses
  have there : ((loose.run [ones "a" 2]).1.step (ones "b" 3)).1.contains "b" = true := by
    decide +kernel
  have absent : (loose.run [ones "a" 2]).1.contains "b" = false := by decide +kernel
  rw [same, absent] at there
  cases there

end Index
end Retrieval
