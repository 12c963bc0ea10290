import Retrieval.Proofs.CodeIndex.Tree
import Retrieval.Proofs.Traversal

/-!
A sound index without its balls is a scan: every change of the index is the same change of that scan
(`flat_build`, `flat_update`, `flat_remove`). A query of either kind of index is answered with as
many codes as it should be (`nearest_gathered`), and these are the first of all in the order of hits
(`nearest_eq`), for which a tree needs distances that fit 32 bits.
-/
namespace Retrieval

theorem CodeScan.nearest_eq (s : CodeScan) (query : Code) (k : Nat) :
    s.nearest query k = (sortHits (s.members.toList.map (Hit.of query))).take k := by
  have size := length_sortHits s.members query
  unfold nearest
  dsimp only
  split
  · rename_i nothing
    rw [List.take_eq_take_min, size, nothing, List.take_zero]
  · rw [offerAll_nil, ← size, ← List.take_eq_take_min]

namespace CodeIndex
variable {ix : CodeIndex}

/-- The codes and their length, without the balls. -/
def flat : CodeIndex → CodeScan
  | tree t => ⟨t.members, t.codeLength⟩
  | scan s => s

/-- Whether queries try every code. -/
def isScan : CodeIndex → Bool
  | tree _ => false
  | scan _ => true

def Sound : CodeIndex → Prop
  | tree t => t.Sound
  | scan s => LengthOf s.members s.codeLength

theorem flat_members (ix : CodeIndex) : ix.flat.members = ix.members := by
  cases ix <;> rfl

theorem Sound.flat (sound : ix.Sound) : (scan ix.flat).Sound := by
  cases ix with
  | tree t => exact BallTree.Sound.lengths sound
  | scan s => exact sound

theorem flat_build (ix : CodeIndex) (codes : List Code) :
    (ix.build codes).map flat = ix.flat.build codes := by
  cases ix with
  | tree t =>
    simp only [build, BallTree.build, CodeScan.build]
    cases commonLength none codes <;> rfl
  | scan s =>
    simp only [build, CodeScan.build]
    cases commonLength none codes <;> rfl

theorem build_sound {after : CodeIndex} {codes : List Code} (built : ix.build codes = .ok after) :
    after.Sound := by
  cases ix with
  | tree t =>
    simp only [build] at built
    cases result : t.build codes with
    | error e => rw [result] at built; cases built
    | ok t' =>
      rw [result] at built
      cases built
      exact (BallTree.build_sound result).1
  | scan s =>
    simp only [build, CodeScan.build] at built
    cases agreed : commonLength none codes with
    | error e => rw [agreed] at built; cases built
    | ok held =>
      rw [agreed] at built
      cases built
      exact LengthOf.empty.agreed agreed (by simp)

theorem flat_update (sound : ix.Sound) (codes : List Code) :
    (ix.update codes).map flat = ix.flat.update codes := by
  cases ix with
  | tree t =>
    simp only [update, flat, CodeScan.update]
    cases result : t.update codes with
    | error e =>
      unfold BallTree.update at result
      cases agreed : commonLength t.codeLength codes with
      | error e' => rw [agreed] at result; cases result; rfl
      | ok held => rw [agreed] at result; cases result
    | ok t' =>
      obtain ⟨_, agreed, members⟩ := BallTree.update_sound sound result
      simp only [agreed]
      show Except.ok _ = Except.ok _
      rw [flat, members]
  | scan s =>
    simp only [update, flat, CodeScan.update]
    cases commonLength s.codeLength codes <;> rfl

theorem update_sound {after : CodeIndex} {codes : List Code} (sound : ix.Sound)
    (updated : ix.update codes = .ok after) : after.Sound := by
  cases ix with
  | tree t =>
    simp only [update] at updated
    cases result : t.update codes with
    | error e => rw [result] at updated; cases updated
    | ok t' =>
      rw [result] at updated
      cases updated
      exact (BallTree.update_sound sound result).1
  | scan s =>
    simp only [update, CodeScan.update] at updated
    cases agreed : commonLength s.codeLength codes with
    | error e => rw [agreed] at updated; cases updated
    | ok held =>
      rw [agreed] at updated
      cases updated
      exact LengthOf.agreed sound agreed fun code => SortedSet.mem_insertMany

theorem flat_remove (sound : ix.Sound) (codes : List Code) :
    (ix.remove codes).map flat = ix.flat.remove codes := by
  cases ix with
  | tree t =>
    show ((t.remove codes).map tree).map flat = CodeScan.remove ⟨t.members, t.codeLength⟩ codes
    cases missing : codes.find? fun code => !t.members.contains code with
    | some code =>
      simp only [BallTree.remove, CodeScan.remove, missing]
      rfl
    | none =>
      obtain ⟨t', removed⟩ : ∃ t', t.remove codes = .ok t' :=
        ⟨_, by simp only [BallTree.remove, missing]; rfl⟩
      obtain ⟨_, members, held⟩ := BallTree.remove_sound sound removed
      rw [removed]
      simp only [CodeScan.remove, missing]
      show Except.ok (CodeScan.mk t'.members t'.codeLength) = _
      rw [held, members]
  | scan s =>
    simp only [remove, flat]
    cases s.remove codes <;> rfl

theorem remove_sound {after : CodeIndex} {codes : List Code} (sound : ix.Sound)
    (removed : ix.remove codes = .ok after) : after.Sound := by
  cases ix with
  | tree t =>
    simp only [remove] at removed
    cases result : t.remove codes with
    | error e => rw [result] at removed; cases removed
    | ok t' =>
      rw [result] at removed
      cases removed
      exact (BallTree.remove_sound sound result).1
  | scan s =>
    simp only [remove, CodeScan.remove] at removed
    split at removed
    · cases removed
    · cases removed
      exact LengthOf.thin sound fun code member => (SortedSet.mem_eraseMany.mp member).2

theorem flat_rebuild (ix : CodeIndex) : ix.rebuild.flat = ix.flat := by
  cases ix <;> rfl

theorem rebuild_sound (sound : ix.Sound) : ix.rebuild.Sound := by
  cases ix with
  | tree t => exact BallTree.rebuild_sound sound
  | scan s => exact sound

/-- What a sound index answers is gathered from its codes, however long these are. -/
theorem nearest_gathered (sound : ix.Sound) (query : Code) (k : Nat) :
    ∃ seen, Gathered query k ix.codes [] (ix.nearest query k) seen := by
  cases ix with
  | tree t => exact BallTree.nearest_gathered sound query k
  | scan s =>
    refine ⟨s.members.toList, .refl _, Nat.min_le_right .., ?_⟩
    rw [List.append_nil]
    exact CodeScan.nearest_eq s query k

/-- A sound index answers the first `k` of all its codes in the order of hits, if it tries every one
or distances fit 32 bits. -/
theorem nearest_eq (sound : ix.Sound) {query : Code}
    (exactly : ix.isScan = true ∨ ∀ code ∈ ix.members, query.ExactFor code.length) (k : Nat) :
    ix.nearest query k = (sortHits (ix.codes.map (Hit.of query))).take k := by
  cases ix with
  | tree t => exact BallTree.nearest_eq sound (exactly.resolve_left Bool.false_ne_true) k
  | scan s => exact CodeScan.nearest_eq s query k

/-! Changes that are not refused -/

theorem exists_build (ix : CodeIndex) {bits : Nat} {codes : List Code}
    (alike : ∀ code ∈ codes, code.length = bits) :
    ∃ after, ix.build codes = .ok after ∧ after.Sound ∧ after.isScan = ix.isScan ∧
      ∀ code, code ∈ after.members ↔ code ∈ codes := by
  obtain ⟨held, agreed⟩ : ∃ held, commonLength none codes = .ok held :=
    exists_commonLength alike (by simp)
  have built := flat_build ix codes
  simp only [CodeScan.build, agreed] at built
  obtain ⟨after, result, same⟩ := exists_of_map_ok built
  refine ⟨after, result, build_sound result, ?_, fun code => ?_⟩
  · cases ix <;> (obtain ⟨_, _, rfl⟩ := exists_of_map_ok result; rfl)
  · rw [← flat_members, same, SortedSet.mem_ofList]

/-- Codes of the length that all codes held have are taken up. -/
theorem exists_update {bits : Nat} {codes : List Code} (sound : ix.Sound)
    (held : ∀ code ∈ ix.members, code.length = bits) (alike : ∀ code ∈ codes, code.length = bits) :
    ∃ after, ix.update codes = .ok after ∧ after.Sound ∧ after.isScan = ix.isScan ∧
      ∀ code, code ∈ after.members ↔ code ∈ codes ∨ code ∈ ix.members := by
  have fits : ∀ other, ix.flat.codeLength = some other → other = bits := by
    intro other announced
    by_cases none : ∀ code, code ∉ ix.flat.members
    · rw [sound.flat.unset none] at announced
      cases announced
    · obtain ⟨code, member⟩ := Classical.not_forall_not.mp none
      have exact := (sound.flat.alike code member).symm.trans announced
      rw [← Option.some.inj exact]
      exact held code (by rwa [← flat_members])
  obtain ⟨length, agreed⟩ := exists_commonLength alike fits
  have updated := flat_update sound codes
  simp only [CodeScan.update, agreed] at updated
  obtain ⟨after, result, same⟩ := exists_of_map_ok updated
  refine ⟨after, result, update_sound sound result, ?_, fun code => ?_⟩
  · cases ix <;> (obtain ⟨_, _, rfl⟩ := exists_of_map_ok result; rfl)
  · rw [← flat_members, same, SortedSet.mem_insertMany, flat_members]

/-- Codes that are held are removed. -/
theorem exists_remove {codes : List Code} (sound : ix.Sound)
    (held : ∀ code ∈ codes, code ∈ ix.members) :
    ∃ after, ix.remove codes = .ok after ∧ after.Sound ∧ after.isScan = ix.isScan ∧
      ∀ code, code ∈ after.members ↔ code ∉ codes ∧ code ∈ ix.members := by
  have present : codes.find? (fun code => !ix.flat.members.contains code) = none := by
    apply List.find?_eq_none.mpr
    intro code member
    simpa [flat_members] using held code member
  have removed := flat_remove sound codes
  simp only [CodeScan.remove, present] at removed
  obtain ⟨after, result, same⟩ := exists_of_map_ok removed
  refine ⟨after, result, remove_sound sound result, ?_, fun code => ?_⟩
  · cases ix <;> (obtain ⟨_, _, rfl⟩ := exists_of_map_ok result; rfl)
  · rw [← flat_members, same, SortedSet.mem_eraseMany, flat_members]

end CodeIndex
end Retrieval
