import Retrieval.Proofs.CodeIndex.Flat
import Retrieval.Proofs.CodeIndex.Majority

/-!
A ball tree and a scan cannot be told apart: started empty and driven by the same calls they give
the same answers and hold the same codes, whatever the size of the leaves (`tree_alike_scan`). Their
answers to queries are the same as long as 32 bits are enough for the distances.
-/
namespace Retrieval

/-- A change to the codes of an index. -/
inductive CodeCall where
  | build (codes : List Code)
  | update (codes : List Code)
  | remove (codes : List Code)
  | rebuild
deriving DecidableEq

namespace CodeIndex
variable {ix : CodeIndex}

def attempt (ix : CodeIndex) : CodeCall → Except Error CodeIndex
  | .build codes => ix.build codes
  | .update codes => ix.update codes
  | .remove codes => ix.remove codes
  | .rebuild => .ok ix.rebuild

/-- Make a call; one that is refused leaves the index as it is. -/
def step (ix : CodeIndex) (call : CodeCall) : CodeIndex × Except Error Unit :=
  match ix.attempt call with
  | .ok after => (after, .ok ())
  | .error e => (ix, .error e)

/-- Make calls one after the other and answer what came of each. -/
def run (ix : CodeIndex) : List CodeCall → CodeIndex × List (Except Error Unit)
  | [] => (ix, [])
  | call :: rest =>
    let after := ix.step call
    let later := after.1.run rest
    (later.1, after.2 :: later.2)

theorem flat_attempt (sound : ix.Sound) (call : CodeCall) :
    (ix.attempt call).map flat = ((scan ix.flat).attempt call).map flat := by
  cases call with
  | build codes => rw [attempt, attempt, flat_build, flat_build, flat]
  | update codes => rw [attempt, attempt, flat_update sound, flat_update sound.flat, flat]
  | remove codes => rw [attempt, attempt, flat_remove sound, flat_remove sound.flat, flat]
  | rebuild =>
    show Except.ok _ = Except.ok _
    rw [flat_rebuild, flat_rebuild, flat]

theorem attempt_sound {after : CodeIndex} {call : CodeCall} (sound : ix.Sound)
    (done : ix.attempt call = .ok after) : after.Sound := by
  cases call with
  | build codes => exact build_sound done
  | update codes => exact update_sound sound done
  | remove codes => exact remove_sound sound done
  | rebuild =>
    cases done
    exact rebuild_sound sound

theorem step_sound (sound : ix.Sound) (call : CodeCall) : (ix.step call).1.Sound := by
  unfold step
  cases done : ix.attempt call with
  | ok after => exact attempt_sound sound done
  | error e => exact sound

/-- Sound indexes that hold the same codes answer a call alike and hold the same codes after it. -/
theorem step_alike {other : CodeIndex} (sound : ix.Sound) (sound' : other.Sound)
    (same : ix.flat = other.flat) (call : CodeCall) :
    (ix.step call).2 = (other.step call).2 ∧ (ix.step call).1.flat = (other.step call).1.flat := by
  have results : (ix.attempt call).map flat = (other.attempt call).map flat := by
    rw [flat_attempt sound, flat_attempt sound', same]
  unfold step
  cases first : ix.attempt call with
  | ok after =>
    cases second : other.attempt call with
    | ok after' =>
      rw [first, second] at results
      exact ⟨rfl, Except.ok.inj results⟩
    | error e => rw [first, second] at results; cases results
  | error e =>
    cases second : other.attempt call with
    | ok after' => rw [first, second] at results; cases results
    | error e' =>
      rw [first, second] at results
      cases results
      exact ⟨rfl, same⟩

theorem run_alike {other : CodeIndex} (sound : ix.Sound) (sound' : other.Sound)
    (same : ix.flat = other.flat) (calls : List CodeCall) :
    (ix.run calls).2 = (other.run calls).2 ∧ (ix.run calls).1.flat = (other.run calls).1.flat ∧
      (ix.run calls).1.Sound ∧ (other.run calls).1.Sound := by
  induction calls generalizing ix other with
  | nil => exact ⟨rfl, same, sound, sound'⟩
  | cons call rest ih =>
    obtain ⟨answer, still⟩ := step_alike sound sound' same call
    obtain ⟨answers, later⟩ := ih (step_sound sound call) (step_sound sound' call) still
    refine ⟨?_, later⟩
    simp only [run, answer, answers]

/-- Whatever callers can ask two indexes, they answer it alike, and so they do queries if 32 bits
are enough for the distances. -/
structure Alike (a b : CodeIndex) : Prop where
  codes : a.codes = b.codes
  size : a.size = b.size
  contains : ∀ code, a.contains code = b.contains code
  nearest : ∀ query : Code, (∀ code ∈ a.codes, query.ExactFor code.length) →
    ∀ k, a.nearest query k = b.nearest query k

theorem alike_of_flat {other : CodeIndex} (sound : ix.Sound) (sound' : other.Sound)
    (same : ix.flat = other.flat) : ix.Alike other := by
  have members : ix.members = other.members := by rw [← flat_members, same, flat_members]
  refine ⟨by rw [codes, codes, members], by rw [size, size, members],
    fun code => by rw [contains, contains, members], ?_⟩
  intro query fits k
  have fits : ∀ code ∈ ix.members, query.ExactFor code.length := fun code member =>
    fits code (SortedSet.mem_toList.mpr member)
  rw [nearest_eq sound (.inr fits), nearest_eq sound' (.inr (members ▸ fits)), codes, codes, members]

/-- A tree with leaves of any size and a scan, both empty at first, answer any calls alike, and
after them any questions. -/
theorem tree_alike_scan (leafSize : Nat) (calls : List CodeCall) :
    ((tree (.empty leafSize)).run calls).2 = ((scan .empty).run calls).2 ∧
      ((tree (.empty leafSize)).run calls).1.Alike ((scan .empty).run calls).1 := by
  have sound : (tree (.empty leafSize)).Sound := BallTree.empty_sound leafSize
  have sound' : (scan .empty).Sound := LengthOf.empty
  obtain ⟨answers, same, treeSound, scanSound⟩ := run_alike sound sound' rfl calls
  exact ⟨answers, alike_of_flat treeSound scanSound same⟩

/-- Two codes are built into a tree and a scan, and a query is nearer to one of them. -/
theorem tree_alike_scan_pair :
    let codes : List Code := [.ofBools [true, false], .ofBools [false, false]]
    let t := ((tree (.empty 1)).run [.build codes]).1
    let s := ((scan .empty).run [.build codes]).1
    let query : Code := .ofBools [true, true]
    (∀ code ∈ t.codes, query.ExactFor code.length) ∧ t.Alike s ∧
      t.nearest query 1 = s.nearest query 1 := by
  intro codes t s query
  obtain ⟨_, alike⟩ := tree_alike_scan 1 [.build codes]
  have fits : ∀ code ∈ t.codes, query.ExactFor code.length := by decide +kernel
  exact ⟨fits, alike, alike.nearest query fits 1⟩

end CodeIndex

/-! Where distances wrap around -/

variable {n : Nat}

/-- Two codes that differ in their first bits only, and the code with all bits set. -/
def forked (n : Nat) : List Code :=
  [(false, true, false), (true, false, false), (true, true, true)].map (.tailed n)

theorem forked_ascending (n : Nat) : (forked n).Pairwise fun a b => compare a b = .lt := by
  refine .cons (List.forall_mem_cons.mpr ⟨?_, List.forall_mem_singleton.mpr ?_⟩)
    (List.pairwise_pair.mpr ?_)
  · exact Code.compare_tailed_first n _ _
  · exact Code.compare_tailed_first n _ _
  · exact Code.compare_tailed_second n _ _ _

theorem length_of_mem_forked : ∀ code ∈ forked n, code.length = n + 2 :=
  List.forall_mem_map.mpr fun v _ => Code.length_tailed n v

/-- The set code is alone on its side, as far from the pivot as can be. -/
theorem grow_forked (whole : n + 2 = 2 ^ 32) :
    Ball.grow 2 (forked n) =
      .node (.tailed n (true, true, false)) 0xfffffffe
        (.leaf (.tailed n (true, true, true)) 0 [.tailed n (true, true, true)])
        (.leaf (.tailed n (false, false, false)) 1
          [.tailed n (false, true, false), .tailed n (true, false, false)]) := by
  have pivot : majority (forked n) = .tailed n (true, true, false) :=
    majority_tailed n _ (List.cons_ne_nil _ _)
  have left : majority [.tailed n (true, true, true)] = .tailed n (true, true, true) :=
    majority_singleton _
  have right : majority [.tailed n (false, true, false), .tailed n (true, false, false)] =
      .tailed n (false, false, false) :=
    majority_tailed n [_, _] (List.cons_ne_nil _ _)
  have wide : reach (forked n) = 0xfffffffe := by
    rw [reach, pivot]
    simp only [forked, List.map_cons, List.map_nil, Code.hamming_tailed whole]
    decide
  have sides : Ball.sides (forked n) = ([.tailed n (true, true, true)],
      [.tailed n (false, true, false), .tailed n (true, false, false)]) := by
    rw [Ball.sides, pivot]
    simp [forked, divide, farthest, deal, Code.hamming_tailed whole]
  have large : ¬ ((forked n).length ≤ 2 ∨ reach (forked n) = 0) := by
    rw [wide]
    exact not_or.mpr ⟨Nat.not_le.mpr (Nat.lt_succ_self 2), by decide⟩
  have small (codes : List Code) (few : codes.length ≤ 2) :
      Ball.grow 2 codes = .leaf (majority codes) (reach codes) codes := by
    rw [Ball.grow_eq, if_pos (.inl few)]
  rw [Ball.grow_eq, if_neg large, pivot, wide, sides, small [_] (Nat.le_succ 1),
    small [_, _] (Nat.le_refl 2), reach, reach, left, right]
  simp only [List.map_cons, List.map_nil, Code.hamming_tailed whole]
  rfl

/-- The tree passes over the nearest of the codes, which is the complement of the query. -/
theorem BallTree.nearest_forked (whole : n + 2 = 2 ^ 32) {t : BallTree}
    (root : t.root = some (Ball.grow 2 (forked n))) (held : t.members = .ofList (forked n)) :
    t.nearest (.tailed n (false, true, true)) 1 = [⟨1, .tailed n (true, true, true)⟩] := by
  have size : t.members.size = 3 := by
    rw [← SortedSet.length_toList, held, SortedSet.toList_ofList_of_ascending (forked_ascending n)]
    rfl
  simp [BallTree.nearest, size, root, grow_forked whole, Ball.search, Ball.hopeless,
    Ball.lowerBound, Ball.pivot, Ball.radius, offerAll, offer, insertHit, Hit.of,
    Code.hamming_tailed whole]

theorem CodeScan.nearest_forked (whole : n + 2 = 2 ^ 32) {s : CodeScan}
    (held : s.members = .ofList (forked n)) :
    s.nearest (.tailed n (false, true, true)) 1 = [⟨0, .tailed n (true, false, false)⟩] := by
  have listed := SortedSet.toList_ofList_of_ascending (forked_ascending n)
  rw [CodeScan.nearest, ← SortedSet.length_toList, held, listed]
  have nearer : compare (⟨0, .tailed n (true, false, false)⟩ : Hit)
      ⟨0xfffffffe, .tailed n (false, true, false)⟩ = .lt := Hit.compare_of_lt (by decide) _ _
  have farther : compare (⟨1, .tailed n (true, true, true)⟩ : Hit)
      ⟨0, .tailed n (true, false, false)⟩ ≠ .lt := by
    rw [Std.OrientedCmp.gt_of_lt (Hit.compare_of_lt (by decide) _ _)]
    decide
  simp [forked, offerAll, offer, insertHit, Hit.of, Code.hamming_tailed whole, nearer, farther]

/-- Of three codes with `2 ^ 32` bits each, one is the complement of a query and so at no distance
from it. The scan finds this one, and the tree another one with a bit that differs. -/
theorem CodeIndex.not_tree_alike_scan_of_long :
    ¬ ∀ (leafSize : Nat) (calls : List CodeCall) (query : Code) (k : Nat), 1 ≤ leafSize →
      ((tree (.empty leafSize)).run calls).1.nearest query k =
        ((scan .empty).run calls).1.nearest query k := by
  intro alike
  obtain ⟨n, whole⟩ : ∃ n, n + 2 = 2 ^ 32 := ⟨2 ^ 32 - 2, rfl⟩
  obtain ⟨t, built, held, root⟩ := BallTree.exists_build_root (.empty 2) (forked_ascending n)
    (List.cons_ne_nil _ _) length_of_mem_forked
  obtain ⟨length, agreed⟩ : ∃ length, commonLength none (forked n) = .ok length :=
    exists_commonLength length_of_mem_forked nofun
  have planted : ((tree (.empty 2)).run [.build (forked n)]).1 = tree t := by
    simp only [run, step, attempt, build, built, Except.map]
  have listed : ((scan .empty).run [.build (forked n)]).1 =
      scan ⟨.ofList (forked n), length⟩ := by
    simp only [run, step, attempt, build, CodeScan.build, agreed, Except.map, bind, Except.bind]
    rfl
  have same := alike 2 [.build (forked n)] (.tailed n (false, true, true)) 1 (by decide)
  rw [planted, listed, nearest, nearest, BallTree.nearest_forked whole root held,
    CodeScan.nearest_forked whole rfl] at same
  have distances : (1 : UInt32) = 0 := (Hit.mk.inj (List.cons.inj same).1).1
  exact absurd distances (by decide)

end Retrieval
