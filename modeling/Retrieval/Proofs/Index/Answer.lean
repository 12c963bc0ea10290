import Retrieval.Index.Basic

/-!
What a query should answer, told without saying how it is found: the first of all ids in the order
of neighbours, or the error of the first id that cannot be compared. There is one such answer only
(`Nearest.unique`).
-/
namespace Retrieval

namespace Neighbor

theorem before_trans (a b c : Neighbor) :
    a.before b = true → b.before c = true → a.before c = true :=
  fun first second => Std.TransCmp.isLE_trans first second

theorem before_total (a b : Neighbor) : (a.before b || b.before a) = true := by
  unfold before
  cases order : compareLex (compareOn distance) (compareOn id) a b with
  | lt => rfl
  | eq => rfl
  | gt => simp [Std.OrientedCmp.gt_iff_lt.mp order]

theorem before_antisymm {a b : Neighbor} (first : a.before b = true) (second : b.before a = true) :
    a = b := by
  have equal : compareLex (compareOn distance) (compareOn id) a b = .eq :=
    Std.OrientedCmp.isLE_antisymm first second
  have same : compareOn distance a b = .eq ∧ compareOn id a b = .eq := Ordering.then_eq_eq.1 equal
  have distances : a.distance = b.distance := Std.LawfulEqOrd.eq_of_compare same.1
  have ids : a.id = b.id := Std.LawfulEqOrd.eq_of_compare same.2
  cases a; cases b; cases distances; cases ids; rfl

end Neighbor

variable {stored : String → Except Error Descriptor} {query : Descriptor} {n : Nat}
  {ids : List String}

/-- An id has a vector that can be compared with the query. -/
def Comparable (stored : String → Except Error Descriptor) (query : Descriptor) (id : String) :
    Prop :=
  ∃ v, stored id = .ok v ∧ v.length = query.length

/-- An id cannot be compared: its vector cannot be had, or it has another length. -/
def Refused (stored : String → Except Error Descriptor) (query : Descriptor) (id : String)
    (e : Error) : Prop :=
  stored id = .error e ∨ ∃ v, stored id = .ok v ∧ v.length ≠ query.length ∧
    e = .dimensionMismatch query.length v.length

theorem Refused.not_comparable {id : String} {e : Error} (refused : Refused stored query id e) :
    ¬ Comparable stored query id := by
  intro comparable
  obtain ⟨v, vector, same⟩ := comparable
  rcases refused with failed | ⟨w, vector', different, _⟩
  · rw [failed] at vector
    cases vector
  · rw [vector] at vector'
    cases vector'
    exact different same

theorem Refused.unique {id : String} {e e' : Error} (one : Refused stored query id e)
    (other : Refused stored query id e') : e = e' := by
  rcases one with failed | ⟨v, vector, _, rfl⟩
  · rcases other with failed' | ⟨w, vector', _⟩
    · exact Except.error.inj (failed.symm.trans failed')
    · rw [failed] at vector'
      cases vector'
  · rcases other with failed' | ⟨w, vector', _, rfl⟩
    · rw [vector] at failed'
      cases failed'
    · rw [vector] at vector'
      cases vector'
      rfl

/-- The first id that cannot be compared is one and the same, however the ids are split at it. -/
theorem refused_unique {before before' after after' : List String} {id id' : String} {e e' : Error}
    (same : before ++ id :: after = before' ++ id' :: after')
    (fine : ∀ x ∈ before, Comparable stored query x)
    (fine' : ∀ x ∈ before', Comparable stored query x) (refused : Refused stored query id e)
    (refused' : Refused stored query id' e') : e = e' := by
  induction before generalizing before' with
  | nil =>
    cases before' with
    | nil =>
      cases same
      exact refused.unique refused'
    | cons x rest =>
      cases same
      exact absurd (fine' id List.mem_cons_self) refused.not_comparable
  | cons x rest ih =>
    cases before' with
    | nil =>
      cases same
      exact absurd (fine id' List.mem_cons_self) refused'.not_comparable
    | cons x' rest' =>
      rw [List.cons_append, List.cons_append, List.cons.injEq] at same
      exact ih same.2 (List.forall_mem_cons.mp fine).2 (List.forall_mem_cons.mp fine').2

/-- A neighbour stands at the distance of its vector from the query. -/
def Measured (stored : String → Except Error Descriptor) (query : Descriptor) (x : Neighbor) :
    Prop :=
  ∃ v, stored x.id = .ok v ∧ v.length = query.length ∧ x.distance = .angular query v

theorem Measured.comparable {x : Neighbor} (measured : Measured stored query x) :
    Comparable stored query x.id := by
  obtain ⟨v, vector, same, _⟩ := measured
  exact ⟨v, vector, same⟩

/-- Measured neighbours that have the same ids are the same, up to order. -/
theorem perm_of_measured {all all' : List Neighbor} (same : (all.map (·.id)).Perm (all'.map (·.id)))
    (measured : ∀ x ∈ all, Measured stored query x)
    (measured' : ∀ x ∈ all', Measured stored query x) : all.Perm all' := by
  let place (id : String) : Neighbor := ⟨id, ((stored id).map (.angular query)).toOption.getD .zero⟩
  have placed {x : Neighbor} (measured : Measured stored query x) : place x.id = x := by
    obtain ⟨v, vector, _, distance⟩ := measured
    obtain ⟨id, d⟩ := x
    simp only at vector distance
    simp [place, vector, distance, Except.map, Except.toOption]
  have back {all : List Neighbor} (measured : ∀ x ∈ all, Measured stored query x) :
      (all.map (·.id)).map place = all := by
    rw [List.map_map]
    exact (List.map_congr_left fun x member => placed (measured x member)).trans (List.map_id all)
  have mapped := same.map place
  rwa [back measured, back measured'] at mapped

/-- What comes of ranking ids by the distance of their vectors from a query: the first `n` of all of
them, nearest first, unless some id cannot be compared; then the first such id is the error. -/
inductive Nearest (stored : String → Except Error Descriptor) (query : Descriptor) (n : Nat)
    (ids : List String) : Except Error (List Neighbor) → Prop where
  | ranked {all : List Neighbor}
      (ascending : all.Pairwise fun a b => a.before b = true)
      (whole : (all.map (·.id)).Perm ids)
      (measured : ∀ x ∈ all, Measured stored query x) :
      Nearest stored query n ids (.ok (all.take n))
  | failed {before : List String} {id : String} {after : List String} {e : Error}
      (split : ids = before ++ id :: after)
      (fine : ∀ x ∈ before, Comparable stored query x)
      (cause : Refused stored query id e) :
      Nearest stored query n ids (.error e)

namespace Nearest

theorem nothing (stored : String → Except Error Descriptor) (query : Descriptor) (n : Nat) :
    Nearest stored query n [] (.ok []) := by
  have none : Nearest stored query n [] (.ok ([].take n)) := .ranked .nil (.refl _) (by simp)
  rwa [List.take_nil] at none

/-- Ids of which all can be ranked are not refused any of them. -/
theorem not_refused {all : List Neighbor} {before after : List String} {id : String} {e : Error}
    (whole : (all.map (·.id)).Perm (before ++ id :: after))
    (measured : ∀ x ∈ all, Measured stored query x) : ¬ Refused stored query id e := by
  intro refused
  have member : id ∈ all.map (·.id) := whole.mem_iff.mpr (by simp)
  obtain ⟨x, listed, rfl⟩ := List.mem_map.mp member
  exact refused.not_comparable (measured x listed).comparable

/-- There is one answer only. -/
theorem unique {result result' : Except Error (List Neighbor)}
    (one : Nearest stored query n ids result) (other : Nearest stored query n ids result') :
    result = result' := by
  cases one with
  | ranked ascending whole measured =>
    cases other with
    | ranked ascending' whole' measured' =>
      have same := perm_of_measured (whole.trans whole'.symm) measured measured'
      rw [same.eq_of_pairwise (fun _ _ _ _ => Neighbor.before_antisymm) ascending ascending']
    | failed split _ cause => exact absurd cause (not_refused (split ▸ whole) measured)
  | failed split fine cause =>
    cases other with
    | ranked _ whole measured => exact absurd cause (not_refused (split ▸ whole) measured)
    | failed split' fine' cause' =>
      rw [refused_unique (split.symm.trans split') fine fine' cause cause']

/-- Being the answer is being what an answer should be. -/
theorem eq_iff {answer : Except Error (List Neighbor)} (nearest : Nearest stored query n ids answer)
    (result : Except Error (List Neighbor)) :
    answer = result ↔ Nearest stored query n ids result := by
  constructor
  · rintro rfl
    exact nearest
  · exact nearest.unique

end Nearest
end Retrieval
