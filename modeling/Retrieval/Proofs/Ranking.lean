import Retrieval.Ranking.Ranker

/-!
The order of a ranking is total, so a list of scores has one ranking, and where no id is scored
twice each id stands strictly ahead of the next (`Scored.ranked_ahead`).
-/
namespace Retrieval.Scored
variable {a b : Scored} {scores : List Scored}

theorem before_eq (a b : Scored) :
    a.before b = (compareLex (fun a b => compareOn score b a) (compareOn id) a b).isLE := by
  unfold before compareLex compareOn
  dsimp only
  cases compare b.score a.score <;> rfl

theorem before_trans (a b c : Scored) :
    a.before b = true → b.before c = true → a.before c = true := by
  simp only [before_eq]
  exact fun first second => Std.TransCmp.isLE_trans first second

theorem before_total (a b : Scored) : (a.before b || b.before a) = true := by
  simp only [before_eq]
  cases order : compareLex (fun a b => compareOn score b a) (compareOn id) a b with
  | lt => rfl
  | eq => rfl
  | gt => simp [Std.OrientedCmp.gt_iff_lt.mp order]

/-- A better score, or the same score and the id that comes first. -/
def Ahead (a b : Scored) : Prop :=
  compare b.score a.score = .lt ∨ a.score = b.score ∧ compare a.id b.id = .lt

theorem ahead_of_before (before : a.before b = true) (distinct : a.id ≠ b.id) : a.Ahead b := by
  unfold Scored.before at before
  split at before
  · exact .inl ‹_›
  · cases before
  · rename_i level
    refine .inr ⟨(Std.LawfulEqOrd.eq_of_compare level).symm, ?_⟩
    cases order : compare a.id b.id with
    | lt => rfl
    | eq => exact absurd (Std.LawfulEqOrd.eq_of_compare order) distinct
    | gt =>
      rw [order] at before
      cases before

theorem ranked_perm (scores : List Scored) : (ranked scores).Perm scores :=
  List.mergeSort_perm scores before

theorem ranked_ahead (distinct : (scores.map id).Nodup) : (ranked scores).Pairwise Ahead := by
  have sorted : (ranked scores).Pairwise fun a b => a.before b = true :=
    List.pairwise_mergeSort before_trans before_total scores
  have apart : (ranked scores).Pairwise fun a b => a.id ≠ b.id :=
    List.pairwise_map.mp (((ranked_perm scores).map id).nodup_iff.mpr distinct)
  exact (sorted.and apart).imp fun both => ahead_of_before both.1 both.2

end Retrieval.Scored
