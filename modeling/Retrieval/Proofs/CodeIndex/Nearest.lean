import Mathlib.Data.List.Perm.Subperm
import Retrieval.CodeIndex.Nearest

/-!
Offering codes one after the other keeps the first `k` of all hits in ascending order, whatever the
order of offering (`offerAll_take_sortHits`). A search that passes over codes keeps the first `k` of
those that it saw (`Gathered`).
-/
namespace Retrieval

theorem Hit.distance_le {a b : Hit} (before : (compare a b).isLE = true) :
    a.distance ≤ b.distance :=
  Std.isLE_compare.mp (Ordering.isLE_then_iff_and.mp before).1

theorem Hit.compare_of_lt {d e : UInt32} (nearer : d < e) (a b : Code) :
    compare (⟨d, a⟩ : Hit) ⟨e, b⟩ = .lt := by
  show (compare d e).then (compare a b) = .lt
  rw [Std.compare_eq_lt.mpr nearer]
  rfl

/-- Hits nearest first, and in the order of codes at one distance. -/
def sortHits (hits : List Hit) : List Hit := hits.mergeSort fun a b => (compare a b).isLE

theorem sortHits_perm (hits : List Hit) : (sortHits hits).Perm hits := List.mergeSort_perm _ _

theorem sortHits_ascending (hits : List Hit) :
    (sortHits hits).Pairwise fun a b => (compare a b).isLE = true := by
  apply List.pairwise_mergeSort
  · intro a b c first second
    exact Std.TransCmp.isLE_trans first second
  · intro a b
    cases order : compare a b with
    | lt => rfl
    | eq => rfl
    | gt => simp [Std.OrientedCmp.gt_iff_lt.mp order]

/-- An ascending list is determined by what it holds. -/
theorem hits_eq_of_ascending {first second : List Hit}
    (ascending : first.Pairwise fun a b => (compare a b).isLE = true)
    (ascending' : second.Pairwise fun a b => (compare a b).isLE = true)
    (same : first.Perm second) : first = second := by
  refine List.Perm.eq_of_pairwise ?_ ascending ascending' same
  intro a b _ _ before after
  exact Std.LawfulEqOrd.eq_of_compare (Std.OrientedCmp.isLE_antisymm before after)

/-- The last of ascending hits is the largest. -/
theorem isLE_last {rest : List Hit} {last hit : Hit}
    (ascending : (rest ++ [last]).Pairwise fun a b => (compare a b).isLE = true)
    (member : hit ∈ rest ++ [last]) : (compare hit last).isLE = true := by
  rcases List.mem_append.mp member with earlier | isLast
  · exact (List.pairwise_append.mp ascending).2.2 hit earlier last (List.mem_singleton_self _)
  · rw [List.mem_singleton.mp isLast]
    exact Std.ReflCmp.isLE_rfl

theorem sortHits_congr {first second : List Hit} (same : first.Perm second) :
    sortHits first = sortHits second :=
  hits_eq_of_ascending (sortHits_ascending first) (sortHits_ascending second)
    ((sortHits_perm first).trans (same.trans (sortHits_perm second).symm))

theorem insertHit_perm (hit : Hit) (hits : List Hit) : (insertHit hit hits).Perm (hit :: hits) := by
  induction hits with
  | nil => exact List.Perm.refl _
  | cons next rest ih =>
    simp only [insertHit]
    split
    · exact (ih.cons next).trans (List.Perm.swap hit next rest)
    · exact List.Perm.refl _

theorem insertHit_ascending (hit : Hit) {hits : List Hit}
    (ascending : hits.Pairwise fun a b => (compare a b).isLE = true) :
    (insertHit hit hits).Pairwise fun a b => (compare a b).isLE = true := by
  induction hits with
  | nil => simp [insertHit]
  | cons next rest ih =>
    obtain ⟨below, later⟩ := List.pairwise_cons.mp ascending
    simp only [insertHit]
    split
    · rename_i after
      refine List.pairwise_cons.mpr ⟨?_, ih later⟩
      intro other member
      rcases List.mem_cons.mp ((insertHit_perm hit rest).subset member) with rfl | old
      · simp [Std.OrientedCmp.gt_iff_lt.mp after]
      · exact below other old
    · rename_i before
      have first : (compare hit next).isLE = true := by
        cases order : compare hit next <;> simp_all
      refine List.pairwise_cons.mpr ⟨?_, ascending⟩
      intro other member
      rcases List.mem_cons.mp member with rfl | old
      · exact first
      · exact Std.TransCmp.isLE_trans first (below other old)

theorem insertHit_sortHits (hit : Hit) (hits : List Hit) :
    insertHit hit (sortHits hits) = sortHits (hit :: hits) :=
  hits_eq_of_ascending (insertHit_ascending hit (sortHits_ascending hits)) (sortHits_ascending _)
    ((insertHit_perm hit _).trans (((sortHits_perm hits).cons hit).trans (sortHits_perm _).symm))

/-- What lies behind the first `k` cannot come among the first `k` by an insertion. -/
theorem take_insertHit_take (hit : Hit) (hits : List Hit) (k : Nat) :
    (insertHit hit (hits.take k)).take k = (insertHit hit hits).take k := by
  induction hits generalizing k with
  | nil => simp
  | cons next rest ih =>
    cases k with
    | zero => simp
    | succ k =>
      simp only [List.take_succ_cons, insertHit]
      split
      · simp only [List.take_succ_cons, ih]
      · cases k with
        | zero => simp
        | succ k => simp [List.take_take]

private theorem insertHit_concat {hit worst : Hit} (before : compare hit worst = .lt)
    (rest : List Hit) : insertHit hit (rest ++ [worst]) = insertHit hit rest ++ [worst] := by
  induction rest with
  | nil => simp [insertHit, before]
  | cons next rest ih =>
    simp only [List.cons_append, insertHit]
    split
    · rw [ih, List.cons_append]
    · rfl

private theorem insertHit_last {hit worst : Hit} {rest : List Hit}
    (ascending : (rest ++ [worst]).Pairwise fun a b => (compare a b).isLE = true)
    (after : (compare worst hit).isLE = true) :
    insertHit hit (rest ++ [worst]) = rest ++ [worst] ++ [hit] := by
  refine hits_eq_of_ascending (insertHit_ascending hit ascending) ?_ ?_
  · refine List.pairwise_append.mpr ⟨ascending, List.pairwise_singleton _ _, ?_⟩
    intro other member last isLast
    rw [List.mem_singleton.mp isLast]
    exact Std.TransCmp.isLE_trans (isLE_last ascending member) after
  · exact (insertHit_perm hit _).trans (List.perm_append_singleton hit _).symm

/-- Offering a hit to the best so far inserts it and cuts the rest off. -/
theorem offer_eq_take_insertHit {k : Nat} {best : List Hit}
    (ascending : best.Pairwise fun a b => (compare a b).isLE = true) (fits : best.length ≤ k)
    (hit : Hit) : offer k best hit = (insertHit hit best).take k := by
  have size := (insertHit_perm hit best).length_eq
  unfold offer
  split
  · rename_i room
    rw [List.take_of_length_le (by rw [size, List.length_cons]; omega)]
  · rename_i noRoom
    rcases List.eq_nil_or_concat best with rfl | ⟨rest, worst, rfl⟩
    · have : k = 0 := by simpa using noRoom
      simp [this]
    · rw [List.concat_eq_append] at *
      have exactly : k = rest.length + 1 := by
        simp only [List.length_append, List.length_singleton] at fits noRoom
        omega
      simp only [List.getLast?_concat, List.dropLast_concat]
      split
      · rename_i before
        rw [insertHit_concat before, List.take_left']
        rw [(insertHit_perm hit rest).length_eq, List.length_cons, exactly]
      · rename_i notBefore
        have after : (compare worst hit).isLE = true := by
          rw [Std.OrientedOrd.eq_swap]
          cases order : compare hit worst <;> simp_all
        rw [insertHit_last ascending after, List.take_left']
        simp [exactly]

theorem offer_take_sortHits (k : Nat) (hits : List Hit) (hit : Hit) :
    offer k ((sortHits hits).take k) hit = (sortHits (hit :: hits)).take k := by
  rw [offer_eq_take_insertHit ((sortHits_ascending hits).sublist (List.take_sublist _ _))
    (List.length_take_le _ _), take_insertHit_take, insertHit_sortHits]

/-- Offering hits to the best of some leaves the best of all of them. -/
theorem foldl_offer_take_sortHits (k : Nat) (seen hits : List Hit) :
    hits.foldl (offer k) ((sortHits seen).take k) = (sortHits (hits ++ seen)).take k := by
  induction hits generalizing seen with
  | nil => rfl
  | cons hit rest ih =>
    rw [List.foldl_cons, offer_take_sortHits, ih]
    exact congrArg (List.take k) (sortHits_congr List.perm_middle)

/-- Offering codes to the best of some hits leaves the best of all of them. -/
theorem offerAll_take_sortHits (query : Code) (k : Nat) (hits : List Hit) (codes : List Code) :
    offerAll query k ((sortHits hits).take k) codes =
      (sortHits (codes.map (Hit.of query) ++ hits)).take k := by
  rw [← foldl_offer_take_sortHits, List.foldl_map]
  rfl

/-- Starting with nothing, the best `k` of the hits remain. -/
theorem foldl_offer_nil (k : Nat) (hits : List Hit) :
    hits.foldl (offer k) [] = (sortHits hits).take k := by
  have step := foldl_offer_take_sortHits k [] hits
  simpa [sortHits] using step

theorem offerAll_nil (query : Code) (k : Nat) (codes : List Code) :
    offerAll query k [] codes = (sortHits (codes.map (Hit.of query))).take k := by
  rw [← foldl_offer_nil, List.foldl_map]
  rfl

/-- The best `k` of the hits found before and of the codes that were seen, which are all of the codes
or enough of them. -/
structure Gathered (query : Code) (k : Nat) (codes : List Code) (hits best : List Hit)
    (seen : List Code) : Prop where
  part : seen.Subperm codes
  enough : min k (codes.length + hits.length) ≤ seen.length + hits.length
  best_eq : best = (sortHits (seen.map (Hit.of query) ++ hits)).take k

namespace Gathered
variable {query : Code} {k : Nat} {codes seen : List Code} {hits best : List Hit}

/-- What is gathered by offering all codes. -/
theorem all (query : Code) (k : Nat) (codes : List Code) (hits : List Hit) :
    Gathered query k codes hits (offerAll query k ((sortHits hits).take k) codes) codes where
  part := .refl codes
  enough := Nat.min_le_right ..
  best_eq := offerAll_take_sortHits query k hits codes

/-- One gathering after the other is one of the codes of both. -/
theorem append {best' : List Hit} {codes' seen' : List Code}
    (first : Gathered query k codes hits best seen)
    (second : Gathered query k codes' (seen.map (Hit.of query) ++ hits) best' seen') :
    Gathered query k (codes ++ codes') hits best' (seen' ++ seen) where
  part := (second.part.append first.part).trans List.perm_append_comm.subperm
  enough := by
    have enough := first.enough
    have enough' := second.enough
    simp only [List.length_append, List.length_map] at enough' ⊢
    omega
  best_eq := by rw [second.best_eq, List.map_append, List.append_assoc]

theorem of_perm {codes' : List Code} (gathered : Gathered query k codes hits best seen)
    (same : codes.Perm codes') :
    Gathered query k codes' hits best seen where
  part := gathered.part.trans same.subperm
  enough := same.length_eq ▸ gathered.enough
  best_eq := gathered.best_eq

/-- None are gathered if none are kept. -/
theorem zero (query : Code) (codes : List Code) : Gathered query 0 codes [] [] [] where
  part := List.nil_subperm
  enough := Nat.min_le_left ..
  best_eq := rfl

/-- No more can be kept than there are codes. -/
theorem of_min (gathered : Gathered query (min k codes.length) codes [] best seen) :
    Gathered query k codes [] best seen where
  part := gathered.part
  enough := by
    have enough := gathered.enough
    rw [List.length_nil] at enough ⊢
    omega
  best_eq := by
    have few := gathered.part.length_le
    have size : (sortHits (seen.map (Hit.of query) ++ [])).length = seen.length := by
      rw [(sortHits_perm _).length_eq, List.append_nil, List.length_map]
    rw [gathered.best_eq, List.take_eq_take_iff, size]
    omega

theorem length_eq (gathered : Gathered query k codes [] best seen) :
    best.length = min k codes.length := by
  have enough := gathered.enough
  have few := gathered.part.length_le
  rw [gathered.best_eq, List.length_take, (sortHits_perm _).length_eq, List.append_nil,
    List.length_map]
  simp only [List.length_nil] at enough
  omega

theorem codes_subperm (gathered : Gathered query k codes [] best seen) :
    (best.map Hit.code).Subperm codes := by
  have sorted : ((sortHits (seen.map (Hit.of query))).map Hit.code).Perm seen := by
    refine ((sortHits_perm _).map _).trans ?_
    rw [List.map_map]
    exact List.Perm.of_eq (List.map_id seen)
  rw [gathered.best_eq, List.append_nil]
  exact ((List.take_sublist k _).map _).subperm.trans (sorted.subperm.trans gathered.part)

end Gathered

/-- Codes that are all farther away than the worst of `k` hits leave the hits as they are. -/
theorem offerAll_of_farther {query : Code} {k : Nat} {best : List Hit} {worst : Hit}
    (full : best.length = k) (last : best.getLast? = some worst) {codes : List Code}
    (farther : ∀ code ∈ codes, worst.distance < query.hamming code) :
    offerAll query k best codes = best := by
  induction codes with
  | nil => rfl
  | cons code rest ih =>
    have after : compare (Hit.of query code) worst = .gt := by
      have beyond : compare (query.hamming code) worst.distance = .gt :=
        Std.compare_eq_gt.mpr (farther code List.mem_cons_self)
      show (compareOn Hit.distance (Hit.of query code) worst).then _ = .gt
      simp [compareOn, Hit.of, beyond]
    have kept : offer k best (Hit.of query code) = best := by
      simp [offer, full, last, after]
    rw [offerAll, List.foldl_cons, kept]
    exact ih fun other member => farther other (List.mem_cons_of_mem _ member)

end Retrieval
