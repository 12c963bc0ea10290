import Mathlib.Data.Multiset.AddSub
import Retrieval.Proofs.CodeIndex.Flat

/-!
Offering hits to a heap. Whatever heap gives up a largest hit first, offering hits one after the
other leaves the smallest of them in it, in whatever order they come; so a scan answers the start of
all its hits in order (`HitHeap.offered_smallest`).
-/
namespace Retrieval

/-- `best` lists the `k` smallest of `hits` in ascending order, or all of them if they are fewer. -/
structure Smallest (k : Nat) (hits best : List Hit) : Prop where
  length : best.length = min k hits.length
  ascending : best.Pairwise fun a b => (compare a b).isLE = true
  first : ∃ rest, (best ++ rest).Perm hits ∧
    ∀ kept ∈ best, ∀ other ∈ rest, (compare kept other).isLE = true

theorem smallest_iff {k : Nat} {hits best : List Hit} :
    Smallest k hits best ↔ best = (sortHits hits).take k := by
  have size : (sortHits hits).length = hits.length := (sortHits_perm hits).length_eq
  constructor
  · rintro ⟨length, ascending, rest, parts, first⟩
    have whole : best ++ sortHits rest = sortHits hits := by
      refine hits_eq_of_ascending ?_ (sortHits_ascending hits) ?_
      · refine List.pairwise_append.mpr ⟨ascending, sortHits_ascending rest, ?_⟩
        exact fun kept inside other member =>
          first kept inside other ((sortHits_perm rest).subset member)
      · exact ((sortHits_perm rest).append_left best).trans
          (parts.trans (sortHits_perm hits).symm)
    rw [List.take_eq_take_min, size, ← length, ← whole, List.take_left]
  · rintro rfl
    have ascending := sortHits_ascending hits
    rw [← List.take_append_drop k (sortHits hits)] at ascending
    obtain ⟨kept, _, first⟩ := List.pairwise_append.mp ascending
    refine ⟨by rw [List.length_take, size], kept, (sortHits hits).drop k, ?_, first⟩
    rw [List.take_append_drop]
    exact sortHits_perm hits

/-- A heap that shows and gives up a largest hit. What its operations do is told by the hits that it
holds, each as often as it was pushed; how it lays them out is left open. -/
structure HitHeap (Heap : Type) where
  held : Heap → Multiset Hit
  empty : Heap
  size : Heap → Nat
  push : Heap → Hit → Heap
  peek? : Heap → Option Hit
  pop : Heap → Heap
  sorted : Heap → List Hit
  held_empty : held empty = 0
  size_eq : ∀ heap, size heap = (held heap).card
  held_push : ∀ heap hit, held (push heap hit) = hit ::ₘ held heap
  held_of_none : ∀ heap, peek? heap = none → held heap = 0
  le_peek : ∀ heap worst, peek? heap = some worst →
    ∀ hit ∈ held heap, (compare hit worst).isLE = true
  held_pop : ∀ heap worst, peek? heap = some worst → held heap = worst ::ₘ held (pop heap)
  held_sorted : ∀ heap, held heap = (sorted heap : Multiset Hit)
  sorted_ascending : ∀ heap, (sorted heap).Pairwise fun a b => (compare a b).isLE = true

namespace HitHeap
variable {Heap : Type} (M : HitHeap Heap)

/-- Keep the `k` smallest hits so far: a full heap gives up its largest hit for a smaller one. -/
def offer (k : Nat) (best : Heap) (hit : Hit) : Heap :=
  if M.size best < k then M.push best hit
  else
    match M.peek? best with
    | none => best
    | some worst => if compare hit worst = .lt then M.push (M.pop best) hit else best

/-- Offer every code of a scan and list what the heap holds in the end. -/
def nearest (s : CodeScan) (query : Code) (k : Nat) : List Hit :=
  let k := min k s.members.size
  if k = 0 then []
  else
    let offerCode best code := M.offer k best (Hit.of query code)
    M.sorted (s.members.toList.foldl offerCode M.empty)

/-- A heap shows the last of the hits that it holds, taken in ascending order, and gives up that. -/
theorem peek?_of_held {best : Heap} {rest : List Hit} {last : Hit}
    (ascending : (rest ++ [last]).Pairwise fun a b => (compare a b).isLE = true)
    (same : M.held best = ((rest ++ [last] : List Hit) : Multiset Hit)) :
    M.peek? best = some last ∧ M.held (M.pop best) = (rest : Multiset Hit) := by
  have parts : ((rest ++ [last] : List Hit) : Multiset Hit) = last ::ₘ (rest : Multiset Hit) :=
    Multiset.coe_eq_coe.mpr (List.perm_append_singleton last rest)
  cases shown : M.peek? best with
  | none =>
    have nothing := M.held_of_none best shown
    rw [same, parts] at nothing
    exact absurd nothing Multiset.cons_ne_zero
  | some worst =>
    -- What is shown is no smaller than the last hit, and no larger because it is one of them.
    have popped := M.held_pop best worst shown
    have above : (compare last worst).isLE = true :=
      M.le_peek best worst shown last (by rw [same, parts]; exact Multiset.mem_cons_self _ _)
    have below : (compare worst last).isLE = true := by
      refine isLE_last ascending ?_
      rw [← Multiset.mem_coe, ← same, popped]
      exact Multiset.mem_cons_self _ _
    have equal : worst = last :=
      Std.LawfulEqOrd.eq_of_compare (Std.OrientedCmp.isLE_antisymm below above)
    rw [same, parts, equal, Multiset.cons_inj_right] at popped
    exact ⟨by rw [equal], popped.symm⟩

/-- A heap takes an offer as an ascending list of the same hits does. -/
theorem held_offer {best : Heap} {kept : List Hit}
    (ascending : kept.Pairwise fun a b => (compare a b).isLE = true)
    (same : M.held best = (kept : Multiset Hit)) (k : Nat) (hit : Hit) :
    M.held (M.offer k best hit) = (Retrieval.offer k kept hit : Multiset Hit) := by
  have size : M.size best = kept.length := by rw [M.size_eq, same, Multiset.coe_card]
  have pushed {heap : Heap} {hits : List Hit} (alike : M.held heap = (hits : Multiset Hit)) :
      M.held (M.push heap hit) = (insertHit hit hits : Multiset Hit) := by
    rw [M.held_push, alike]
    exact Multiset.coe_eq_coe.mpr (insertHit_perm hit hits).symm
  unfold offer Retrieval.offer
  rw [size]
  split
  · exact pushed same
  · rcases List.eq_nil_or_concat kept with rfl | ⟨rest, last, rfl⟩
    · cases shown : M.peek? best with
      | none => exact same
      | some worst =>
        have popped := M.held_pop best worst shown
        rw [same] at popped
        exact absurd popped.symm Multiset.cons_ne_zero
    · rw [List.concat_eq_append] at *
      obtain ⟨shown, popped⟩ := M.peek?_of_held ascending same
      simp only [shown, List.getLast?_concat, List.dropLast_concat]
      split
      · exact pushed popped
      · exact same

/-- Offering hits to a heap of the best of some leaves the best of all of them in it. -/
theorem held_foldl_offer {k : Nat} {seen : List Hit} {best : Heap}
    (same : M.held best = ((sortHits seen).take k : Multiset Hit)) (hits : List Hit) :
    M.held (hits.foldl (M.offer k) best) = ((sortHits (hits ++ seen)).take k : Multiset Hit) := by
  induction hits generalizing seen best with
  | nil => exact same
  | cons hit rest ih =>
    have ascending := (sortHits_ascending seen).sublist (List.take_sublist k _)
    have step : M.held (M.offer k best hit) = ((sortHits (hit :: seen)).take k : Multiset Hit) := by
      rw [M.held_offer ascending same, offer_take_sortHits]
    rw [List.foldl_cons, ih step, sortHits_congr List.perm_middle, List.cons_append]

theorem sorted_foldl_offer (k : Nat) (hits : List Hit) :
    M.sorted (hits.foldl (M.offer k) M.empty) = (sortHits hits).take k := by
  have nothing : M.held M.empty = ((sortHits []).take k : Multiset Hit) := by
    rw [M.held_empty]
    simp [sortHits]
  have held := M.held_foldl_offer nothing hits
  rw [List.append_nil, M.held_sorted] at held
  exact hits_eq_of_ascending (M.sorted_ascending _)
    ((sortHits_ascending hits).sublist (List.take_sublist k _)) (Multiset.coe_eq_coe.mp held)

/-- Ascending lists, which show and give up their last hit. -/
def listed : HitHeap {best : List Hit // best.Pairwise fun a b => (compare a b).isLE = true} where
  held best := (best.1 : Multiset Hit)
  empty := ⟨[], .nil⟩
  size best := best.1.length
  push best hit := ⟨insertHit hit best.1, insertHit_ascending hit best.2⟩
  peek? best := best.1.getLast?
  pop best := ⟨best.1.dropLast, best.2.sublist (List.dropLast_sublist _)⟩
  sorted best := best.1
  held_empty := rfl
  size_eq _ := rfl
  held_push best hit := Multiset.coe_eq_coe.mpr (insertHit_perm hit best.1)
  held_of_none best none := by rw [List.getLast?_eq_none_iff.mp none, Multiset.coe_nil]
  le_peek best worst last hit member := by
    obtain ⟨rest, split⟩ := List.getLast?_eq_some_iff.mp last
    have ascending := best.2
    rw [split] at ascending
    rw [Multiset.mem_coe, split] at member
    exact isLE_last ascending member
  held_pop best worst last := by
    obtain ⟨rest, split⟩ := List.getLast?_eq_some_iff.mp last
    show (best.1 : Multiset Hit) = worst ::ₘ (best.1.dropLast : Multiset Hit)
    rw [split, List.dropLast_concat]
    exact Multiset.coe_eq_coe.mpr (List.perm_append_singleton worst rest)
  held_sorted _ := rfl
  sorted_ascending best := best.2

/-- It does not matter to a scan which heap it keeps its hits in. -/
theorem nearest_eq (s : CodeScan) (query : Code) (k : Nat) :
    M.nearest s query k = s.nearest query k := by
  unfold nearest CodeScan.nearest
  dsimp only
  split
  · rfl
  · rw [offerAll_nil, ← M.sorted_foldl_offer, List.foldl_map]

/-- Whatever hits are offered to an empty heap one after the other, it comes to hold the `k`
smallest of them, or all if they are fewer, and their order does not matter; the same holds of an
ascending list. So a scan answers the first `k` of all its codes, nearest first and in the order of
codes at one distance, each with its distance, whichever heap it uses. -/
theorem offered_smallest :
    (∀ (Heap : Type) (M : HitHeap Heap) (k : Nat) (hits : List Hit),
      let best := hits.foldl (M.offer k) M.empty
      M.held best = ((sortHits hits).take k : Multiset Hit) ∧ Smallest k hits (M.sorted best) ∧
        ∀ other, hits.Perm other →
          M.sorted (other.foldl (M.offer k) M.empty) = M.sorted best) ∧
    (∀ (k : Nat) (hits : List Hit), Smallest k hits (hits.foldl (Retrieval.offer k) [])) ∧
    ∀ (s : CodeScan) (query : Code) (k : Nat),
      s.nearest query k =
        (sortHits (s.members.toList.map (Hit.of query))).take (min k s.members.size) ∧
      ∀ (Heap : Type) (M : HitHeap Heap), M.nearest s query k = s.nearest query k := by
  refine ⟨fun Heap M k hits => ⟨?_, ?_, fun other same => ?_⟩, fun k hits => ?_,
    fun s query k => ⟨?_, fun Heap M => M.nearest_eq s query k⟩⟩
  · rw [M.held_sorted, M.sorted_foldl_offer]
  · exact smallest_iff.mpr (M.sorted_foldl_offer k hits)
  · rw [M.sorted_foldl_offer, M.sorted_foldl_offer, sortHits_congr same]
  · exact smallest_iff.mpr (foldl_offer_nil k hits)
  · rw [CodeScan.nearest_eq, List.take_eq_take_min, length_sortHits]

/-- Of two hits at one distance the one whose code comes first stays, whichever is offered first. -/
theorem offered_smallest_tie :
    let near : Hit := ⟨0, .ofBools [true, true]⟩
    let first : Hit := ⟨1, .ofBools [false, true]⟩
    let second : Hit := ⟨1, .ofBools [true, false]⟩
    let kept hits := listed.sorted (hits.foldl (listed.offer 2) listed.empty)
    Smallest 2 [second, near, first] [near, first] ∧ kept [first, second, near] = [near, first] := by
  intro near first second kept
  obtain ⟨_, smallest, unordered⟩ := offered_smallest.1 _ listed 2 [second, near, first]
  have listing : kept [second, near, first] = [near, first] := by decide +kernel
  have reordered : [second, near, first].Perm [first, second, near] :=
    List.perm_append_singleton first [second, near]
  exact ⟨listing ▸ smallest, (unordered _ reordered).trans listing⟩

end HitHeap
end Retrieval
