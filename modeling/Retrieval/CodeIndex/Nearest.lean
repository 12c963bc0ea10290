import Retrieval.Code.Basic

/-!
The best hits of a search, kept while codes are offered one after the other. Nearer codes come
first, and codes at one distance follow the order of codes.
-/
namespace Retrieval

/-- A stored code and its Hamming distance from a query. -/
structure Hit where
  distance : UInt32
  code : Code
deriving DecidableEq

namespace Hit

instance : Ord Hit := ⟨compareLex (compareOn Hit.distance) (compareOn Hit.code)⟩

instance : Std.TransOrd Hit :=
  inferInstanceAs (Std.TransCmp (compareLex (compareOn Hit.distance) (compareOn Hit.code)))

instance : Std.LawfulEqOrd Hit where
  eq_of_compare {a b} same := by
    have parts : compareOn Hit.distance a b = .eq ∧ compareOn Hit.code a b = .eq :=
      Ordering.then_eq_eq.1 same
    have distances : a.distance = b.distance := Std.LawfulEqOrd.eq_of_compare parts.1
    have codes : a.code = b.code := Std.LawfulEqOrd.eq_of_compare parts.2
    cases a; cases b; cases distances; cases codes; rfl

/-- A code as seen from `query`. -/
def of (query code : Code) : Hit := ⟨query.hamming code, code⟩

end Hit

/-- Put a hit in its place in an ascending list. -/
def insertHit (hit : Hit) : List Hit → List Hit
  | [] => [hit]
  | next :: rest =>
    if compare hit next = .gt then next :: insertHit hit rest else hit :: next :: rest

/-- Keep the `k` smallest hits so far, in ascending order; the last one gives way to a smaller. -/
def offer (k : Nat) (best : List Hit) (hit : Hit) : List Hit :=
  if best.length < k then insertHit hit best
  else
    match best.getLast? with
    | none => best
    | some worst => if compare hit worst = .lt then insertHit hit best.dropLast else best

/-- Offer each code in turn. -/
def offerAll (query : Code) (k : Nat) (best : List Hit) (codes : List Code) : List Hit :=
  codes.foldl (fun best code => offer k best (Hit.of query code)) best

end Retrieval
