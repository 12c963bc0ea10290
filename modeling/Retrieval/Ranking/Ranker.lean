import Retrieval.Ranking.Budget
import Retrieval.Descriptor
import Retrieval.Sorted.Map

/-! Rankers score the candidates of a session by its examples. -/
namespace Retrieval

/-- An id with its relevance. -/
structure Scored where
  id : String
  score : Double
deriving DecidableEq

namespace Scored

/-- Best score first, and ids in order at one score. -/
def before (a b : Scored) : Bool :=
  match compare b.score a.score with
  | .lt => true
  | .gt => false
  | .eq => (compare a.id b.id).isLE

/-- The ranking that a list of scores amounts to. -/
def ranked (scores : List Scored) : List Scored := scores.mergeSort before

end Scored

/-- What a ranker works from. -/
structure RankRequest where
  positives : List Descriptor
  negatives : List Descriptor
  pool : List Key
deriving DecidableEq

/-- A ranker scores the pool in its order, reading vectors through the given function. -/
structure Ranker where
  rank : (Key → Except Error Descriptor) → RankRequest → Budget → Except Error (List Scored)

namespace Ranker

/-- Gives every id the score set for it, or a common one, and looks at nothing else. -/
def fixed (scores : SortedMap String Double) (otherwise : Double) : Ranker where
  rank _ request _ := .ok (request.pool.map fun key =>
    ⟨key.id, (scores.get? key.id).getD otherwise⟩)

end Ranker
end Retrieval
