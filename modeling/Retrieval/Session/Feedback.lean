import Retrieval.Error
import Retrieval.Ranking.Ranker
import Retrieval.Sorted.Set

/-!
What a session has learned: the query that seeded it, the examples chosen since, the pool of
candidates and how they rank. No id is an example of both kinds.
-/
namespace Retrieval

structure Feedback where
  seed : Option Descriptor
  positives : SortedSet String
  negatives : SortedSet String
  pool : SortedSet String
  ranking : List Scored

/-- A batch of changes to the examples: what is no longer one goes before what becomes one. -/
structure Adjudication where
  positives : List String
  negatives : List String
  noLongerPositive : List String
  noLongerNegative : List String
deriving DecidableEq

namespace Feedback

/-- Nothing learned yet. -/
def empty : Feedback := ⟨none, ∅, ∅, ∅, []⟩

/-- Start from a query and its neighbours. Examples chosen before stay. -/
def seeded (f : Feedback) (query : Descriptor) (ranking : List Scored) : Feedback :=
  { f with seed := some query, pool := .ofList (ranking.map Scored.id), ranking := ranking }

def addPositive (f : Feedback) (id : String) : Except Error Feedback :=
  if f.negatives.contains id then .error (.conflict id)
  else .ok { f with positives := f.positives.insert id }

def addNegative (f : Feedback) (id : String) : Except Error Feedback :=
  if f.positives.contains id then .error (.conflict id)
  else .ok { f with negatives := f.negatives.insert id }

def removePositive (f : Feedback) (id : String) : Feedback :=
  { f with positives := f.positives.erase id }

def removeNegative (f : Feedback) (id : String) : Feedback :=
  { f with negatives := f.negatives.erase id }

/-- The first new example that the batch would leave an example of both kinds. -/
def conflictOf (f : Feedback) (a : Adjudication) : Option String :=
  (a.positives.find? fun id => a.negatives.contains id) <|>
  (a.positives.find? fun id => f.negatives.contains id && !a.noLongerNegative.contains id) <|>
  (a.negatives.find? fun id => f.positives.contains id && !a.noLongerPositive.contains id)

/-- Apply a batch of changes, or none of them. -/
def adjudicate (f : Feedback) (a : Adjudication) : Except Error Feedback :=
  match f.conflictOf a with
  | some id => .error (.conflict id)
  | none => .ok { f with
      positives := (f.positives.eraseMany a.noLongerPositive).insertMany a.positives
      negatives := (f.negatives.eraseMany a.noLongerNegative).insertMany a.negatives }

/-- Rank a pool anew. The examples and the seed stay. -/
def reranked (f : Feedback) (pool : List Key) (ranking : List Scored) : Feedback :=
  { f with pool := .ofList (pool.map Key.id), ranking := ranking }

end Feedback
end Retrieval
