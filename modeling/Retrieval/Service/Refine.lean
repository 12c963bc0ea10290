import Retrieval.Service.Basic

/-!
Refining a session. Ranking runs while other operations go on, so a refinement has two ends:
`beginRefine` settles what is ranked, and `finishRefine` ranks it and takes the result over unless
the session is over or was reset in between. The call is under way from one end to the other.
-/
namespace Retrieval

/-- A refinement that is under way. -/
structure Refinement where
  session : Ref
  request : RankRequest
  budget : Budget
  /-- How often the session had been reset when the refinement began. -/
  resets : Nat

namespace Service

/-- The label that a score is written back under. -/
def positiveLabel : String := "positive"

/-- The label of the confidence against, which a score is written back with. -/
def negativeLabel : String := "negative"

/-- The vectors of the examples that are still indexed. -/
def exampleVectors (s : Service) (index : Ref) : List String → Except Error (List Descriptor)
  | [] => .ok []
  | id :: rest =>
    match s.handle index id with
    | .error (.notFound _ _) => s.exampleVectors index rest
    | .error e => .error e
    | .ok key => do return (← s.vector key) :: (← s.exampleVectors index rest)

/-- Add the neighbours of each example to the pool, looking at the budget before each. -/
def growPool (s : Service) (index : Ref) (size : Nat) (budget : Budget) (pool : SortedSet String) :
    List Descriptor → Outcome (SortedSet String)
  | [] => (s, .ok pool)
  | chosen :: rest =>
    match budget.check with
    | .error e => (s, .error e)
    | .ok () =>
      match s.nearest index chosen size with
      | (s, .error e) => (s, .error e)
      | (s, .ok found) =>
        s.growPool index size budget (pool.insertMany (found.map Neighbor.id)) rest

/-- The handles of the ids that are indexed. -/
def handlesIn (s : Service) (index : Ref) (ids : List String) : List Key :=
  ids.filterMap fun id => (s.handle index id).toOption

/-- The vectors of the examples of a session, positive and negative; the seed is the first of the
positive ones. -/
def gatherExamples (s : Service) (session : Session) :
    Except Error (List Descriptor × List Descriptor) := do
  session.require .refine
  let chosen ← s.exampleVectors session.index session.feedback.positives.toList
  let negatives ← s.exampleVectors session.index session.feedback.negatives.toList
  let positives := session.feedback.seed.toList ++ chosen
  if positives.isEmpty then throw (.invalidState (.noPositives session.id))
  return (positives, negatives)

/-- Gather the examples and the pool of a refinement within a call. -/
def prepareRefine (s : Service) (ref : Ref) (session : Session) (budget : Budget) :
    Outcome Refinement :=
  match s.gatherExamples session with
  | .error e => (s, .error e)
  | .ok (positives, negatives) =>
    match s.growPool session.index session.settings.poolSize budget session.feedback.pool
        positives with
    | (s, .error e) => (s, .error e)
    | (s, .ok pool) =>
      let request := ⟨positives, negatives, s.handlesIn session.index pool.toList⟩
      (s, .ok ⟨ref, request, budget, session.resets⟩)

/-- Begin to refine: gather the examples and the pool. The call ends here only if that fails. -/
def beginRefine (s : Service) (ref : Ref) (budget : Budget) : Outcome Refinement :=
  match s.enter ref with
  | .error e => (s, .error e)
  | .ok s =>
    match s.sessions.get? ref with
    | none => (s, .error noSession)
    | some session =>
      match s.prepareRefine ref session budget with
      | (s, .error e) => (s.leave ref, .error e)
      | (s, .ok refinement) => (s, .ok refinement)

/-- Store both confidences of each ranked id; what was stored before a failure stays stored. -/
def writeBack (s : Service) (label : String) : List Scored → Outcome Unit
  | [] => (s, .ok ())
  | scored :: rest =>
    let against := Double.ofFloat (1 - scored.score.value)
    let result := SortedMap.ofList [(positiveLabel, scored.score), (negativeLabel, against)]
    match s.resultShelf.setClassification ⟨label, scored.id⟩ result with
    | (shelf, .error e) => (s.putResultShelf shelf, .error e)
    | (shelf, .ok ()) => (s.putResultShelf shelf).writeBack label rest

/-- Write a ranking back if there is a label to store it under. -/
def record (s : Service) (label : Option String) (ranking : List Scored) : Outcome Unit :=
  match label with
  | none => (s, .ok ())
  | some label => s.writeBack label ranking

/-- Take a ranking over, if the session still is what it was. -/
def commitRanking (s : Service) (r : Refinement) (scores : List Scored) : Outcome (List Scored) :=
  match s.sessions.get? r.session with
  | none => (s, .error noSession)
  | some session =>
    if session.phase.isTerminal then (s, .error (.sessionUnavailable session.id session.phase))
    else if session.resets ≠ r.resets then
      (s, .error (.invalidState (.resetMeanwhile session.id)))
    else
      let ranking := Scored.ranked scores
      match s.record session.resultLabel ranking with
      | (s, .error e) => (s, .error e)
      | (s, .ok ()) =>
        let session := { session with
          phase := .refining, feedback := session.feedback.reranked r.request.pool ranking }
        (s.putSession r.session session, .ok ranking)

/-- What the ranker of the session makes of the request now. -/
def rankNow (s : Service) (r : Refinement) : Except Error (List Scored) :=
  match s.sessions.get? r.session with
  | none => .error noSession
  | some session => session.ranker.rank s.vector r.request r.budget

/-- Take over what the ranker answered and end the call. -/
def endRefine (s : Service) (r : Refinement) (answer : Except Error (List Scored)) :
    Outcome (List Scored) :=
  let after : Outcome (List Scored) := match answer with
    | .error e => (s, .error e)
    | .ok scores => s.commitRanking r scores
  (after.1.leave r.session, after.2)

/-- Rank, take the ranking over and end the call. -/
def finishRefine (s : Service) (r : Refinement) : Outcome (List Scored) :=
  s.endRefine r (s.rankNow r)

/-- Refine with nothing going on in between. -/
def refine (s : Service) (ref : Ref) (budget : Budget) : Outcome (List Scored) :=
  match s.beginRefine ref budget with
  | (s, .error e) => (s, .error e)
  | (s, .ok refinement) => s.finishRefine refinement

end Service
end Retrieval
