import Retrieval.Service.Basic

/-! The calls of a session that seed it, change its examples or read them. -/
namespace Retrieval.Service

/-- Seed a session: the query is its first positive example, and its neighbours are the first
ranking, each scored by how close it is. -/
def seed (s : Service) (ref : Ref) (query : Key) (n : Nat) : Outcome (List Scored) :=
  s.call ref fun s session =>
    match session.require .seed with
    | .error e => (s, .error e)
    | .ok () =>
      match s.vector query with
      | .error e => (s, .error e)
      | .ok v =>
        match s.nearest session.index v n with
        | (s, .error e) => (s, .error e)
        | (s, .ok found) =>
          let ranking := found.map fun near : Neighbor =>
            (⟨near.id, .ofFloat near.distance.closeness.widen⟩ : Scored)
          let session := { session with
            phase := .initialized, feedback := session.feedback.seeded v ranking }
          (s.putSession ref session, .ok ranking)

/-- Change the feedback of a session in one call, or leave it alone if that fails. -/
def revise (s : Service) (ref : Ref)
    (change : Service → Session → Except Error Feedback) : Outcome Unit :=
  s.call ref fun s session =>
    match change s session with
    | .error e => (s, .error e)
    | .ok feedback => (s.putSession ref { session with feedback := feedback }, .ok ())

/-- Refuse an id that the index of the session does not hold. -/
def requireIndexed (s : Service) (session : Session) (id : String) : Except Error Unit :=
  if s.isIndexed session.index id then .ok () else .error (.notFound indexSpace id)

/-- Mark an indexed id as relevant. -/
def addPositive (s : Service) (ref : Ref) (id : String) : Outcome Unit :=
  s.revise ref fun s session => do
    s.requireIndexed session id
    session.feedback.addPositive id

/-- Mark an indexed id as not relevant. -/
def addNegative (s : Service) (ref : Ref) (id : String) : Outcome Unit :=
  s.revise ref fun s session => do
    s.requireIndexed session id
    session.feedback.addNegative id

/-- Apply a batch of changes to the examples, or none of them. -/
def adjudicate (s : Service) (ref : Ref) (a : Adjudication) : Outcome Unit :=
  s.revise ref fun s session => do
    (a.positives ++ a.negatives).forM (s.requireIndexed session)
    session.feedback.adjudicate a

/-- Look at a session and change its feedback in one call that does not fail. -/
def consult {α : Type} (s : Service) (ref : Ref) (look : Feedback → α)
    (change : Feedback → Feedback) : Outcome α :=
  s.call ref fun s session =>
    (s.putSession ref { session with feedback := change session.feedback },
      .ok (look session.feedback))

/-- Drop a positive example, and tell whether it was one. -/
def removePositive (s : Service) (ref : Ref) (id : String) : Outcome Bool :=
  s.consult ref (·.positives.contains id) (·.removePositive id)

/-- Drop a negative example, and tell whether it was one. -/
def removeNegative (s : Service) (ref : Ref) (id : String) : Outcome Bool :=
  s.consult ref (·.negatives.contains id) (·.removeNegative id)

def positives (s : Service) (ref : Ref) : Outcome (List String) :=
  s.consult ref (·.positives.toList) id

def negatives (s : Service) (ref : Ref) : Outcome (List String) :=
  s.consult ref (·.negatives.toList) id

/-- The present ranking, best first. -/
def ranking (s : Service) (ref : Ref) : Outcome (List Scored) := s.consult ref (·.ranking) id

/-- The first `n` of the present ranking. -/
def top (s : Service) (ref : Ref) (n : Nat) : Outcome (List Scored) :=
  s.consult ref (·.ranking.take n) id

/-- Forget all feedback. -/
def reset (s : Service) (ref : Ref) : Outcome Unit :=
  s.call ref fun s session => (s.putSession ref session.reset, .ok ())

end Retrieval.Service
