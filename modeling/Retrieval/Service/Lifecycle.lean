import Retrieval.Service.Basic

/-! How sessions come and go: the registry gives out sessions, closes them and reaps idle ones. -/
namespace Retrieval.Service

/-- Start a session under an id that is not taken. -/
def openSession (s : Service) (id : String) (index : Ref) (ranker : Ranker) : Outcome Ref :=
  if s.registry.isTaken id then (s, .error (.invalidState (.idInUse id)))
  else
    let session := Session.create id s.now s.registry.settings.session index ranker
      s.registry.resultLabel
    let added := s.addSession session
    ({ added.1 with registry := added.1.registry.add id added.2 }, .ok added.2)

/-- Look up a live session, which counts as an access. -/
def find (s : Service) (id : String) : Outcome Ref :=
  match s.registry.live.get? id with
  | none => (s, .error (s.registry.missing id))
  | some ref => s.call ref fun s _ => (s, .ok ref)

/-- End a session in the given phase unless it is over, and take it out of the registry. -/
def evict (s : Service) (id : String) (ref : Ref) (phase : Phase) : Service :=
  match s.sessions.get? ref with
  | none => { s with registry := s.registry.retire id phase }
  | some session =>
    let session := session.terminate phase
    { s.putSession ref session with registry := s.registry.retire id session.phase }

def close (s : Service) (id : String) : Outcome Unit :=
  match s.registry.live.get? id with
  | none => (s, .error (s.registry.missing id))
  | some ref => (s.evict id ref .closed, .ok ())

/-- Whether a session may go: it is over or idle. -/
def isSpent (s : Service) (ref : Ref) : Bool :=
  (s.sessions.get? ref).any fun session => session.phase.isTerminal || session.isIdle s.now

/-- Expire those of the sessions that may go, one after the other. -/
def reapAll (s : Service) : List (String × Ref) → Service × List String
  | [] => (s, [])
  | (id, ref) :: rest =>
    if s.isSpent ref then
      let after := (s.evict id ref .expired).reapAll rest
      (after.1, id :: after.2)
    else s.reapAll rest

/-- Expire the sessions that have been idle too long, visiting them in some order, and answer their
ids. Without expiry nothing happens. -/
def reap (s : Service) (order : List String) : Service × List String :=
  if s.registry.settings.expires then s.reapAll (s.registry.arranged order) else (s, [])

/-- Close every live session in some order and answer how many there were. -/
def drain (s : Service) (order : List String) : Service × Nat :=
  let live := s.registry.arranged order
  (live.foldl (fun s entry => s.evict entry.1 entry.2 .closed) s, live.length)

end Retrieval.Service
