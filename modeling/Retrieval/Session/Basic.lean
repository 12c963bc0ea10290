import Retrieval.Session.Feedback
import Retrieval.Session.Settings

/-!
Sessions refine one query by feedback. A session counts the calls that are under way and notes when
one last began or ended, so that it can expire when it is idle; times are in nanoseconds.
-/
namespace Retrieval

/-- The place of an index or a session among those of a service. -/
abbrev Ref := Nat

structure Session where
  id : String
  createdAt : Nat
  settings : SessionSettings
  index : Ref
  ranker : Ranker
  /-- Under which label rankings are written back, if they are. -/
  resultLabel : Option String
  phase : Phase
  busy : Nat
  lastAccess : Nat
  /-- How often the session was reset. -/
  resets : Nat
  feedback : Feedback

namespace Session

/-- A session that nothing has been asked of yet. -/
def create (id : String) (now : Nat) (settings : SessionSettings) (index : Ref) (ranker : Ranker)
    (resultLabel : Option String) : Session where
  id := id
  createdAt := now
  settings := settings
  index := index
  ranker := ranker
  resultLabel := resultLabel
  phase := .created
  busy := 0
  lastAccess := now
  resets := 0
  feedback := .empty

def isBusy (s : Session) : Bool := 0 < s.busy

/-- Begin a call, unless the session is over. -/
def enter (s : Session) (now : Nat) : Except Error Session :=
  if s.phase.isTerminal then .error (.sessionUnavailable s.id s.phase)
  else .ok { s with busy := s.busy + 1, lastAccess := now }

/-- End a call, whatever came of it. -/
def leave (s : Session) (now : Nat) : Session := { s with busy := s.busy - 1, lastAccess := now }

/-- End the session and forget its feedback; a session that is over stays as it ended. -/
def terminate (s : Session) (phase : Phase) : Session :=
  if s.phase.isTerminal then s else { s with phase := phase, feedback := .empty }

/-- Whether the session has been idle for longer than it may, with no call under way. -/
def isIdle (s : Session) (now : Nat) : Bool :=
  s.busy = 0 && s.settings.timeToLive * 1000000000 < now - s.lastAccess

/-- Expire the session if it is idle. -/
def expire (s : Session) (now : Nat) : Session :=
  if s.isIdle now then s.terminate .expired else s

/-- Forget the seed, the examples, the pool and the ranking. -/
def reset (s : Session) : Session :=
  { s with phase := .created, feedback := .empty, resets := s.resets + 1 }

/-- Refuse a call that the present phase does not allow. -/
def require (s : Session) (call : PhasedCall) : Except Error Unit :=
  match call, s.phase with
  | .seed, .created | .refine, .initialized | .refine, .refining => .ok ()
  | _, phase =>
    if phase.isTerminal then .error (.sessionUnavailable s.id phase)
    else .error (.invalidState (.wrongPhase call s.id phase))

def describe (s : Session) : String :=
  "IqrSession \x7b id: " ++ Text.quote s.id ++ ", state: " ++ s.phase.title ++ ", busy: " ++
    toString s.busy ++ ", config: " ++ s.settings.describe ++ " \x7d"

end Session
end Retrieval
