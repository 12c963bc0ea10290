import Retrieval.Session.Basic
import Retrieval.Sorted.Map

/-!
The registry knows the sessions that are live and remembers how the last ones ended, so that their
ids are reported as over rather than unknown and are not given out again.
-/
namespace Retrieval

/-- How sessions ended, oldest first in `order`. -/
structure Retired where
  order : List String
  phases : SortedMap String Phase
deriving DecidableEq

namespace Retired

def empty : Retired := ⟨[], ∅⟩

/-- Keep the last `capacity` of the ids in `order` and forget the phases of the others. -/
def forget (capacity : Nat) (r : Retired) : List String → Retired
  | [] => { r with order := [] }
  | id :: rest =>
    if capacity < (id :: rest).length then forget capacity { r with phases := r.phases.erase id } rest
    else { r with order := id :: rest }

/-- Remember an end; what goes beyond the capacity is forgotten, oldest first. -/
def add (r : Retired) (id : String) (phase : Phase) (capacity : Nat) : Retired :=
  if capacity = 0 then r
  else
    let order := if r.phases.contains id then r.order else r.order ++ [id]
    forget capacity { r with phases := r.phases.insert id phase } order

end Retired

/-- Entries in an order that is told by ids: those that it names come first, as it names them. -/
def arrange : (order : List String) → List (String × Ref) → List (String × Ref)
  | [], entries => entries
  | id :: rest, entries =>
    entries.filter (·.1 = id) ++ arrange rest (entries.filter fun entry => !(entry.1 = id))

structure Registry where
  settings : RegistrySettings
  /-- The label that new sessions write their rankings back under. -/
  resultLabel : Option String
  live : SortedMap String Ref
  retired : Retired
deriving DecidableEq

namespace Registry

/-- An empty registry, unless the settings are of no use. -/
def create (settings : RegistrySettings) (resultLabel : Option String) : Except Error Registry := do
  settings.validate
  return ⟨settings, resultLabel, ∅, .empty⟩

/-- Whether an id belongs to a session that is live or remembered. -/
def isTaken (r : Registry) (id : String) : Bool :=
  r.live.contains id || r.retired.phases.contains id

/-- What is said about an id that is not live. -/
def missing (r : Registry) (id : String) : Error :=
  match r.retired.phases.get? id with
  | some phase => .sessionUnavailable id phase
  | none => .notFound sessionSpace id

def add (r : Registry) (id : String) (session : Ref) : Registry :=
  { r with live := r.live.insert id session }

/-- The live sessions in an order that the caller tells, for the registry keeps none of its own. -/
def arranged (r : Registry) (order : List String) : List (String × Ref) :=
  arrange order r.live.entries

/-- Take a session out and remember how it ended. -/
def retire (r : Registry) (id : String) (phase : Phase) : Registry :=
  { r with
    live := r.live.erase id
    retired := r.retired.add id phase r.settings.remembered }

def size (r : Registry) : Nat := r.live.size

def ids (r : Registry) : List String := r.live.keys

def describe (r : Registry) : String :=
  "IqrSessionManager \x7b sessions: " ++ toString r.size ++ ", config: " ++ r.settings.describe ++
    " \x7d"

end Registry
end Retrieval
