import Retrieval.Error

/-! How long a ranking may go on: until it is called off or its deadline has passed. -/
namespace Retrieval

/-- What a ranker finds where it looks: `cancelled` is the flag that a caller may have attached, and
`overdue` tells that the deadline has passed. A flag raised or a deadline passed later, while the
ranker works, is in its answer, which may be `cancelled` or `timedOut` whatever it found before. -/
structure Budget where
  cancelled : Option Bool
  overdue : Bool
deriving DecidableEq

namespace Budget

/-- No flag and no deadline. -/
def unlimited : Budget := ⟨none, false⟩

/-- Raise the flag, if there is one. -/
def cancel (b : Budget) : Budget := { b with cancelled := b.cancelled.map fun _ => true }

/-- Being called off is reported before being late. -/
def check (b : Budget) : Except Error Unit :=
  if b.cancelled = some true then .error .cancelled
  else if b.overdue then .error .timedOut
  else .ok ()

end Budget
end Retrieval
