/-! The life of a session: created, then seeded, then refined any number of times, then over. -/
namespace Retrieval

inductive Phase where
  | created
  | initialized
  | refining
  | expired
  | closed
deriving DecidableEq, Repr

namespace Phase

/-- A session that is over stays so and answers no more calls. -/
def isTerminal : Phase → Bool
  | .expired | .closed => true
  | _ => false

def text : Phase → String
  | .created => "created"
  | .initialized => "initialized"
  | .refining => "refining"
  | .expired => "expired"
  | .closed => "closed"

/-- The phase as a heading. -/
def title : Phase → String
  | .created => "Created"
  | .initialized => "Initialized"
  | .refining => "Refining"
  | .expired => "Expired"
  | .closed => "Closed"

end Phase
end Retrieval
