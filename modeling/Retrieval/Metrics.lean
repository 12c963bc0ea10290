import Retrieval.Number.Decimal

/-! Counts of what an index did, kept in 64-bit counters that wrap around. -/
namespace Retrieval

structure Metrics where
  queries : UInt64 := 0
  codes : UInt64 := 0
  candidates : UInt64 := 0
  nanoseconds : UInt64 := 0
  short : UInt64 := 0
  indexed : UInt64 := 0
  removed : UInt64 := 0
deriving DecidableEq, Inhabited

namespace Metrics

/-- Count a query: the codes it looked at, the candidates it compared and the time it took. A short
one answered fewer neighbours than it was asked for. -/
def countQuery (m : Metrics) (codes candidates nanoseconds : UInt64) (short : Bool) : Metrics :=
  { m with
    queries := m.queries + 1
    codes := m.codes + codes
    candidates := m.candidates + candidates
    nanoseconds := m.nanoseconds + nanoseconds
    short := if short then m.short + 1 else m.short }

def countIndexed (m : Metrics) (count : UInt64) : Metrics := { m with indexed := m.indexed + count }

def countRemoved (m : Metrics) (count : UInt64) : Metrics := { m with removed := m.removed + count }

/-- The share of a total that one query has; there is none before the first query. -/
def perQuery (m : Metrics) (total : UInt64) : Float :=
  if m.queries = 0 then 0 else total.toFloat / m.queries.toFloat

/-- The mean time of a query in microseconds. -/
def meanMicroseconds (m : Metrics) : Double := .ofFloat (m.perQuery m.nanoseconds / 1000)

def meanCodes (m : Metrics) : Double := .ofFloat (m.perQuery m.codes)

def meanCandidates (m : Metrics) : Double := .ofFloat (m.perQuery m.candidates)

def text (m : Metrics) : String :=
  "Queries: " ++ toString m.queries ++ " (" ++ toString m.short ++ " partial), Indexed: " ++
    toString m.indexed ++ ", Removed: " ++ toString m.removed ++ ", Avg query: " ++
    m.meanMicroseconds.fixed 2 ++ "us, Avg codes: " ++ m.meanCodes.fixed 1 ++
    ", Avg candidates: " ++ m.meanCandidates.fixed 1

end Metrics
end Retrieval
