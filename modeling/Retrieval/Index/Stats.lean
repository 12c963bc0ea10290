import Retrieval.Index.Basic

/-! How full an index is. -/
namespace Retrieval

structure IndexStats where
  ids : Nat
  codes : Nat
  bits : Nat
  dimension : Nat
  meanBucket : Double
  largestBucket : Nat
deriving DecidableEq

/-- Counts of an index; the mean over no codes at all is zero. -/
def Index.stats (ix : Index) : IndexStats where
  ids := ix.count
  codes := ix.contents.buckets.size
  bits := ix.hasher.bits
  dimension := ix.hasher.dimension
  meanBucket := .ofFloat (
    if ix.contents.buckets.size = 0 then 0
    else ix.count.toFloat / ix.contents.buckets.size.toFloat)
  largestBucket := (ix.contents.buckets.values.map SortedSet.size).foldl max 0

def IndexStats.text (s : IndexStats) : String :=
  "LshNearestNeighborsIndex \x7b ids: " ++ toString s.ids ++ ", codes: " ++ toString s.codes ++
    ", bits: " ++ toString s.bits ++ ", dim: " ++ toString s.dimension ++ ", avg_bucket: " ++
    s.meanBucket.fixed 1 ++ ", max_bucket: " ++ toString s.largestBucket ++ " \x7d"

end Retrieval
