import Retrieval.Distance
import Retrieval.Hasher.Basic
import Retrieval.Index.Contents
import Retrieval.Index.Settings
import Retrieval.Metrics

/-!
Nearest-neighbour indexes over stored descriptors. Codes narrow a query down to candidates, and the
exact angular distance ranks them. Vectors stay in their store: an index holds handles and is given
the function that reads them.
-/
namespace Retrieval

/-- How an index gets at the vector of a handle. -/
abbrev ReadVector := Key → Except Error Descriptor

/-- Hash the stored vectors of `keys`; the first that cannot be read or hashed is the error. -/
def Hasher.hashAll (h : Hasher) (read : ReadVector) (keys : List Key) :
    Except Error (List (Key × Code)) :=
  keys.mapM fun key => do return (key, ← h.hash (← read key))

/-- An answer to a query. -/
structure Neighbor where
  id : String
  distance : Distance
deriving DecidableEq

namespace Neighbor

/-- Nearest first, and ids in order at one distance. -/
def before (a b : Neighbor) : Bool :=
  (compareLex (compareOn distance) (compareOn id) a b).isLE

end Neighbor

structure Index where
  hasher : Hasher
  settings : IndexSettings
  contents : Contents
  metrics : Option Metrics

namespace Index

/-- An empty index, unless the settings or the hasher are of no use. -/
def create (hasher : Hasher) (settings : IndexSettings) (metrics : Bool) : Except Error Index := do
  settings.validate
  if hasher.dimension = 0 ∨ hasher.bits = 0 then throw (.invalidConfig .functorEmpty)
  return ⟨hasher, settings, ← Contents.empty settings.search, if metrics then some {} else none⟩

/-- Change the metrics, if any are kept. -/
def tally (ix : Index) (count : Metrics → Metrics) : Index :=
  { ix with metrics := ix.metrics.map count }

/-- Take on the index that a change answers, or stay as it is if the change fails. -/
def settle (ix : Index) : Except Error Index → Index × Except Error Unit
  | .ok after => (after, .ok ())
  | .error e => (ix, .error e)

/-- Index `keys` from scratch. The last of several keys with one id counts. -/
def build (ix : Index) (read : ReadVector) (keys : List Key) : Except Error Index := do
  if ix.contents.built then throw (.invalidState .alreadyBuilt)
  let hashed ← ix.hasher.hashAll read keys
  let staged ← Contents.empty ix.settings.search
  let contents ← (staged.assignAll hashed).1.plant
  return { ix with contents := contents }.tally (·.countIndexed hashed.length.toUInt64)

/-- Add or re-index `keys`. The index counts as built only if its search took every code. -/
def update (ix : Index) (read : ReadVector) (keys : List Key) : Index × Except Error Unit :=
  match ix.hasher.hashAll read keys with
  | .error e => (ix, .error e)
  | .ok hashed =>
    let (contents, emptied, fresh) := ix.contents.assignAll hashed
    match contents.sync emptied fresh with
    | (contents, .error e) => ({ ix with contents := contents }, .error e)
    | (contents, .ok ()) =>
      let ix := { ix with contents := { contents with built := true } }
      (ix.tally (·.countIndexed hashed.length.toUInt64), .ok ())

/-- Remove ids; if one is not indexed, none is removed. -/
def remove (ix : Index) (ids : List String) : Index × Except Error Unit :=
  match ids.find? fun id => !ix.contents.codes.contains id with
  | some missing => (ix, .error (.notFound indexSpace missing))
  | none =>
    let (contents, emptied, count) := ix.contents.removeAll ids
    match contents.sync emptied [] with
    | (contents, .error e) => ({ ix with contents := contents }, .error e)
    | (contents, .ok ()) =>
      (({ ix with contents := contents }).tally (·.countRemoved count.toUInt64), .ok ())

/-- Forget all that is indexed. -/
def reset (ix : Index) : Except Error Index :=
  (Contents.empty ix.settings.search).map fun contents => { ix with contents := contents }

/-- Double `k` up to `limit` until what `gather` finds for it is enough. -/
def widen (gather : Nat → List Hit) (enough : List Hit → Bool) (limit k : Nat) (positive : 0 < k) :
    List Hit :=
  let found := gather k
  if done : enough found ∨ found.length < k ∨ limit ≤ k then found
  else widen gather enough limit (min (2 * k) limit) (by omega)
termination_by limit - k
decreasing_by omega

/-- The ids filed under a code, in order. -/
def bucket (ix : Index) (code : Code) : List String :=
  ((ix.contents.buckets.get? code).getD ∅).toList

/-- The ids filed under the codes of hits, one code after the other. -/
def members (ix : Index) (hits : List Hit) : List String := hits.flatMap fun hit => ix.bucket hit.code

/-- The codes whose members are compared: the nearest, until they have enough ids for `n`. -/
def probed (ix : Index) (query : Code) (n : Nat) (positive : 0 < n) : List Hit :=
  let target := min (n * ix.settings.overfetch) ix.contents.codes.size
  let limit := ix.contents.buckets.size
  if some_code : 0 < limit then
    widen (ix.contents.search.nearest query)
      (fun hits => target ≤ (ix.members hits).length)
      limit (min n limit) (by omega)
  else []

/-- How far an indexed id is from the query. -/
def measure (ix : Index) (read : ReadVector) (query : Descriptor) (id : String) :
    Except Error Neighbor := do
  match ix.contents.handles.get? id with
  | none => throw (.invalidState (.handleMissing id))
  | some key =>
    let v ← read key
    if v.length ≠ query.length then throw (.dimensionMismatch query.length v.length)
    return ⟨id, .angular query v⟩

/-- The `n` nearest of the indexed ids, nearest first. Only answered queries are counted. An index
has no clock here: each query counts as one of zero nanoseconds, and the times that a run adds up
are left open. -/
def nearest (ix : Index) (read : ReadVector) (query : Descriptor) (n : Nat) :
    Except Error (List Neighbor × Index) := do
  let code ← ix.hasher.hash query
  if asked : 0 < n ∧ 0 < ix.contents.codes.size then
    let hits := ix.probed code n asked.1
    let measured ← (ix.members hits).mapM (ix.measure read query)
    let answer := (measured.mergeSort Neighbor.before).take n
    let ix := ix.tally (·.countQuery hits.length.toUInt64 measured.length.toUInt64 0
      (answer.length < n))
    return (answer, ix)
  else return ([], ix.tally (·.countQuery 0 0 0 (0 < n)))

def count (ix : Index) : Nat := ix.contents.codes.size

def isEmpty (ix : Index) : Bool := ix.count = 0

def isBuilt (ix : Index) : Bool := ix.contents.built

def contains (ix : Index) (id : String) : Bool := ix.contents.codes.contains id

/-- The handle of an indexed id. -/
def handle (ix : Index) (id : String) : Except Error Key :=
  match ix.contents.handles.get? id with
  | some key => .ok key
  | none => .error (.notFound indexSpace id)

/-- The code that an id is filed under. -/
def code? (ix : Index) (id : String) : Option Code := ix.contents.codes.get? id

/-- Every indexed id, in order. -/
def ids (ix : Index) : List String := ix.contents.codes.keys

def resetMetrics (ix : Index) : Index := ix.tally fun _ => {}

def describe (ix : Index) : String :=
  "LshNearestNeighborsIndex \x7b built: " ++ toString ix.isBuilt ++ ", num_ids: " ++
    toString ix.count ++ ", num_codes: " ++ toString ix.contents.buckets.size ++ ", functor: " ++
    ix.hasher.describe ++ ", config: " ++ ix.settings.describe ++ ", has_metrics: " ++
    toString ix.metrics.isSome ++ " \x7d"

end Index
end Retrieval
