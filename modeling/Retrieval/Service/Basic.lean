import Retrieval.Index.Basic
import Retrieval.Session.Registry
import Retrieval.Store.Classification
import Retrieval.Store.Descriptor

/-!
A service holds what sessions work with: a clock, stored descriptors and classifications, indexes
and the sessions themselves. An operation answers the service after it beside its result, because a
call that fails can leave traces: counters, access times, files.
-/
namespace Retrieval

structure Service where
  now : Nat
  files : FileTree
  descriptors : Store Descriptor
  results : Store Classification
  indexes : SortedMap Ref Index
  sessions : SortedMap Ref Session
  registry : Registry

/-- The service after an operation, and what it answered. -/
abbrev Outcome (α : Type) := Service × Except Error α

namespace Service

/-- A service without indexes or sessions. -/
def create (files : FileTree) (descriptors : Store Descriptor) (results : Store Classification)
    (registry : Registry) : Service :=
  ⟨0, files, descriptors, results, ∅, ∅, registry⟩

def advance (s : Service) (nanoseconds : Nat) : Service := { s with now := s.now + nanoseconds }

/-! Stores -/

def descriptorShelf (s : Service) : Shelf Descriptor := ⟨s.descriptors, s.files⟩

def resultShelf (s : Service) : Shelf Classification := ⟨s.results, s.files⟩

def putDescriptorShelf (s : Service) (shelf : Shelf Descriptor) : Service :=
  { s with descriptors := shelf.store, files := shelf.files }

def putResultShelf (s : Service) (shelf : Shelf Classification) : Service :=
  { s with results := shelf.store, files := shelf.files }

/-- The vector of an element as it is stored now. -/
def vector (s : Service) : ReadVector := s.descriptorShelf.computed

/-! Indexes -/

/-- Take in an index under a place of its own. -/
def addIndex (s : Service) (ix : Index) : Service × Ref :=
  let ref := s.indexes.size
  ({ s with indexes := s.indexes.insert ref ix }, ref)

/-- What is said about an index that the service does not hold. -/
def noIndex : Error := .notFound indexSpace ""

/-- Change an index; `change` answers the index after it and its result. -/
def onIndex {α : Type} (s : Service) (ref : Ref) (change : Index → Index × Except Error α) :
    Outcome α :=
  match s.indexes.get? ref with
  | none => (s, .error noIndex)
  | some ix =>
    let after := change ix
    ({ s with indexes := s.indexes.insert ref after.1 }, after.2)

/-- Change an index, or leave it alone if that fails. -/
def replaceIndex (s : Service) (ref : Ref) (change : Index → Except Error Index) :
    Outcome Unit :=
  s.onIndex ref fun ix => ix.settle (change ix)

def build (s : Service) (ref : Ref) (keys : List Key) : Outcome Unit :=
  s.replaceIndex ref fun ix => ix.build s.vector keys

def update (s : Service) (ref : Ref) (keys : List Key) : Outcome Unit :=
  s.onIndex ref fun ix => ix.update s.vector keys

def remove (s : Service) (ref : Ref) (ids : List String) : Outcome Unit :=
  s.onIndex ref fun ix => ix.remove ids

def resetIndex (s : Service) (ref : Ref) : Outcome Unit := s.replaceIndex ref Index.reset

/-- The nearest neighbours of a vector. -/
def nearest (s : Service) (ref : Ref) (query : Descriptor) (n : Nat) : Outcome (List Neighbor) :=
  s.onIndex ref fun ix =>
    match ix.nearest s.vector query n with
    | .ok (found, after) => (after, .ok found)
    | .error e => (ix, .error e)

/-- The nearest neighbours of a stored vector. -/
def nearestTo (s : Service) (ref : Ref) (key : Key) (n : Nat) : Outcome (List Neighbor) :=
  match s.vector key with
  | .error e => (s, .error e)
  | .ok query => s.nearest ref query n

def isIndexed (s : Service) (ref : Ref) (id : String) : Bool :=
  (s.indexes.get? ref).any (·.contains id)

/-- The handle of an indexed id. -/
def handle (s : Service) (ref : Ref) (id : String) : Except Error Key :=
  match s.indexes.get? ref with
  | none => .error noIndex
  | some ix => ix.handle id

/-! Sessions -/

/-- What is said about a session that the service does not hold. -/
def noSession : Error := .notFound sessionSpace ""

def putSession (s : Service) (ref : Ref) (session : Session) : Service :=
  { s with sessions := s.sessions.insert ref session }

/-- Take in a session under a place of its own, known to no registry. -/
def addSession (s : Service) (session : Session) : Service × Ref :=
  let ref := s.sessions.size
  (s.putSession ref session, ref)

/-- Begin a call of a session. -/
def enter (s : Service) (ref : Ref) : Except Error Service :=
  match s.sessions.get? ref with
  | none => .error noSession
  | some session => (session.enter s.now).map (s.putSession ref)

/-- End a call of a session. -/
def leave (s : Service) (ref : Ref) : Service :=
  match s.sessions.get? ref with
  | none => s
  | some session => s.putSession ref (session.leave s.now)

/-- Run the body of a call between its begin and its end, whether it succeeds or fails. -/
def call {α : Type} (s : Service) (ref : Ref) (body : Service → Session → Outcome α) : Outcome α :=
  match s.enter ref with
  | .error e => (s, .error e)
  | .ok s =>
    match s.sessions.get? ref with
    | none => (s, .error noSession)
    | some session =>
      let after := body s session
      (after.1.leave ref, after.2)

end Service
end Retrieval
