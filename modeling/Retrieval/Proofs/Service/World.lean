import Retrieval.Proofs.Session.Turn
import Retrieval.Service.Feedback
import Retrieval.Service.Lifecycle
import Retrieval.Service.Refine

/-!
All that can happen to a service while refinements are under way. A ranker is the code of others, so
whatever it does in between counts as operations between the two ends of its refinement, and it may
answer anything.
-/
namespace Retrieval

/-- A service and the refinements that have begun and not yet ended. -/
structure World where
  service : Service
  pending : List Refinement

inductive Operation where
  | seed (session : Ref) (query : Key) (n : Nat)
  | addPositive (session : Ref) (id : String)
  | addNegative (session : Ref) (id : String)
  | removePositive (session : Ref) (id : String)
  | removeNegative (session : Ref) (id : String)
  | adjudicate (session : Ref) (changes : Adjudication)
  | positives (session : Ref)
  | negatives (session : Ref)
  | ranking (session : Ref)
  | top (session : Ref) (n : Nat)
  | reset (session : Ref)
  | beginRefine (session : Ref) (budget : Budget)
  /-- The ranker of a pending refinement answers, and the refinement ends. -/
  | endRefine (place : Nat) (answer : Except Error (List Scored))
  | openSession (id : String) (index : Ref) (ranker : Ranker)
  /-- Start a session that no registry knows. -/
  | startAlone (id : String) (settings : SessionSettings) (index : Ref) (ranker : Ranker)
      (resultLabel : Option String)
  | find (id : String)
  | close (id : String)
  /-- End idle sessions, or all of them, one after the other in some order. -/
  | reap (order : List String)
  | drain (order : List String)
  | advance (nanoseconds : Nat)
  /-- What sessions work with changes in any way at all. -/
  | elsewhere (files : FileTree) (descriptors : Store Descriptor) (results : Store Classification)
      (indexes : SortedMap Ref Index)

namespace World

/-- A service with nothing under way. -/
def start (service : Service) : World := ⟨service, []⟩

/-- Let the service go on; all that is kept of an answer is whether it is an error. -/
def goOn {α : Type} (w : World) (outcome : Outcome α) : World × Except Error Unit :=
  (⟨outcome.1, w.pending⟩, outcome.2.map fun _ => ())

def perform (w : World) : Operation → World × Except Error Unit
  | .seed session query n => w.goOn (w.service.seed session query n)
  | .addPositive session id => w.goOn (w.service.addPositive session id)
  | .addNegative session id => w.goOn (w.service.addNegative session id)
  | .removePositive session id => w.goOn (w.service.removePositive session id)
  | .removeNegative session id => w.goOn (w.service.removeNegative session id)
  | .adjudicate session changes => w.goOn (w.service.adjudicate session changes)
  | .positives session => w.goOn (w.service.positives session)
  | .negatives session => w.goOn (w.service.negatives session)
  | .ranking session => w.goOn (w.service.ranking session)
  | .top session n => w.goOn (w.service.top session n)
  | .reset session => w.goOn (w.service.reset session)
  | .beginRefine session budget =>
    match w.service.beginRefine session budget with
    | (service, .error e) => (⟨service, w.pending⟩, .error e)
    | (service, .ok r) => (⟨service, r :: w.pending⟩, .ok ())
  | .endRefine place answer =>
    match w.pending[place]? with
    | none => (w, .ok ())
    | some r =>
      let after := w.service.endRefine r answer
      (⟨after.1, w.pending.eraseIdx place⟩, after.2.map fun _ => ())
  | .openSession id index ranker => w.goOn (w.service.openSession id index ranker)
  | .startAlone id settings index ranker resultLabel =>
    let session := Session.create id w.service.now settings index ranker resultLabel
    (⟨(w.service.addSession session).1, w.pending⟩, .ok ())
  | .find id => w.goOn (w.service.find id)
  | .close id => w.goOn (w.service.close id)
  | .reap order => (⟨(w.service.reap order).1, w.pending⟩, .ok ())
  | .drain order => (⟨(w.service.drain order).1, w.pending⟩, .ok ())
  | .advance nanoseconds => (⟨w.service.advance nanoseconds, w.pending⟩, .ok ())
  | .elsewhere files descriptors results indexes =>
    (⟨{ w.service with files, descriptors, results, indexes }, w.pending⟩, .ok ())

/-- Perform operations one after the other. -/
def run (w : World) (operations : List Operation) : World :=
  operations.foldl (fun w operation => (w.perform operation).1) w

/-- How many calls of a session are under way. -/
def underWay (w : World) (ref : Ref) : Nat := w.pending.countP fun r => r.session = ref

/-- The session of a pending refinement is there. It has been seeded since its last reset, or else
it was reset since the refinement began. -/
structure Awaits (s : Service) (r : Refinement) : Prop where
  positives : r.request.positives ≠ []
  session : ∃ x, s.sessions.get? r.session = some x ∧ r.resets ≤ x.resets ∧
    (x.resets = r.resets → x.phase ≠ .created)

/-- Places are given out in order, every session is consistent and counts the calls that are under
way, and the pending refinements belong to sessions. -/
structure Sound (w : World) : Prop where
  placed : w.service.sessions.keys = List.range w.service.sessions.size
  consistent : ∀ ref x, w.service.sessions.get? ref = some x → x.Consistent
  counted : ∀ ref x, w.service.sessions.get? ref = some x → x.busy = w.underWay ref
  awaited : ∀ r ∈ w.pending, Awaits w.service r

end World
end Retrieval
