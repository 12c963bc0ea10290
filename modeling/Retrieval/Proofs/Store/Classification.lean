import Retrieval.Proofs.Json.Doubles
import Retrieval.Proofs.Store.Sittings
import Retrieval.Store.Classification

/-!
Stores of classifications. A classification whose confidences are legible is read from its file as
it was, whatever its labels are, so that the elements of a store in files answer as those of one in
memory (`Shelf.classifications_alike`).
-/
namespace Retrieval

namespace Classification

theorem toJson_printable (c : Classification) : c.toJson.Printable := by
  apply Json.ofMembers_printable
  intro member listed
  obtain ⟨entry, _, rfl⟩ := List.mem_map.mp listed
  exact Json.ofDouble_printable entry.2

theorem ofJson?_toJson {c : Classification}
    (legible : ∀ entry ∈ c.entries, Json.Legible entry.2) : ofJson? c.toJson = some c := by
  have members : (c.entries.map fun entry => (entry.1, Json.ofDouble entry.2)).mapM
      (fun member => do return (member.1, ← member.2.double?)) = some c.entries := by
    apply Json.mapM_map_some
    intro entry listed
    rw [legible entry listed]
    rfl
  rw [ofJson?, toJson, Json.members?_ofMembers, Option.bind_eq_bind, Option.bind_some, members]
  exact congrArg some (SortedMap.ofList_entries c)

theorem decode_encode {c : Classification} (legible : ∀ entry ∈ c.entries, Json.Legible entry.2) :
    Storable.decode (Storable.encode c) = some c := by
  show (ofTextBytes? (textBytes (String.ofList c.toJson.compact))).bind _ = _
  rw [ofTextBytes?_textBytes, Option.bind_some, String.toList_ofList,
    Json.parse?_compact c.toJson_printable, Option.bind_some, ofJson?_toJson legible]

end Classification

instance : HarmlessExtension Classification where
  harmless := List.all_eq_true.mp (by decide)

/-- A call on an element of a store of classifications. -/
inductive ElementCall where
  | get (key : Key)
  | set (key : Key) (c : Classification)
  | has (key : Key)
  | best (key : Key)
  | remove (key : Key)

/-- What is answered if nothing goes wrong. -/
inductive ElementAnswer where
  | held (c : Classification)
  | done
  | told (yes : Bool)
  | best (label : String) (confidence : Double)
deriving DecidableEq

namespace ElementCall

def key : ElementCall → Key
  | get key => key
  | set key _ => key
  | has key => key
  | best key => key
  | remove key => key

def serve (s : Shelf Classification) :
    ElementCall → Shelf Classification × Except Error ElementAnswer
  | get key => (s, (s.computed key).map .held)
  | set key c =>
    let called := s.setClassification key c
    (called.1, called.2.map fun _ => .done)
  | has key => (s, .ok (.told (s.has key)))
  | best key => (s, (s.bestLabel key).map fun best => .best best.1 best.2)
  | remove key =>
    let called := s.remove key
    (called.1, called.2.map .told)

end ElementCall

namespace Shelf
variable {root place : Path} {files : FileTree} {held : SortedMap Key Classification}

/-- A classification that no element takes: it is empty, or a confidence is not finite. -/
def Refused (c : Classification) : Prop :=
  c.isEmpty = true ∨ ∃ entry ∈ c.entries, entry.2.isFinite = false

/-- A classification is refused by every shelf, which stays as it was, or stored by every one. -/
theorem setClassification_cases (key : Key) (c : Classification) :
    (Refused c ∧ ∃ fault, ∀ s : Shelf Classification,
        s.setClassification key c = (s, .error (.invalidState fault))) ∨
      ¬ Refused c ∧ ∀ s : Shelf Classification, s.setClassification key c = s.set key c := by
  simp only [setClassification]
  by_cases empty : c.isEmpty = true
  · simp only [if_pos empty]
    exact .inl ⟨.inl empty, .emptyClassification key, fun _ => rfl⟩
  simp only [if_neg empty]
  cases found : c.entries.find? (!·.2.isFinite) with
  | some entry =>
    have infinite := List.find?_some found
    refine .inl ⟨.inr ⟨entry, List.mem_of_find?_eq_some found, by simpa using infinite⟩,
      .nonFiniteConfidence entry.1 entry.2, fun _ => rfl⟩
  | none =>
    refine .inr ⟨?_, fun _ => rfl⟩
    rintro (filled | ⟨entry, listed, infinite⟩)
    · exact empty filled
    · have finite := List.find?_eq_none.mp found entry listed
      rw [infinite] at finite
      exact finite rfl

namespace Mirrors
variable (m : Mirrors root place files held) (others : FileTree)
include m

theorem bestLabel_agree (key : Key) : Agree root place files key
    (Shelf.mk (.folder root) files, Shelf.bestLabel ⟨.folder root, files⟩ key)
    (Shelf.mk (.memory held) others, Shelf.bestLabel ⟨.memory held, others⟩ key) := by
  rcases m.computed_agree others key with ⟨same, _⟩ | ⟨failed, tight⟩
  · dsimp only at same
    exact m.agree_of_eq others (by rw [Shelf.bestLabel, Shelf.bestLabel, same])
  · dsimp only at failed
    exact .inr ⟨by rw [Shelf.bestLabel, failed]; rfl, tight⟩

theorem setClassification_agree (key : Key) {c : Classification}
    (legible : ¬ Refused c → ∀ entry ∈ c.entries, Json.Legible entry.2) :
    Agree root place files key (Shelf.setClassification ⟨.folder root, files⟩ key c)
      (Shelf.setClassification ⟨.memory held, others⟩ key c) := by
  rcases setClassification_cases key c with ⟨_, fault, refused⟩ | ⟨taken, set⟩
  · rw [refused, refused]
    exact m.agree_of_eq others rfl
  · rw [set, set]
    exact m.set_agree others key (Classification.decode_encode (legible taken))

end Mirrors

theorem serve_parallel {call : ElementCall}
    (legible : ∀ key c, call = .set key c → ∀ entry ∈ c.entries, entry.2.isFinite = true →
      Json.Legible entry.2) :
    Parallel ElementCall.serve ElementCall.key call := by
  intro root place files held others m
  cases call with
  | get key => exact (m.computed_agree others key).map ElementAnswer.held
  | set key c =>
    refine (m.setClassification_agree others key fun taken entry listed => ?_).map
      fun _ => ElementAnswer.done
    apply legible key c rfl entry listed
    by_contra infinite
    exact taken (.inr ⟨entry, listed, by simpa using infinite⟩)
  | has key => exact m.agree_of_eq others (by rw [m.has others key])
  | best key => exact (m.bestLabel_agree others key).map fun best => ElementAnswer.best best.1 best.2
  | remove key => exact (m.remove_agree others key).map ElementAnswer.told

/-- Whatever is called on elements, a store of classifications in files that started below an empty
root answers as one in memory that started empty, however often the root is opened again in between.
The file system has refused no call, or there is room for the names, and the finite confidences are
legible. A classification that is refused leaves any store as it was. -/
theorem classifications_alike {files : FileTree} {root : Path} (empty : StartsEmpty files root)
    (sat : List (List ElementCall))
    (legible : ∀ key c, .set key c ∈ sat.flatten → ∀ entry ∈ c.entries, entry.2.isFinite = true →
      Json.Legible entry.2)
    (clear : .error .io ∉ sittings ElementCall.serve root files sat ∨
      Roomy Classification root ElementCall.key files.draws sat.flatten) :
    sittings ElementCall.serve root files sat =
        (serveAll ElementCall.serve ⟨.memory .empty, .empty⟩ sat.flatten).2 ∧
      ∀ key c, Refused c → ∃ fault, ∀ s : Shelf Classification,
        s.setClassification key c = (s, .error (.invalidState fault)) := by
  refine ⟨sittings_of_empty (fun call member => ?_) empty clear, fun key c refused => ?_⟩
  · refine serve_parallel fun key c set => ?_
    rw [set] at member
    exact legible key c member
  · rcases setClassification_cases key c with ⟨_, answer⟩ | ⟨taken, _⟩
    · exact answer
    · exact absurd refused taken

/-- One half for a label that has to be quoted, one for the empty label. -/
def oddConfidences : Classification :=
  .ofList [("a\"\n", ⟨0x3fe0000000000000⟩), ("", ⟨0x3ff0000000000000⟩)]

/-- Calls on names that mean something else in paths, in two sittings; one classification is empty
and one has an infinite confidence. -/
def oddCalls : List (List ElementCall) :=
  [[.set ⟨"..", "/"⟩ oddConfidences, .set ⟨"..", "/"⟩ .empty],
    [.set ⟨"..", "/"⟩ (.ofList [("b", ⟨0x7ff0000000000000⟩)]), .get ⟨"..", "/"⟩, .best ⟨"..", "/"⟩,
      .get ⟨"", "%"⟩]]

theorem classifications_alike_odd :
    StartsEmpty .empty ["data"] ∧
      sittings ElementCall.serve ["data"] .empty oddCalls =
        [.ok .done, .error (.invalidState (.emptyClassification ⟨"..", "/"⟩)),
          .error (.invalidState (.nonFiniteConfidence "b" ⟨0x7ff0000000000000⟩)),
          .ok (.held oddConfidences), .ok (.best "" ⟨0x3ff0000000000000⟩),
          .error (.notComputed ⟨"", "%"⟩)] := by
  have legible : ∀ key c, .set key c ∈ oddCalls.flatten → ∀ entry ∈ c.entries,
      entry.2.isFinite = true → Json.Legible entry.2 := by
    intro key c member
    simp only [oddCalls, List.flatten_cons, List.flatten_nil, List.mem_append, List.mem_cons,
      List.not_mem_nil, or_false, reduceCtorEq, ElementCall.set.injEq] at member
    rcases member with (⟨_, rfl⟩ | ⟨_, rfl⟩) | ⟨_, rfl⟩ <;> decide +kernel
  have alike := (classifications_alike empty_startsEmpty oddCalls legible (.inr (by decide +kernel))).1
  refine ⟨empty_startsEmpty, alike.trans ?_⟩
  decide +kernel

end Shelf
end Retrieval
