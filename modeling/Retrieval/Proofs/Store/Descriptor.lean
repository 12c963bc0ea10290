import Retrieval.Proofs.Binary.Wire
import Retrieval.Proofs.Store.Sittings
import Retrieval.Store.Descriptor

/-!
Stores of descriptors. Every vector is read from its file bit for bit, so that a store in files
answers all calls as one in memory (`Shelf.descriptors_alike`).
-/
namespace Retrieval

/-- A call of a store. -/
inductive StoreCall (α : Type) where
  | get (key : Key)
  | set (key : Key) (value : α)
  | has (key : Key)
  | remove (key : Key)

/-- What a store answers if nothing goes wrong. -/
inductive StoreAnswer (α : Type) where
  | value (value : α)
  | done
  | told (yes : Bool)
deriving DecidableEq

namespace StoreCall
variable {α : Type} [Storable α]

def key : StoreCall α → Key
  | get key => key
  | set key _ => key
  | has key => key
  | remove key => key

def serve (s : Shelf α) : StoreCall α → Shelf α × Except Error (StoreAnswer α)
  | get key => (s, (s.get key).map .value)
  | set key value =>
    let called := s.set key value
    (called.1, called.2.map fun _ => .done)
  | has key => (s, .ok (.told (s.has key)))
  | remove key =>
    let called := s.remove key
    (called.1, called.2.map .told)

theorem serve_parallel [HarmlessExtension α] {call : StoreCall α}
    (decoded : ∀ key value, call = .set key value →
      Storable.decode (Storable.encode value) = some value) :
    Shelf.Parallel serve StoreCall.key call := by
  intro root place files held others m
  cases call with
  | get key => exact (m.get_agree others key).map StoreAnswer.value
  | set key value => exact (m.set_agree others key (decoded key value rfl)).map fun _ => StoreAnswer.done
  | has key => exact m.agree_of_eq others (by rw [m.has others key])
  | remove key => exact (m.remove_agree others key).map StoreAnswer.told

end StoreCall

/-! Vectors in files -/

theorem readSingle_frames (x : Single) : Frames readSingle (wordBytes 4 x.bits.toNat) x := by
  have fits : x.bits.toNat < 256 ^ 4 := x.bits.toNat_lt
  have word := (readWord_frames fits).map fun n => Single.mk n.toUInt32
  rwa [Nat.toUInt32, UInt32.ofNat_toNat] at word

theorem Descriptor.toBytes_frames {v : Descriptor} (sized : v.length < 2 ^ 64) :
    Frames Descriptor.readBytes v.toBytes v :=
  readList_frames sized fun x _ => readSingle_frames x

theorem Descriptor.decode_encode {v : Descriptor} (sized : v.length < 2 ^ 64) :
    Storable.decode (Storable.encode v) = some v := by
  have read := (Descriptor.toBytes_frames sized).reads []
  rw [List.append_nil] at read
  show (Descriptor.readBytes v.toBytes).map (·.1) = _
  rw [read]
  rfl

instance : HarmlessExtension Descriptor where
  harmless := List.all_eq_true.mp (by decide)

namespace Shelf

/-- Whatever is called, a store of descriptors in files that started below an empty root answers as
one in memory that started empty, however often the root is opened again in between. The file system
has refused no call, or there is room for the names. -/
theorem descriptors_alike {files : FileTree} {root : Path} (empty : StartsEmpty files root)
    (sat : List (List (StoreCall Descriptor)))
    (sized : ∀ key v, .set key v ∈ sat.flatten → v.length < 2 ^ 64)
    (clear : .error .io ∉ sittings StoreCall.serve root files sat ∨
      Roomy Descriptor root StoreCall.key files.draws sat.flatten) :
    sittings StoreCall.serve root files sat =
      (serveAll StoreCall.serve ⟨.memory .empty, .empty⟩ sat.flatten).2 := by
  refine sittings_of_empty (fun call member => ?_) empty clear
  refine StoreCall.serve_parallel fun key v set => ?_
  rw [set] at member
  exact Descriptor.decode_encode (sized key v member)

/-- Calls on names that mean something else in paths, in two sittings. -/
def oddSittings : List (List (StoreCall Descriptor)) :=
  [[.set ⟨"", ""⟩ [], .set ⟨"..", "/"⟩ [⟨0x7fc00001⟩, ⟨0x80000000⟩], .has ⟨".", "%"⟩],
    [.get ⟨"..", "/"⟩, .get ⟨"", ""⟩, .remove ⟨"", ""⟩, .get ⟨"", ""⟩]]

theorem descriptors_alike_odd :
    StartsEmpty .empty ["data"] ∧
      sittings StoreCall.serve ["data"] .empty oddSittings =
        [.ok .done, .ok .done, .ok (.told false), .ok (.value [⟨0x7fc00001⟩, ⟨0x80000000⟩]),
          .ok (.value []), .ok (.told true), .error (.notFound "" "")] := by
  have sized : ∀ key v, .set key v ∈ oddSittings.flatten → v.length < 2 ^ 64 := by
    intro key v member
    simp only [oddSittings, List.flatten_cons, List.flatten_nil, List.mem_append, List.mem_cons,
      List.not_mem_nil, or_false, reduceCtorEq, StoreCall.set.injEq] at member
    rcases member with ⟨_, rfl⟩ | ⟨_, rfl⟩ <;> decide
  have alike := descriptors_alike empty_startsEmpty oddSittings sized (.inr (by decide +kernel))
  refine ⟨empty_startsEmpty, alike.trans ?_⟩
  decide +kernel

end Shelf
end Retrieval
