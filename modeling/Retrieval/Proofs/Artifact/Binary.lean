import Retrieval.Artifact.Binary
import Retrieval.Proofs.Binary.Wire
import Retrieval.Proofs.Code.Text
import Retrieval.Proofs.Sorted

/-! An artifact in binary form is read back as it was, valid or not. -/
namespace Retrieval.Artifact

/-- All that is counted in an artifact fits a 64-bit word: the bit length, the codes, their bits and
ids, and the bytes of an id. -/
structure Addressable (a : Artifact) : Prop where
  bitLength : a.bitLength < 2 ^ 64
  codes : a.entries.size < 2 ^ 64
  bits : ∀ entry ∈ a.entries.entries, entry.1.length < 2 ^ 64
  ids : ∀ entry ∈ a.entries.entries, entry.2.size < 2 ^ 64
  idBytes : ∀ entry ∈ a.entries.entries, ∀ id ∈ entry.2, id.utf8ByteSize < 2 ^ 64

/-- Read the ids behind the text of a code. -/
def readIds (text : String) : Reader (Code × SortedSet String) := fun bytes =>
  match Code.ofText text with
  | .error _ => none
  | .ok code => (readList readText bytes).map fun parts => ((code, .ofList parts.1), parts.2)

theorem readEntryBytes_steps (input : Bytes) :
    readEntryBytes input = (readText input).bind fun parts => readIds parts.1 parts.2 := by
  unfold readEntryBytes
  cases readText input <;> rfl

theorem readEntryBytes_frames {entry : Code × SortedSet String} (bits : entry.1.length < 2 ^ 64)
    (ids : entry.2.size < 2 ^ 64) (idBytes : ∀ id ∈ entry.2, id.utf8ByteSize < 2 ^ 64) :
    Frames readEntryBytes (putEntry entry) entry := by
  obtain ⟨code, members⟩ := entry
  have listed : Frames (readList readText) (putList putText members.toList) members.toList := by
    apply readList_frames
    · rwa [SortedSet.length_toList]
    · intro id member
      exact readText_frames (idBytes id (SortedSet.mem_toList.mp member))
  have read : Frames (readIds code.text) (putList putText members.toList) (code, members) := by
    have same := listed.map fun ids => (code, SortedSet.ofList ids)
    rw [SortedSet.ofList_toList] at same
    unfold readIds
    rw [Code.ofText_text]
    exact same
  have text : code.text.utf8ByteSize < 2 ^ 64 := by rwa [Code.utf8ByteSize_text]
  exact .append readEntryBytes_steps (readText_frames text) read

/-- Read the entries behind a bit length. -/
def readEntries (bitLength : Nat) : Reader Artifact := fun bytes =>
  (readList readEntryBytes bytes).map fun parts => (⟨bitLength, .ofList parts.1⟩, parts.2)

theorem readBytes_steps (input : Bytes) :
    readBytes input = (readCount input).bind fun parts => readEntries parts.1 parts.2 := by
  unfold readBytes
  cases readCount input <;> rfl

theorem readBytes_frames {a : Artifact} (addressable : a.Addressable) :
    Frames readBytes a.toBytes a := by
  have listed : Frames (readList readEntryBytes) (putList putEntry a.entries.entries)
      a.entries.entries := by
    apply readList_frames addressable.codes
    intro entry member
    exact readEntryBytes_frames (addressable.bits entry member) (addressable.ids entry member)
      (addressable.idBytes entry member)
  have read : Frames (readEntries a.bitLength) (putList putEntry a.entries.entries) a := by
    have same := listed.map fun entries => Artifact.mk a.bitLength (SortedMap.ofList entries)
    rw [SortedMap.ofList_entries] at same
    exact same
  exact .append readBytes_steps (readCount_frames addressable.bitLength) read

@[simp] theorem ofBytes?_toBytes {a : Artifact} (addressable : a.Addressable) :
    ofBytes? a.toBytes = some a := by
  have read := (readBytes_frames addressable).reads []
  rw [List.append_nil] at read
  rw [ofBytes?, read]
  rfl

end Retrieval.Artifact
