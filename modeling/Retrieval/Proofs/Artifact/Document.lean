import Retrieval.Artifact.Document
import Retrieval.Proofs.Code.Text
import Retrieval.Proofs.Json.Printing
import Retrieval.Proofs.Sorted

/-! An artifact's document is read back as the artifact, valid or not. -/
namespace Retrieval.Artifact

/-- The member of a document for a code with its ids. -/
def entryMember (entry : Code × SortedSet String) : String × Json :=
  (entry.1.text, .array (entry.2.toList.map .ofString))

theorem toJson_eq (a : Artifact) :
    a.toJson = .ofMembers [("bit_length", .ofNat a.bitLength),
      ("entries", .ofMembers (a.entries.entries.map entryMember))] := rfl

theorem toJson_printable (a : Artifact) : a.toJson.Printable := by
  have ids (entry : Code × SortedSet String) : (entryMember entry).2.Printable := by
    apply Json.Printable.array
    intro item listed
    obtain ⟨id, _, rfl⟩ := List.mem_map.mp listed
    exact Json.ofString_printable id
  have entries : (Json.ofMembers (a.entries.entries.map entryMember)).Printable := by
    apply Json.ofMembers_printable
    intro member listed
    obtain ⟨entry, _, rfl⟩ := List.mem_map.mp listed
    exact ids entry
  rw [toJson_eq]
  apply Json.ofMembers_printable
  rw [List.forall_mem_cons, List.forall_mem_singleton]
  exact ⟨Json.ofNat_printable a.bitLength, entries⟩

@[simp] theorem readEntry_entryMember (entry : Code × SortedSet String) :
    readEntry (entryMember entry) = some entry := by
  have ids : (Json.array (entry.2.toList.map .ofString)).listOf Json.string? =
      some entry.2.toList := by
    apply Json.listOf_array
    intro id _
    exact Json.string?_ofString id
  simp only [readEntry, entryMember, Code.ofText_text, ids]
  show some (entry.1, SortedSet.ofList entry.2.toList) = some entry
  rw [SortedSet.ofList_toList]

/-- The fields of a document are the members with the two names. -/
theorem allFields?_toJson (a : Artifact) :
    a.toJson.allFields? ["bit_length", "entries"] =
      some [some (.ofNat a.bitLength), some (.ofMembers (a.entries.entries.map entryMember))] := by
  rw [toJson_eq]
  show (Json.members? (.ofMembers _)).bind _ = _
  rw [Json.members?_ofMembers]
  rfl

theorem ofJson?_toJson {a : Artifact} (fits : a.bitLength < 2 ^ 64) :
    ofJson? a.toJson = some a := by
  have entries : (a.entries.entries.map entryMember).mapM readEntry = some a.entries.entries := by
    apply Json.mapM_map_some
    intro entry _
    exact readEntry_entryMember entry
  simp only [ofJson?, allFields?_toJson, Option.bind_eq_bind, Option.bind_some,
    Json.members?_ofMembers, entries, Json.nat?_ofNat fits]
  show some (Artifact.mk a.bitLength (SortedMap.ofList a.entries.entries)) = some a
  rw [SortedMap.ofList_entries]

@[simp] theorem ofDocument?_document {a : Artifact} (fits : a.bitLength < 2 ^ 64) :
    ofDocument? a.document = some a := by
  rw [ofDocument?, document, String.toList_ofList, Json.parse?_pretty a.toJson_printable]
  exact ofJson?_toJson fits

end Retrieval.Artifact
