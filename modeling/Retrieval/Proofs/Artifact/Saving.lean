import Retrieval.Artifact.File
import Retrieval.Proofs.Artifact.Binary
import Retrieval.Proofs.Artifact.Document
import Retrieval.Proofs.Files.Replace

/-!
An artifact that is saved is loaded as it was, in either form, if it is valid. If it is not, it is
saved all the same, and loading it fails with what is wrong with it (`Artifact.load_save`).
-/
namespace Retrieval.Artifact
variable {a : Artifact} {files : FileTree} {path : Path}

/-- Neither form loses anything of an artifact. -/
theorem decode_encode (addressable : a.Addressable) (form : ArtifactForm) :
    decode form (encode form a) = .ok a := by
  cases form with
  | document =>
    rw [encode, decode, ofTextBytes?_textBytes]
    dsimp only
    rw [ofDocument?_document addressable.bitLength]
    rfl
  | binary =>
    rw [encode, decode, ofBytes?_toBytes addressable]
    rfl

/-- Whether an artifact is saved depends on neither its contents nor the form. -/
theorem save_ok_iff (form : ArtifactForm) :
    (a.save form files path).2 = .ok () ↔ files.Takes path := by
  have stored_iff : (files.replace path (encode form a)).2 = .ok () ↔ files.Takes path :=
    FileTree.replace_ok_iff
  rw [← stored_iff, save]
  split
  · rename_i stored
    rw [stored]
    exact ⟨fun _ => rfl, fun _ => rfl⟩
  · rename_i failed
    rw [failed]
    exact ⟨nofun, nofun⟩

/-- Loading a file judges what its bytes stand for. -/
theorem load_of_read {form : ArtifactForm} {bytes : Bytes} (held : files.read path = .ok bytes)
    (stands : decode form bytes = .ok a) : load form files path = a.validate.map fun _ => a := by
  rw [load, held]
  dsimp only
  rw [stands]
  show (a.validate >>= fun _ => Except.ok a) = _
  cases a.validate <;> rfl

/-- What is saved where a file can be saved is loaded again if it is valid; if it is not, loading
fails with what is wrong with it. -/
theorem load_save (addressable : a.Addressable) (takes : files.Takes path) (form : ArtifactForm) :
    ∃ after, a.save form files path = (after, .ok ()) ∧
      load form after path = a.validate.map fun _ => a := by
  obtain ⟨after, stored, held⟩ := takes.read_replace (encode form a)
  refine ⟨after, ?_, load_of_read held (decode_encode addressable form)⟩
  rw [save, stored]

/-- Two codes, one of which has an id that needs escapes. -/
def escapedPair : Artifact :=
  ⟨2, .ofList [(.ofBools [true, false], .ofList ["a", "say \"ä\"\n"]),
    (.ofBools [false, false], .ofList [""])]⟩

theorem load_save_escapedPair :
    escapedPair.Addressable ∧ FileTree.empty.Takes ["runs", "pair"] ∧
      ∃ after, escapedPair.save .document .empty ["runs", "pair"] = (after, .ok ()) ∧
        load .document after ["runs", "pair"] = .ok escapedPair := by
  have idBytes : ∀ entry ∈ escapedPair.entries.entries, ∀ id ∈ entry.2.toList,
      id.utf8ByteSize < 2 ^ 64 := by decide +kernel
  have addressable : escapedPair.Addressable := by
    refine ⟨by decide +kernel, by decide +kernel, by decide +kernel, by decide +kernel, ?_⟩
    intro entry listed id held
    exact idBytes entry listed id (SortedSet.mem_toList.mpr held)
  have stored : (FileTree.empty.replace ["runs", "pair"] []).2 = .ok () := by decide +kernel
  have takes : FileTree.empty.Takes ["runs", "pair"] := FileTree.replace_ok_iff.mp stored
  have valid : escapedPair.validate = .ok () := by decide +kernel
  refine ⟨addressable, takes, ?_⟩
  obtain ⟨after, saved, loaded⟩ := load_save addressable takes .document
  rw [valid] at loaded
  exact ⟨after, saved, loaded⟩

end Retrieval.Artifact
