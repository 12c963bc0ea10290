import Retrieval.Proofs.Artifact.Saving
import Retrieval.Proofs.Store.Descriptor

/-!
Binary files that were cut short. The bytes of a vector or an artifact tell where they end
(`Delimits`), so a file that has lost its end is malformed, and what comes behind the end is of no
concern (`binary_files_delimited`).
-/
namespace Retrieval
variable {α : Type}

/-- Bytes stand for a value whatever follows them, and no part of them stands for any. -/
structure Delimits (decode : Bytes → Option α) (bytes : Bytes) (value : α) : Prop where
  whole : ∀ rest, decode (bytes ++ rest) = some value
  part : ∀ front, front <+: bytes → front ≠ bytes → decode front = none

theorem Frames.delimits {read : Reader α} {bytes : Bytes} {value : α}
    (frames : Frames read bytes value) :
    Delimits (fun input => (read input).map (·.1)) bytes value where
  whole rest := by rw [frames.reads, Option.map_some]
  part front front_of short := by rw [frames.refuses front front_of short, Option.map_none]

/-- What is answered about the file at a path: `whole` if it begins with the bytes, and that it is
malformed if it was cut short of their end. -/
structure TellsCut (answer : FileTree → Except Error α) (path : Path) (bytes : Bytes)
    (whole : Except Error α) : Prop where
  reads : ∀ files rest, files.read path = .ok (bytes ++ rest) → answer files = whole
  refuses : ∀ files front, front <+: bytes → front ≠ bytes → files.read path = .ok front →
    answer files = .error .malformed

namespace Artifact

theorem toBytes_delimits {a : Artifact} (addressable : a.Addressable) :
    Delimits ofBytes? a.toBytes a :=
  (readBytes_frames addressable).delimits

theorem load_of_malformed {files : FileTree} {path : Path} {bytes : Bytes}
    (held : files.read path = .ok bytes) (nothing : ofBytes? bytes = none) :
    load .binary files path = .error .malformed := by
  rw [load, held]
  dsimp only
  rw [decode, nothing]
  rfl

theorem load_tellsCut {a : Artifact} (addressable : a.Addressable) (path : Path) :
    TellsCut (load .binary · path) path a.toBytes (a.validate.map fun _ => a) where
  reads files rest held := by
    apply load_of_read held
    rw [decode, (toBytes_delimits addressable).whole]
    rfl
  refuses files front front_of short held :=
    load_of_malformed held ((toBytes_delimits addressable).part front front_of short)

end Artifact

namespace Shelf
variable [Storable α] {root : Path} {key : Key} {bytes : Bytes} {value : α}

/-- A store in files answers what the file of the key stands for. -/
theorem get_of_read {files : FileTree} (held : files.read (file (α := α) root key) = .ok bytes) :
    (Shelf.mk (α := α) (.folder root) files).get key =
      (Storable.decode bytes).elim (.error .malformed) .ok := by
  simp only [get, held]

theorem get_tellsCut (delimits : Delimits Storable.decode bytes value) (root : Path) (key : Key) :
    TellsCut (fun files => (Shelf.mk (.folder root) files).get key) (file (α := α) root key) bytes
      (.ok value) where
  reads files rest held := by
    rw [get_of_read held, delimits.whole]
    rfl
  refuses files front front_of short held := by
    rw [get_of_read held, delimits.part front front_of short]
    rfl

/-- A file that is malformed is not taken for one that is missing. -/
theorem computed_tellsCut (delimits : Delimits Storable.decode bytes value) (root : Path)
    (key : Key) :
    TellsCut (fun files => (Shelf.mk (.folder root) files).computed key)
      (file (α := α) root key) bytes (.ok value) where
  reads files rest held := by
    have got := (get_tellsCut delimits root key).reads files rest held
    simp only [computed, got]
  refuses files front front_of short held := by
    have got := (get_tellsCut delimits root key).refuses files front front_of short held
    simp only [computed, got]

end Shelf

theorem Descriptor.encode_delimits {v : Descriptor} (sized : v.length < 2 ^ 64) :
    Delimits Storable.decode (Storable.encode v) v :=
  (Descriptor.toBytes_frames sized).delimits

/-- The binary forms of artifacts and vectors tell where they end, and so do the files that hold
them: cut short anywhere, a file is reported as malformed and nothing is read from it. -/
theorem binary_files_delimited {a : Artifact} (addressable : a.Addressable) {v : Descriptor}
    (sized : v.length < 2 ^ 64) :
    Delimits Artifact.ofBytes? a.toBytes a ∧
      Delimits Storable.decode (Storable.encode v) v ∧
      (∀ path, TellsCut (Artifact.load .binary · path) path a.toBytes
        (a.validate.map fun _ => a)) ∧
      ∀ root key,
        TellsCut (fun files => (Shelf.mk (.folder root) files).get key)
          (Shelf.file (α := Descriptor) root key) (Storable.encode v) (.ok v) ∧
        TellsCut (fun files => (Shelf.mk (.folder root) files).computed key)
          (Shelf.file (α := Descriptor) root key) (Storable.encode v) (.ok v) := by
  have vector := Descriptor.encode_delimits sized
  refine ⟨Artifact.toBytes_delimits addressable, vector, Artifact.load_tellsCut addressable, ?_⟩
  intro root key
  exact ⟨Shelf.get_tellsCut vector root key, Shelf.computed_tellsCut vector root key⟩

/-- An artifact and a vector in files that have lost their last byte. -/
def shortened (a : Artifact) (v : Descriptor) : FileTree where
  top := .file "map.bin" a.toBytes.dropLast
    (.folder "d" (.folder "t" (.file "x.vec" (Storable.encode v).dropLast .empty) .empty) .empty)
  draws := 0

theorem binary_files_delimited_shortened :
    let a : Artifact := ⟨1, .ofList [(.ofBools [true], .ofList ["ä", ""])]⟩
    let v : Descriptor := [⟨0x7fc00001⟩, ⟨0x80000000⟩]
    a.Addressable ∧ v.length < 2 ^ 64 ∧
      Artifact.load .binary (shortened a v) ["map.bin"] = .error .malformed ∧
      (Shelf.mk (.folder ["d"]) (shortened a v) : Shelf Descriptor).get ⟨"t", "x"⟩ =
        .error .malformed := by
  intro a v
  have idBytes : ∀ entry ∈ a.entries.entries, ∀ id ∈ entry.2.toList, id.utf8ByteSize < 2 ^ 64 := by
    decide +kernel
  have addressable : a.Addressable := by
    refine ⟨by decide +kernel, by decide +kernel, by decide +kernel, by decide +kernel, ?_⟩
    intro entry listed id held
    exact idBytes entry listed id (SortedSet.mem_toList.mpr held)
  have sized : v.length < 2 ^ 64 := by decide
  obtain ⟨_, _, artifacts, vectors⟩ := binary_files_delimited addressable sized
  refine ⟨addressable, sized, ?_, ?_⟩
  · apply (artifacts ["map.bin"]).refuses _ _ (List.dropLast_prefix _)
    · decide +kernel
    · rfl
  · apply (vectors ["d"] ⟨"t", "x"⟩).1.refuses _ _ (List.dropLast_prefix _)
    · decide +kernel
    · rfl

end Retrieval
