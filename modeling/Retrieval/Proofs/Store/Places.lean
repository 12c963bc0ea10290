import Retrieval.Proofs.Files.Names
import Retrieval.Proofs.Files.Making
import Retrieval.Proofs.Files.Replace
import Retrieval.Store.Basic

/-!
The places of a store's files. Each key has a file of its own (`Shelf.spot_inj`), which is never a
temporary one (`Shelf.spot_ne_temporary`), and whether files can stand there is a matter of the
sizes of the names (`Shelf.Fits`).
-/
namespace Retrieval

/-- Files of this kind have names that can be followed. -/
class HarmlessExtension (α : Type) [Storable α] : Prop where
  harmless : ∀ c ∈ (Storable.extension α).toList, isHarmless c = true

/-- A name that begins with another character than a dot leads on. -/
theorem leadsOn_of_first {name : String} {c : Char} {rest : List Char}
    (spelled : name.toList = c :: rest) (other : c ≠ '.') : FileTree.leadsOn name = true := by
  have ne (short : String) (starts : ∀ c rest, short.toList = c :: rest → c = '.') :
      name ≠ short := by
    rintro rfl
    exact other (starts c rest spelled)
  have nothing := ne "" (by simp)
  have dot := ne "." (by simp +contextual [eq_comm])
  have dots := ne ".." (by simp +contextual [eq_comm])
  simp [FileTree.leadsOn, namesHere, nothing, dot, dots]

theorem escapeName_leadsOn (s : String) : FileTree.leadsOn (escapeName s) = true := by
  obtain ⟨c, rest, spelled, other⟩ := exists_first_escapeName s
  exact leadsOn_of_first spelled other

/-- A name that begins with another character than a dot is none of a temporary file. -/
theorem ne_temporaryName_of_first {text : String} {c : Char} {rest : List Char}
    (spelled : text.toList = c :: rest) (other : c ≠ '.') (name : String) (draw : Nat) :
    text ≠ FileTree.temporaryName name draw := by
  rintro rfl
  rw [FileTree.toList_temporaryName] at spelled
  exact other (List.cons.inj spelled).1.symm

namespace Shelf
variable {α : Type} [Storable α] {root place : Path} {files : FileTree} {key other : Key}

/-! Names of keys -/

/-- The name of the folder for a label. -/
def folderName (key : Key) : String := escapeName key.label

variable (α) in
/-- The name of a key's file. -/
def fileName (key : Key) : String := escapeName key.id ++ "." ++ Storable.extension α

variable (α) in
/-- The place of a key's file below the place of the root. -/
def spot (place : Path) (key : Key) : Path := place ++ [folderName key, fileName α key]

theorem file_eq (root : Path) (key : Key) :
    @file α _ root key = root ++ [folderName key, fileName α key] := rfl

theorem folderName_leadsOn (key : Key) : FileTree.leadsOn (folderName key) = true :=
  escapeName_leadsOn key.label

theorem exists_first_fileName (key : Key) :
    ∃ c rest, (fileName α key).toList = c :: rest ∧ c ≠ '.' := by
  obtain ⟨c, rest, spelled, other⟩ := exists_first_escapeName key.id
  refine ⟨c, rest ++ '.' :: (Storable.extension α).toList, ?_, other⟩
  simp [fileName, spelled]

theorem fileName_leadsOn (key : Key) : FileTree.leadsOn (fileName α key) = true := by
  obtain ⟨c, rest, spelled, other⟩ := exists_first_fileName (α := α) key
  exact leadsOn_of_first spelled other

theorem spot_inj : spot α place key = spot α place other ↔ key = other := by
  refine ⟨fun same => ?_, fun same => by rw [same]⟩
  have names := List.append_cancel_left same
  simp only [List.cons.injEq, and_true, folderName, fileName, String.append_left_inj] at names
  obtain ⟨labels, ids⟩ := names
  cases key
  cases other
  cases escapeName_injective labels
  cases escapeName_injective ids
  rfl

theorem fileName_ne_temporaryName (key : Key) (name : String) (draw : Nat) :
    fileName α key ≠ FileTree.temporaryName name draw := by
  obtain ⟨c, rest, spelled, other⟩ := exists_first_fileName (α := α) key
  exact ne_temporaryName_of_first spelled other name draw

/-- The file of a key is no temporary one. -/
theorem spot_ne_temporary (folder name : String) (draw : Nat) :
    spot α place key ≠ place ++ [folder, FileTree.temporaryName name draw] := by
  intro same
  have names := List.append_cancel_left same
  simp only [List.cons.injEq, and_true] at names
  exact fileName_ne_temporaryName key name draw names.2

theorem folderName_clean (key : Key) : '\x00' ∉ (folderName key).toList :=
  fun null => isHarmless_ne_null (escapeName_harmless null) rfl

theorem fileName_clean [HarmlessExtension α] (key : Key) : '\x00' ∉ (fileName α key).toList := by
  intro null
  simp only [fileName, String.toList_append, List.mem_append] at null
  rcases null with (id | dot) | extension
  · exact isHarmless_ne_null (escapeName_harmless id) rfl
  · revert dot
    decide
  · exact isHarmless_ne_null (HarmlessExtension.harmless _ extension) rfl

/-- There is room for the names of a key and of a temporary file beside its file. -/
structure Fits (α : Type) [Storable α] (root : Path) (key : Key) : Prop where
  folder : (folderName key).utf8ByteSize ≤ 255
  name : (fileName α key).utf8ByteSize + 38 ≤ 255
  path : FileTree.textSize (file (α := α) root key) + 38 ≤ 4096

theorem parentOf_file (root : Path) (key : Key) :
    parentOf (file (α := α) root key) = root ++ [folderName key] := by
  rw [file_eq, parentOf, List.append_cons, FileTree.trimEnd_concat (fileName_leadsOn key),
    List.dropLast_concat, FileTree.trimEnd_concat (folderName_leadsOn key)]

theorem temporary_file (files : FileTree) (root : Path) (key : Key) :
    files.temporary (file (α := α) root key) =
      root ++ [folderName key, FileTree.temporaryName (fileName α key) files.draws] := by
  have last : (file (α := α) root key).getLast? = some (fileName α key) := by
    simp [file_eq]
  rw [FileTree.temporary_of_leadsOn (fileName_leadsOn key) last, parentOf_file, List.append_assoc]
  rfl

instance : Decidable (Fits α root key) :=
  decidable_of_iff ((folderName key).utf8ByteSize ≤ 255 ∧
    (fileName α key).utf8ByteSize + 38 ≤ 255 ∧
    FileTree.textSize (file (α := α) root key) + 38 ≤ 4096)
    ⟨fun h => ⟨h.1, h.2.1, h.2.2⟩, fun h => ⟨h.folder, h.name, h.path⟩⟩

namespace Fits

/-- Names that are not longer than that of a temporary file can be reached. -/
theorem follows (fits : Fits α root key) (leads : files.resolve root = .ok place) {name : String}
    (clean : '\x00' ∉ name.toList)
    (short : name.utf8ByteSize ≤ (fileName α key).utf8ByteSize + 38) :
    FileTree.canFollow (root ++ [folderName key, name]) = true := by
  have sized := fits.path
  rw [file_eq, FileTree.textSize_append] at sized
  refine FileTree.canFollow_append.mpr ⟨(FileTree.resolve_ok_iff.mp leads).1, ?_, ?_⟩
  · simp only [FileTree.textSize, List.foldl_cons, List.foldl_nil] at sized ⊢
    omega
  · simpa using ⟨folderName_clean key, clean⟩

theorem follows_folder [HarmlessExtension α] (fits : Fits α root key)
    (leads : files.resolve root = .ok place) :
    FileTree.canFollow (root ++ [folderName key]) = true := by
  have follows := fits.follows leads (fileName_clean key) (Nat.le_add_right _ _)
  rw [List.append_cons] at follows
  exact (FileTree.canFollow_append.mp follows).1

theorem named (fits : Fits α root key) : FileTree.canName (folderName key) = true :=
  decide_eq_true fits.folder

end Fits

/-! Where the paths of keys lead -/

/-- A path with two more names leads to these names below the folder where it leads without them. -/
theorem resolve_pair {folder name : String} {found : Path} (leads : files.resolve root = .ok place)
    (folderLeads : FileTree.leadsOn folder = true) (nameLeads : FileTree.leadsOn name = true) :
    files.resolve (root ++ [folder, name]) = .ok found ↔
      FileTree.canFollow (root ++ [folder, name]) = true ∧ FileTree.canName folder = true ∧
        files.mark? (place ++ [folder]) = some .folder ∧ FileTree.canName name = true ∧
        place ++ [folder, name] = found := by
  rw [FileTree.resolve_ok_iff, FileTree.locate_append, (FileTree.resolve_ok_iff.mp leads).2]
  show _ ∧ files.locate place [folder, name] = _ ↔ _
  rw [FileTree.locate_cons, FileTree.step_of_leadsOn folderLeads, FileTree.locate_cons,
    FileTree.step_of_leadsOn nameLeads, List.append_assoc, FileTree.locate, Except.ok.injEq]
  refine and_congr_right fun _ => ⟨And.right, fun along => ⟨?_, along⟩⟩
  exact FileTree.mark?_front along.2.1

/-- What is read under the path of a key is the file at its place, if the names can be followed. -/
theorem read_file_iff {bytes : Bytes} (leads : files.resolve root = .ok place) :
    files.read (file (α := α) root key) = .ok bytes ↔
      FileTree.canFollow (file (α := α) root key) = true ∧
        FileTree.canName (folderName key) = true ∧ FileTree.canName (fileName α key) = true ∧
        files.mark? (spot α place key) = some (.file bytes) := by
  rw [FileTree.read_ok_iff, file_eq]
  simp only [resolve_pair leads (folderName_leadsOn key) (fileName_leadsOn key)]
  constructor
  · rintro ⟨_, ⟨follows, folderNamed, _, named, rfl⟩, there⟩
    exact ⟨follows, folderNamed, named, there⟩
  · rintro ⟨follows, folderNamed, named, there⟩
    refine ⟨_, ⟨follows, folderNamed, ?_, named, rfl⟩, there⟩
    rw [spot, List.append_cons] at there
    exact FileTree.mark?_front there

end Shelf
end Retrieval
