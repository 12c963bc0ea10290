import Retrieval.Proofs.Store.Classification
import Retrieval.Proofs.Store.Descriptor

/-!
Paths of a store's files. Whatever texts a key consists of, its path is that of the root with two
plain names behind it, which tell the key and are no names of temporary files (`Shelf.key_paths`).
-/
namespace Retrieval

/-- The names of a path that paths are compared by. -/
def namesThatCount (path : Path) : Path := path.filter (!namesHere ·)

theorem namesHere_eq_false {name : String} :
    namesHere name = false ↔ name ≠ "" ∧ name ≠ "." := by
  simp [namesHere]

/-! Texts without a slash -/

theorem splitAtSlashes_of_not_mem {cs : List Char} (none : '/' ∉ cs) :
    splitAtSlashes cs = [cs] := by
  induction cs with
  | nil => rfl
  | cons c rest ih =>
    obtain ⟨first, later⟩ := List.ne_and_not_mem_of_not_mem_cons none
    rw [splitAtSlashes, if_neg first.symm, ih later]

/-- A text without a slash adds one name to a path. -/
theorem pathWithin_of_not_mem {name : String} (none : '/' ∉ name.toList) (folder : Path) :
    pathWithin folder name = folder ++ [name] := by
  have below : ¬ name.startsWith "/" = true := by
    rw [String.startsWith_string_iff]
    exact fun starts => none (starts.subset (by decide))
  rw [pathWithin, if_neg below, pathOf, splitAtSlashes_of_not_mem none, List.map_singleton,
    String.ofList_toList]

/-- A text that is one name in any path: it is made of a few characters of ASCII, and adding it to a
path leads from a folder into what is called so there. -/
structure PlainName (name : String) : Prop where
  some_char : name ≠ ""
  harmless : ∀ c ∈ name.toList, isHarmless c = true
  ascii : ∀ c ∈ name.toList, c.val < 128
  not_dot : name ≠ "."
  not_dots : name ≠ ".."
  joined : ∀ folder, pathWithin folder name = folder ++ [name]
  below : ∀ folder, FileTree.step folder name = folder ++ [name]

/-- Every escaped text is a plain name. -/
theorem escapeName_plain (s : String) : PlainName (escapeName s) := by
  obtain ⟨here, not_dots⟩ := FileTree.leadsOn_iff.mp (escapeName_leadsOn s)
  obtain ⟨some_char, not_dot⟩ := namesHere_eq_false.mp here
  have no_slash : '/' ∉ (escapeName s).toList := fun slash => nomatch escapeName_harmless slash
  exact {
    some_char, not_dot, not_dots
    harmless := fun _ member => escapeName_harmless member
    ascii := fun _ member => (isHarmless_small (escapeName_harmless member)).2
    joined := pathWithin_of_not_mem no_slash
    below := fun _ => FileTree.step_of_leadsOn (escapeName_leadsOn s) }

/-- A path with a name at its end that leads on leads to what is called so in the folder where the
rest of it leads. -/
theorem FileTree.resolve_concat {t : FileTree} {front place : Path} {name : String}
    (leads : leadsOn name = true) (resolved : t.resolve (front ++ [name]) = .ok place) :
    ∃ folder, t.resolve front = .ok folder ∧ place = folder ++ [name] := by
  obtain ⟨follows, located⟩ := resolve_ok_iff.mp resolved
  rw [locate_append] at located
  obtain ⟨folder, before, last⟩ := bind_ok_iff.mp located
  obtain ⟨_, _, last⟩ := (locate_cons ..).mp last
  rw [step_of_leadsOn leads] at last
  exact ⟨folder, resolve_ok_iff.mpr ⟨(canFollow_append.mp follows).1, before⟩,
    (Except.ok.inj last).symm⟩

namespace Shelf

/-- What paths of files are like for values of one kind. -/
structure KeyPaths (α : Type) [Storable α] : Prop where
  /-- Two keys have one path only if they are the same. -/
  injective : ∀ root key other,
    namesThatCount (file (α := α) root key) = namesThatCount (file (α := α) root other) ↔
      key = other
  /-- The path is what comes of adding a text for each part of the key to that of the root. -/
  joined : ∀ root key,
    pathWithin (pathWithin root (folderName key)) (fileName α key) = file (α := α) root key
  /-- The file is two names below the place of the root. -/
  inside : ∀ (files : FileTree) root key found, files.resolve (file (α := α) root key) = .ok found →
    ∃ place, files.resolve root = .ok place ∧ found = spot α place key
  /-- The files of two keys are in one place only if the keys are the same. -/
  apart : ∀ (files : FileTree) root key other found,
    files.resolve (file (α := α) root key) = .ok found →
    files.resolve (file (α := α) root other) = .ok found → key = other
  /-- No temporary file is called as the file of a key is. -/
  names : ∀ key name draw, fileName α key ≠ FileTree.temporaryName name draw
  /-- The temporary file for a path is in no place where the file of a key is. -/
  beside : ∀ (files later : FileTree) root key path found aside,
    files.resolve (file (α := α) root key) = .ok found →
    later.resolve (later.temporary path) = .ok aside → found ≠ aside

section
variable {α : Type} [Storable α] {root found : Path} {files : FileTree} {key other : Key}

theorem namesThatCount_file (root : Path) (key : Key) :
    namesThatCount (file (α := α) root key) = spot α (namesThatCount root) key := by
  have folder := (FileTree.leadsOn_iff.mp (folderName_leadsOn key)).1
  have name := (FileTree.leadsOn_iff.mp (fileName_leadsOn (α := α) key)).1
  simp [namesThatCount, file_eq, spot, folder, name]

theorem resolve_file (leads : files.resolve (file (α := α) root key) = .ok found) :
    ∃ place, files.resolve root = .ok place ∧ found = spot α place key := by
  rw [file_eq, List.append_cons] at leads
  obtain ⟨inner, outside, rfl⟩ := FileTree.resolve_concat (fileName_leadsOn key) leads
  obtain ⟨place, top, rfl⟩ := FileTree.resolve_concat (folderName_leadsOn key) outside
  exact ⟨place, top, (List.append_cons ..).symm⟩

theorem fileName_no_slash [HarmlessExtension α] (key : Key) : '/' ∉ (fileName α key).toList := by
  intro slash
  simp only [fileName, String.toList_append, List.mem_append] at slash
  rcases slash with (id | dot) | extension
  · cases escapeName_harmless id
  · revert dot
    decide
  · cases HarmlessExtension.harmless _ extension

/-- Escaped keys have such paths if the names of the files end harmlessly as well. -/
theorem keyPaths_of_harmless (α : Type) [Storable α] [HarmlessExtension α] : KeyPaths α where
  injective root key other := by
    rw [namesThatCount_file, namesThatCount_file, spot_inj]
  joined root key := by
    rw [folderName, (escapeName_plain key.label).joined,
      pathWithin_of_not_mem (fileName_no_slash key), file_eq, List.append_assoc]
    rfl
  inside _ _ _ _ leads := resolve_file leads
  apart files root key other found leads leads' := by
    obtain ⟨place, top, rfl⟩ := resolve_file leads
    obtain ⟨place', top', same⟩ := resolve_file leads'
    cases top.symm.trans top'
    exact spot_inj.mp same
  names := fileName_ne_temporaryName
  beside files later root key path found aside leads leads' := by
    obtain ⟨place, _, rfl⟩ := resolve_file leads
    obtain ⟨front, name, temporary⟩ := later.exists_temporary path
    rw [temporary] at leads'
    obtain ⟨folder, _, rfl⟩ := FileTree.resolve_concat (FileTree.temporaryName_leadsOn _ _) leads'
    intro same
    rw [spot, List.append_cons] at same
    have last := List.append_inj_right' same rfl
    exact fileName_ne_temporaryName key _ _ (List.singleton_inj.mp last)

end

/-- Names that keys are escaped to tell the texts apart and are plain, so that the file of a key is
its own, stands below the root, and is never taken for a temporary file. -/
theorem key_paths :
    (∀ s t, escapeName s = escapeName t ↔ s = t) ∧ (∀ s, PlainName (escapeName s)) ∧
      KeyPaths Descriptor ∧ KeyPaths Classification :=
  ⟨fun _ _ => ⟨escapeName_injective, congrArg escapeName⟩, escapeName_plain,
    keyPaths_of_harmless Descriptor, keyPaths_of_harmless Classification⟩

example :
    let files := (FileTree.empty.makeFolders ["data", "%2E%2E"]).1
    files.resolve (file (α := Descriptor) ["data"] ⟨"..", "a/b"⟩) =
      .ok ["data", "%2E%2E", "a%2Fb.vec"] := by
  rfl

end Shelf
end Retrieval
