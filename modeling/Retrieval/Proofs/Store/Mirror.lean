import Retrieval.Proofs.Store.Keeping

/-!
A store in files and one in memory. Below its root a folder holds the files of a map and no others
at the places of keys (`Shelf.Mirrors`), so that what is read from the folder is what the map holds,
and what is changed there is changed as in the map.
-/
namespace Retrieval.Shelf
variable {α : Type} [Storable α] {root place : Path} {files : FileTree} {held : SortedMap Key α}
  {key other : Key}

/-- The files below the root are those of a map, as far as the places of keys are concerned. -/
structure Mirrors (root place : Path) (files : FileTree) (held : SortedMap Key α) : Prop where
  leads : files.resolve root = .ok place
  within : files.mark? place = some .folder
  folders : ∀ key, files.mark? (place ++ [folderName key]) = none ∨
    files.mark? (place ++ [folderName key]) = some .folder
  flat : ∀ folder name, files.mark? (place ++ [folder, name]) ≠ some .folder
  stored : ∀ key, files.mark? (spot α place key) =
    (held.get? key).map fun value => .file (Storable.encode value)
  found : ∀ key value, held.get? key = some value →
    files.resolve (file (α := α) root key) = .ok (spot α place key)
  decoded : ∀ key value, held.get? key = some value →
    Storable.decode (Storable.encode value) = some value

namespace Mirrors

/-- The path of a key leads to its place. Where it does not, nothing is held under the key, and
nothing is there unless there is no room for the names. -/
theorem resolve_cases [HarmlessExtension α] (m : Mirrors root place files held) (key : Key) :
    files.resolve (file (α := α) root key) = .ok (spot α place key) ∨
      held.get? key = none ∧ (files.resolve (file (α := α) root key) = .error .absent ∨
        files.resolve (file (α := α) root key) = .error .refused ∧ ¬ Fits α root key) := by
  by_cases leads : files.resolve (file (α := α) root key) = .ok (spot α place key)
  · exact .inl leads
  refine .inr ⟨?_, ?_⟩
  · cases here : held.get? key with
    | none => rfl
    | some value => exact absurd (m.found key value here) leads
  have roomy (fits : Fits α root key) :
      FileTree.canFollow (file (α := α) root key) = true ∧
        FileTree.canName (fileName α key) = true :=
    ⟨fits.follows m.leads (fileName_clean key) (Nat.le_add_right _ _),
      decide_eq_true (by have := fits.name; omega)⟩
  by_cases follows : FileTree.canFollow (file (α := α) root key) = true
  swap
  · exact .inr ⟨by rw [FileTree.resolve, if_neg follows], fun fits => follows (roomy fits).1⟩
  have along : files.resolve (file (α := α) root key) =
      files.locate place [folderName key, fileName α key] := by
    rw [FileTree.resolve, if_pos follows, file_eq, FileTree.locate_append,
      (FileTree.resolve_ok_iff.mp m.leads).2]
    rfl
  obtain ⟨inner, stands⟩ := FileTree.mark?_eq_folder.mp m.within
  by_cases named : FileTree.canName (folderName key) = true
  swap
  · refine .inr ⟨?_, fun fits => named fits.named⟩
    rw [along, FileTree.locate]
    simp only [stands, named]
    rfl
  have step : files.locate place [folderName key, fileName α key] =
      files.locate (place ++ [folderName key]) [fileName α key] := by
    rw [FileTree.locate]
    simp only [stands, named, if_true, FileTree.step_of_leadsOn (folderName_leadsOn key)]
  rw [along, step]
  rcases m.folders key with vacant | stands
  · refine .inl ?_
    have none : files.node? (place ++ [folderName key]) = none := Option.map_eq_none_iff.mp vacant
    rw [FileTree.locate]
    simp only [none]
  · obtain ⟨inner, stands'⟩ := FileTree.mark?_eq_folder.mp stands
    refine .inr ⟨?_, fun fits => leads ?_⟩
    · rw [FileTree.locate]
      simp only [stands']
      split
      · rename_i named'
        refine absurd ?_ leads
        exact (resolve_pair m.leads (folderName_leadsOn key) (fileName_leadsOn key)).mpr
          ⟨follows, named, stands, named', rfl⟩
      · rfl
    · exact (resolve_pair m.leads (folderName_leadsOn key) (fileName_leadsOn key)).mpr
        ⟨follows, named, stands, (roomy fits).2, rfl⟩

/-! Reading -/

theorem read_of_held (m : Mirrors root place files held) {value : α}
    (here : held.get? key = some value) :
    files.read (file (α := α) root key) = .ok (Storable.encode value) :=
  FileTree.read_ok_iff.mpr ⟨_, m.found key value here, by rw [m.stored, here]; rfl⟩

theorem node?_of_missing (m : Mirrors root place files held) (gone : held.get? key = none) :
    files.node? (spot α place key) = none := by
  have nothing := m.stored key
  rw [gone] at nothing
  exact Option.map_eq_none_iff.mp nothing

variable [HarmlessExtension α]

theorem read_of_missing (m : Mirrors root place files held) (gone : held.get? key = none) :
    files.read (file (α := α) root key) = .error .absent ∨
      files.read (file (α := α) root key) = .error .refused ∧ ¬ Fits α root key := by
  rcases m.resolve_cases key with leads | ⟨_, absent | ⟨refused, tight⟩⟩
  · exact .inl (FileTree.read_of_vacant leads (m.node?_of_missing gone))
  · exact .inl (FileTree.read_of_fault absent)
  · exact .inr ⟨FileTree.read_of_fault refused, tight⟩

theorem remove_of_missing (m : Mirrors root place files held) (gone : held.get? key = none) :
    files.remove (file (α := α) root key) = .error .absent ∨
      files.remove (file (α := α) root key) = .error .refused ∧ ¬ Fits α root key := by
  rcases m.resolve_cases key with leads | ⟨_, absent | ⟨refused, tight⟩⟩
  · exact .inl (FileTree.remove_of_vacant leads (m.node?_of_missing gone))
  · exact .inl (FileTree.remove_of_fault absent)
  · exact .inr ⟨FileTree.remove_of_fault refused, tight⟩

/-- A key is read from the folder as from the map. -/
theorem get (m : Mirrors root place files held) (others : FileTree) (key : Key) :
    (Shelf.mk (.folder root) files).get key = (Shelf.mk (.memory held) others).get key ∨
      (Shelf.mk (α := α) (.folder root) files).get key = .error .io ∧ ¬ Fits α root key := by
  simp only [Shelf.get]
  cases here : held.get? key with
  | some value =>
    rw [m.read_of_held here]
    simp [m.decoded key value here]
  | none =>
    rcases m.read_of_missing here with absent | ⟨refused, tight⟩
    · rw [absent]
      exact .inl rfl
    · rw [refused]
      exact .inr ⟨rfl, tight⟩

theorem has (m : Mirrors root place files held) (others : FileTree) (key : Key) :
    (Shelf.mk (α := α) (.folder root) files).has key = (Shelf.mk (.memory held) others).has key := by
  simp only [Shelf.has, FileTree.isFile, SortedMap.contains]
  cases here : held.get? key with
  | some value =>
    rw [m.read_of_held here]
    rfl
  | none =>
    rcases m.read_of_missing here with absent | ⟨refused, _⟩
    · rw [absent]
      rfl
    · rw [refused]
      rfl

/-! Changing -/

omit [HarmlessExtension α] in
/-- Where nothing is changed at the places of other keys, the folder is that of the changed map. -/
theorem revised {after : FileTree} {held' : SortedMap Key α} (m : Mirrors root place files held)
    (key : Key) (keeps : files.Keeps after)
    (folders : ∀ key, after.mark? (place ++ [folderName key]) = some .folder ∨
      after.mark? (place ++ [folderName key]) = files.mark? (place ++ [folderName key]))
    (flat : ∀ folder name, after.mark? (place ++ [folder, name]) ≠ some .folder)
    (elsewhere : ∀ other, other ≠ key → held'.get? other = held.get? other ∧
      after.mark? (spot α place other) = files.mark? (spot α place other))
    (here : after.mark? (spot α place key) =
      (held'.get? key).map fun value => .file (Storable.encode value))
    (usable : ∀ value, held'.get? key = some value →
      after.resolve (file (α := α) root key) = .ok (spot α place key) ∧
        Storable.decode (Storable.encode value) = some value) :
    Mirrors root place after held' where
  leads := FileTree.resolve_keeps keeps m.leads
  within := keeps place m.within
  folders other := by
    rcases folders other with stands | same
    · exact .inr stands
    · rw [same]
      exact m.folders other
  flat := flat
  stored other := by
    by_cases same : other = key
    · rw [same, here]
    · rw [(elsewhere other same).1, (elsewhere other same).2, m.stored]
  found other value holds := by
    by_cases same : other = key
    · subst same
      exact (usable value holds).1
    · rw [(elsewhere other same).1] at holds
      exact FileTree.resolve_keeps keeps (m.found other value holds)
  decoded other value holds := by
    by_cases same : other = key
    · subst same
      exact (usable value holds).2
    · rw [(elsewhere other same).1] at holds
      exact m.decoded other value holds

omit [HarmlessExtension α] in
theorem cleared (m : Mirrors root place files held) {value : α}
    (here : held.get? key = some value) :
    files.remove (file (α := α) root key) = .ok (files.clear (spot α place key)) ∧
      Mirrors root place (files.clear (spot α place key)) (held.erase key) := by
  have stands : files.mark? (spot α place key) = some (.file (Storable.encode value)) := by
    rw [m.stored, here]
    rfl
  have leads := m.found key value here
  obtain ⟨opened, _⟩ := FileTree.open_of_resolve leads (by rw [stands]; nofun)
  refine ⟨FileTree.remove_ok_iff.mpr ⟨_, leads, ⟨_, stands⟩, rfl⟩, ?_⟩
  have keeps : files.Keeps (files.clear (spot α place key)) :=
    fun q => (opened.clear_folder_iff q).mpr
  refine m.revised key keeps ?_ ?_ ?_ ?_ ?_
  · intro other
    rw [opened.mark?_clear, if_neg (by simp [spot])]
    exact .inr rfl
  · intro folder name folderStands
    exact m.flat folder name ((opened.clear_folder_iff _).mp folderStands)
  · intro other differs
    rw [SortedMap.get?_erase_of_ne differs, opened.mark?_clear,
      if_neg fun same => differs (spot_inj.mp same)]
    exact ⟨rfl, rfl⟩
  · rw [opened.mark?_clear, if_pos rfl, SortedMap.get?_erase_self]
    rfl
  · intro value held
    rw [SortedMap.get?_erase_self] at held
    cases held

omit [HarmlessExtension α] in
/-- The folder for a label can be made where its name can stand. -/
theorem exists_makeFolders (m : Mirrors root place files held) (key : Key)
    (follows : FileTree.canFollow (root ++ [folderName key]) = true)
    (named : FileTree.canName (folderName key) = true) :
    ∃ made, files.makeFolders (root ++ [folderName key]) = (made, .ok ()) := by
  rw [FileTree.makeFolders_concat m.leads m.within (folderName_leadsOn key) follows,
    FileTree.addFolders, FileTree.step_of_leadsOn (folderName_leadsOn key)]
  rcases m.folders key with vacant | stands
  · have none : files.node? (place ++ [folderName key]) = none := Option.map_eq_none_iff.mp vacant
    simp only [none, named]
    exact ⟨_, rfl⟩
  · obtain ⟨inner, there⟩ := FileTree.mark?_eq_folder.mp stands
    simp only [there]
    exact ⟨files, rfl⟩

/-- The file for a key is taken where there is room for the names. -/
theorem takes (m : Mirrors root place files held) (fits : Fits α root key)
    (few : files.draws < 16 ^ 32) : files.Takes (file (α := α) root key) := by
  have follows := fits.follows_folder m.leads
  obtain ⟨made, done⟩ := m.exists_makeFolders key follows fits.named
  have ready := readied_of_makeFolders m.leads m.within follows done
  have leads := FileTree.resolve_keeps ready.keeps m.leads
  have stands : made.mark? (place ++ [folderName key]) = some .folder := by
    rw [ready.marks, if_pos rfl]
  have free (name : String) : made.mark? (place ++ [folderName key, name]) ≠ some .folder := by
    rw [ready.marks, if_neg (by simp)]
    exact m.flat _ name
  have sized := FileTree.utf8ByteSize_temporaryName few (fileName α key)
  have short := fits.name
  refine ⟨made, place ++ [folderName key, FileTree.temporaryName (fileName α key) made.draws],
    spot α place key, by rw [parentOf_file, done], ?_, free _, ?_, free _⟩
  · rw [temporary_file, ready.draws]
    refine (resolve_pair leads (folderName_leadsOn key) ?_).mpr ⟨?_, fits.named, stands, ?_, rfl⟩
    · exact FileTree.temporaryName_leadsOn _ _
    · refine fits.follows leads (FileTree.temporaryName_ne_null (fileName_clean key) _) ?_
      omega
    · exact decide_eq_true (by omega)
  · refine (resolve_pair leads (folderName_leadsOn key) (fileName_leadsOn key)).mpr
      ⟨?_, fits.named, stands, ?_, rfl⟩
    · exact fits.follows leads (fileName_clean key) (Nat.le_add_right _ _)
    · exact decide_eq_true (by omega)

omit [HarmlessExtension α] in
/-- The folder that takes a file holds it besides what it held. -/
theorem filed (m : Mirrors root place files held) (takes : files.Takes (file (α := α) root key))
    {value : α} (decoded : Storable.decode (Storable.encode value) = some value) :
    ∃ after, files.replace (file (α := α) root key) (Storable.encode value) = (after, .ok ()) ∧
      after.draws = files.draws + 1 ∧ Mirrors root place after (held.insert key value) := by
  obtain ⟨after, stored, _⟩ := takes.read_replace (Storable.encode value)
  have filed := filed_of_replace m.leads m.within stored
  refine ⟨after, stored, filed.draws, m.revised key filed.keeps ?_ ?_ ?_ ?_ ?_⟩
  · exact fun other => filed.labels (folderName other)
  · exact fun folder name stands => m.flat folder name (filed.flat folder name stands)
  · exact fun other differs => ⟨SortedMap.get?_insert_of_ne differs, filed.elsewhere other differs⟩
  · rw [SortedMap.get?_insert_self]
    exact filed.here
  · intro found holds
    rw [SortedMap.get?_insert_self] at holds
    cases holds
    exact ⟨filed.leads, decoded⟩

end Mirrors

end Retrieval.Shelf
