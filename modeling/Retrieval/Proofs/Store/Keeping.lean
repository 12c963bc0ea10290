import Retrieval.Proofs.Sorted
import Retrieval.Proofs.Store.Places

/-!
What a store keeps under its keys (`Shelf.kept?`), whether in memory or in files. Setting a value
changes what is kept under its key and nothing else (`Shelf.keeps_of_set`), as a file for one key is
all that comes into the folders below the root (`Shelf.filed_of_replace`).
-/
namespace Retrieval

/-- What a store keeps: a value, or the bytes that stand for one in a file. -/
inductive Kept (α : Type) where
  | value (v : α)
  | bytes (b : Bytes)
deriving DecidableEq

section
variable {α : Type} [Storable α]

/-- The value that is read from what is kept. -/
def Kept.read? : Kept α → Option α
  | value v => some v
  | bytes b => Storable.decode b

/-- What a store makes of a value to keep it. -/
def Store.form : Store α → α → Kept α
  | memory _, v => .value v
  | folder _, v => .bytes (Storable.encode v)

end

namespace Shelf
variable {α : Type} [Storable α] {root place : Path} {files made after : FileTree} {key : Key}

/-! Files -/

/-- The folder for a label stands in a tree that is otherwise as before. -/
structure Readied (files made : FileTree) (folder : Path) : Prop where
  draws : made.draws = files.draws
  marks : ∀ q, made.mark? q = if q = folder then some .folder else files.mark? q

theorem Readied.keeps {folder : Path} (ready : Readied files made folder) : files.Keeps made :=
  fun q stands => by rw [ready.marks, stands, ite_self]

/-- Making the folder for a label adds that folder only. -/
theorem readied_of_makeFolders (leads : files.resolve root = .ok place)
    (within : files.mark? place = some .folder)
    (follows : FileTree.canFollow (root ++ [folderName key]) = true)
    (done : files.makeFolders (root ++ [folderName key]) = (made, .ok ())) :
    Readied files made (place ++ [folderName key]) := by
  rw [FileTree.makeFolders_concat leads within (folderName_leadsOn key) follows,
    FileTree.addFolders, FileTree.step_of_leadsOn (folderName_leadsOn key)] at done
  cases found : files.node? (place ++ [folderName key]) with
  | none =>
    have vacant : files.mark? (place ++ [folderName key]) = none := Option.map_eq_none_iff.mpr found
    have opened : files.Open (place ++ [folderName key]) :=
      ⟨by rw [List.dropLast_concat]; exact within, by simp [vacant]⟩
    simp only [found] at done
    split at done
    · cases done
      exact ⟨FileTree.put_draws _ _ _, opened.mark?_putFolder⟩
    · cases done
  | some node =>
    simp only [found] at done
    cases node with
    | file bytes => cases done
    | folder inner =>
      cases done
      refine ⟨rfl, fun q => ?_⟩
      by_cases same : q = place ++ [folderName key]
      · rw [if_pos same, same]
        exact FileTree.mark?_eq_folder.mpr ⟨inner, found⟩
      · rw [if_neg same]

variable (α) in
/-- The file of a key holds these bytes, and no other file of a key is changed. -/
structure Filed (root place : Path) (key : Key) (bytes : Bytes) (before after : FileTree) :
    Prop where
  draws : after.draws = before.draws + 1
  keeps : before.Keeps after
  leads : after.resolve (file (α := α) root key) = .ok (spot α place key)
  here : after.mark? (spot α place key) = some (.file bytes)
  elsewhere : ∀ other, other ≠ key →
    after.mark? (spot α place other) = before.mark? (spot α place other)
  labels : ∀ name, after.mark? (place ++ [name]) = some .folder ∨
    after.mark? (place ++ [name]) = before.mark? (place ++ [name])
  flat : ∀ folder name, after.mark? (place ++ [folder, name]) = some .folder →
    before.mark? (place ++ [folder, name]) = some .folder

/-- A file that is stored for a key, in a store whose root is a folder, is all that is stored. -/
theorem filed_of_replace {bytes : Bytes} (leads : files.resolve root = .ok place)
    (within : files.mark? place = some .folder)
    (stored : files.replace (file (α := α) root key) bytes = (after, .ok ())) :
    Filed α root place key bytes files after := by
  obtain ⟨made, beside, target, done, room⟩ := FileTree.takes_of_replace stored
  have follows : FileTree.canFollow (root ++ [folderName key]) = true := by
    have whole := (FileTree.resolve_ok_iff.mp room.leads).1
    rw [file_eq, List.append_cons] at whole
    exact (FileTree.canFollow_append.mp whole).1
  have ready := readied_of_makeFolders leads within follows (parentOf_file (α := α) root key ▸ done)
  have leadsMade := FileTree.resolve_keeps ready.keeps leads
  obtain ⟨_, _, _, _, rfl⟩ :=
    (resolve_pair leadsMade (folderName_leadsOn key) (fileName_leadsOn (α := α) key)).mp room.leads
  have aside := room.aside
  rw [temporary_file] at aside
  obtain ⟨_, _, _, _, rfl⟩ := (resolve_pair leadsMade (folderName_leadsOn key)
    (FileTree.temporaryName_leadsOn _ _)).mp aside
  cases stored.symm.trans (room.replace_eq done bytes)
  have marks := room.mark?_replaced bytes
  have folderIff := room.replaced_folder_iff bytes
  have below (folder name : String) : made.mark? (place ++ [folder, name]) =
      files.mark? (place ++ [folder, name]) := by
    rw [ready.marks, if_neg (by simp)]
  constructor
  · rw [FileTree.replaced, FileTree.clear_draws, FileTree.placed, FileTree.put_draws,
      FileTree.staged, FileTree.put_draws, FileTree.drawn, ready.draws]
  · exact fun q stands => (folderIff q).mpr (ready.keeps q stands)
  · exact FileTree.resolve_keeps (fun q => (folderIff q).mpr) room.leads
  · exact (marks _).trans (if_pos rfl)
  · intro other differs
    have apart : spot α place other ≠ place ++ [folderName key, fileName α key] :=
      fun same => differs (spot_inj.mp same)
    rw [marks, if_neg apart, if_neg (spot_ne_temporary _ _ _)]
    exact below _ _
  · intro name
    rw [marks, if_neg (by simp), if_neg (by simp), ready.marks]
    split
    · exact .inl rfl
    · exact .inr rfl
  · intro folder name stands
    rwa [folderIff, below] at stands

/-! Shelves -/

/-- What is kept under a key. -/
def kept? (s : Shelf α) (key : Key) : Option (Kept α) :=
  match s.store with
  | .memory held => (held.get? key).map .value
  | .folder root => (s.files.read (@file α _ root key)).toOption.map .bytes

theorem has_eq (s : Shelf α) (key : Key) : s.has key = (s.kept? key).isSome := by
  obtain ⟨store, files⟩ := s
  cases store with
  | memory held => exact (Option.isSome_map ..).symm
  | folder root => exact (Option.isSome_map ..).symm

theorem get_ok_iff {s : Shelf α} {v : α} :
    s.get key = .ok v ↔ ∃ kept, s.kept? key = some kept ∧ kept.read? = some v := by
  obtain ⟨store, files⟩ := s
  cases store with
  | memory held =>
    simp only [get, kept?]
    cases held.get? key with
    | none => simp
    | some value => simp [Kept.read?]
  | folder root =>
    simp only [get, kept?]
    cases files.read (@file α _ root key) with
    | error fault => cases fault <;> simp [Except.toOption]
    | ok bytes =>
      cases decoded : @Storable.decode α _ bytes with
      | none => simp [Except.toOption, Kept.read?, decoded]
      | some value => simp [Except.toOption, Kept.read?, decoded]

/-- Nothing that is told of a key or read under it has changed. -/
structure SameAt (key : Key) (before after : Shelf α) : Prop where
  kept : after.kept? key = before.kept? key
  has : after.has key = before.has key
  get : ∀ v, after.get key = .ok v ↔ before.get key = .ok v

theorem sameAt_of_kept {before after : Shelf α} (same : after.kept? key = before.kept? key) :
    SameAt key before after where
  kept := same
  has := by rw [has_eq, has_eq, same]
  get v := by rw [get_ok_iff, get_ok_iff, same]

/-- A store in files has a folder for its root. -/
def Opened (s : Shelf α) : Prop :=
  match s.store with
  | .memory _ => True
  | .folder root => s.files.isFolder root = true

instance (s : Shelf α) : Decidable s.Opened :=
  match s with
  | ⟨.memory _, _⟩ => .isTrue trivial
  | ⟨.folder root, files⟩ => inferInstanceAs (Decidable (files.isFolder root = true))

omit [Storable α] in
/-- A store that was started in files has its root, if the names in it can stand. -/
theorem opened_of_openFolder {store : Store α}
    (named : ∀ name ∈ root, FileTree.canName name = true)
    (started : openFolder files root = (after, .ok store)) : (Shelf.mk store after).Opened := by
  unfold openFolder at started
  split at started
  · rename_i made
    cases started
    exact FileTree.isFolder_of_makeFolders named made
  · cases started

/-- A shelf keeps something under a key, and everything else as it was. -/
structure Keeps (key : Key) (kept : Kept α) (before after : Shelf α) : Prop where
  opened : after.Opened
  form : after.store.form = before.store.form
  here : after.kept? key = some kept
  elsewhere : ∀ other, other ≠ key → after.kept? other = before.kept? other

/-- A value that is set is kept, whatever the names of its key are. -/
theorem keeps_of_set {s after : Shelf α} {value : α} (opened : s.Opened)
    (done : s.set key value = (after, .ok ())) : Keeps key (s.store.form value) s after := by
  obtain ⟨store, files⟩ := s
  cases store with
  | memory held =>
    cases done
    refine ⟨trivial, rfl, ?_, fun other differs => ?_⟩
    · simp only [kept?, SortedMap.get?_insert_self]
      rfl
    · simp only [kept?, SortedMap.get?_insert_of_ne differs]
  | folder root =>
    obtain ⟨place, leads, within⟩ := FileTree.isFolder_iff.mp opened
    simp only [set] at done
    split at done
    · rename_i files' stored
      cases done
      have filed := filed_of_replace leads within stored
      have leads' := FileTree.resolve_keeps filed.keeps leads
      refine ⟨FileTree.isFolder_iff.mpr ⟨place, leads', filed.keeps place within⟩, rfl, ?_,
        fun other differs => ?_⟩
      · have read : files'.read (file (α := α) root key) = .ok (Storable.encode value) :=
          FileTree.read_ok_iff.mpr ⟨_, filed.leads, filed.here⟩
        simp only [kept?, read]
        rfl
      · have same : (files'.read (file (α := α) root other)).toOption =
            (files.read (file (α := α) root other)).toOption := by
          apply Option.ext
          intro bytes
          rw [toOption_eq_some_iff, toOption_eq_some_iff, read_file_iff leads', read_file_iff leads,
            filed.elsewhere other differs]
        simp only [kept?, same]
    · cases done

end Shelf
end Retrieval
