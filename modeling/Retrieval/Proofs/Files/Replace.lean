import Retrieval.Files.Replace
import Retrieval.Proofs.Files.Tree

/-!
Replacing a file. Whether a tree takes a file under a path depends on its folders and not on the
bytes (`FileTree.replace_ok_iff`). A file that is taken is read back under the path, and no other
place is changed (`FileTree.Room.mark?_replaced`).
-/
namespace Retrieval.FileTree
variable {t made after : FileTree} {path beside target : Path} {bytes : Bytes}

theorem exists_temporary (t : FileTree) (path : Path) :
    ∃ front name, t.temporary path = front ++ [temporaryName name t.draws] := by
  unfold temporary
  dsimp only
  split
  · exact ⟨_, _, rfl⟩
  · exact ⟨_, _, rfl⟩

theorem keeps_drawn (t : FileTree) : t.Keeps t.drawn := fun _ stands => stands

theorem drawn_keeps (t : FileTree) : t.drawn.Keeps t := fun _ stands => stands

theorem replace_ok_steps :
    t.replace path bytes = (after, .ok ()) ↔ ∃ made between,
      t.makeFolders (parentOf path) = (made, .ok ()) ∧
      made.drawn.write (made.temporary path) bytes = .ok between ∧
      between.rename (made.temporary path) path = .ok after := by
  unfold replace
  constructor
  · intro replaced
    split at replaced
    · cases replaced
    rename_i made folders
    dsimp only at replaced
    split at replaced
    · cases replaced
    rename_i between written
    split at replaced
    · cases replaced
    rename_i renamed
    cases replaced
    exact ⟨made, between, folders, written, renamed⟩
  · rintro ⟨made, between, folders, written, renamed⟩
    simp only [folders, written, renamed]

/-- A temporary name is longer than the name that it is made up for. -/
theorem temporaryName_ne (name : String) (draw : Nat) : temporaryName name draw ≠ name := by
  intro same
  have sizes := congrArg String.length same
  simp only [temporaryName, String.length_append] at sizes
  have dot : ".".length = 1 := rfl
  omega

/-- A path whose last name leads on has no names at its end that lead no further. -/
theorem trimEnd_concat {name : String} (leads : leadsOn name = true) (front : Path) :
    trimEnd (front ++ [name]) = front ++ [name] := by
  have stays : namesHere name = false := (leadsOn_iff.mp leads).1
  simp [trimEnd, stays]

theorem getLast?_trimEnd {name : String} (leads : leadsOn name = true)
    (last : path.getLast? = some name) : (trimEnd path).getLast? = some name := by
  obtain ⟨front, rfl⟩ := List.getLast?_eq_some_iff.mp last
  rw [trimEnd_concat leads, List.getLast?_concat]

/-- The temporary file for a path that names a file is beside it. -/
theorem temporary_of_leadsOn {name : String} (leads : leadsOn name = true)
    (last : path.getLast? = some name) (t : FileTree) :
    t.temporary path = parentOf path ++ [temporaryName name t.draws] := by
  have onward : name ≠ ".." := (leadsOn_iff.mp leads).2
  simp [temporary, getLast?_trimEnd leads last, onward]

/-- There is a place for the temporary file and one for the file itself, and no folder is there. -/
structure Room (t : FileTree) (path beside target : Path) : Prop where
  aside : t.resolve (t.temporary path) = .ok beside
  asideFree : t.mark? beside ≠ some .folder
  leads : t.resolve path = .ok target
  free : t.mark? target ≠ some .folder

/-- The tree with the bytes in the temporary file. -/
def staged (t : FileTree) (beside : Path) (bytes : Bytes) : FileTree :=
  t.drawn.put beside (.file bytes)

/-- The tree with the bytes in their place, and in the temporary file still. -/
def placed (t : FileTree) (beside target : Path) (bytes : Bytes) : FileTree :=
  (t.staged beside bytes).put target (.file bytes)

/-- The tree with the bytes in their place only. -/
def replaced (t : FileTree) (beside target : Path) (bytes : Bytes) : FileTree :=
  (t.placed beside target bytes).clear beside

namespace Room

/-- The two places differ in their last names. -/
theorem beside_ne_target (room : made.Room path beside target) : beside ≠ target := by
  rintro rfl
  obtain ⟨_, other, _, last, here⟩ := open_of_resolve room.aside room.asideFree
  obtain ⟨_, name, leads, named, there⟩ := open_of_resolve room.leads room.free
  have same : other = name := Option.some.inj (here.symm.trans there)
  rw [temporary_of_leadsOn leads named, List.getLast?_concat, same] at last
  exact temporaryName_ne name _ (Option.some.inj last)

variable (room : made.Room path beside target)
include room

theorem beside_open : made.drawn.Open beside := by
  obtain ⟨within, free⟩ := (open_of_resolve room.aside room.asideFree).1
  exact ⟨within, free⟩

theorem staged_folder_iff (bytes : Bytes) (q : Path) :
    (made.staged beside bytes).mark? q = some .folder ↔ made.mark? q = some .folder :=
  room.beside_open.put_folder_iff q

theorem target_open (bytes : Bytes) : (made.staged beside bytes).Open target := by
  obtain ⟨within, free⟩ := (open_of_resolve room.leads room.free).1
  exact ⟨(room.staged_folder_iff bytes _).mpr within,
    fun stands => free ((room.staged_folder_iff bytes _).mp stands)⟩

theorem placed_folder_iff (bytes : Bytes) (q : Path) :
    (made.placed beside target bytes).mark? q = some .folder ↔ made.mark? q = some .folder :=
  ((room.target_open bytes).put_folder_iff q).trans (room.staged_folder_iff bytes q)

theorem placed_open (bytes : Bytes) : (made.placed beside target bytes).Open beside := by
  obtain ⟨within, free⟩ := room.beside_open
  exact ⟨(room.placed_folder_iff bytes _).mpr within,
    fun stands => free ((room.placed_folder_iff bytes _).mp stands)⟩

theorem replaced_folder_iff (bytes : Bytes) (q : Path) :
    (made.replaced beside target bytes).mark? q = some .folder ↔ made.mark? q = some .folder :=
  ((room.placed_open bytes).clear_folder_iff q).trans (room.placed_folder_iff bytes q)

/-- The file holds the bytes, the temporary one is gone, and nothing else is changed. -/
theorem mark?_replaced (bytes : Bytes) (q : Path) :
    (made.replaced beside target bytes).mark? q =
      if q = target then some (.file bytes) else if q = beside then none else made.mark? q := by
  rw [replaced, (room.placed_open bytes).mark?_clear, placed, (room.target_open bytes).mark?_put,
    staged, room.beside_open.mark?_put]
  by_cases there : q = target
  · subst there
    rw [if_neg room.beside_ne_target.symm]
    simp
  · by_cases aside : q = beside
    · rw [if_pos aside, if_neg there, if_pos aside]
    · rw [if_neg aside, if_neg there, if_neg there, if_neg aside, if_neg aside]
      rfl

theorem write_staged (bytes : Bytes) :
    made.drawn.write (made.temporary path) bytes = .ok (made.staged beside bytes) :=
  write_ok_iff.mpr ⟨beside, resolve_keeps made.keeps_drawn room.aside, room.asideFree, rfl⟩

theorem rename_replaced (bytes : Bytes) :
    (made.staged beside bytes).rename (made.temporary path) path =
      .ok (made.replaced beside target bytes) := by
  have aside := room.aside
  apply rename_ok_iff.mpr
  refine ⟨bytes, made.placed beside target bytes, ?_, ?_, ?_⟩
  · refine read_ok_iff.mpr ⟨beside, ?_, ?_⟩
    · exact resolve_keeps (fun q => (room.staged_folder_iff bytes q).mpr) aside
    · rw [staged, room.beside_open.mark?_put, if_pos rfl]
  · refine write_ok_iff.mpr ⟨target, ?_, (room.target_open bytes).free, rfl⟩
    exact resolve_keeps (fun q => (room.staged_folder_iff bytes q).mpr) room.leads
  · refine remove_ok_iff.mpr ⟨beside, ?_, ⟨bytes, ?_⟩, rfl⟩
    · exact resolve_keeps (fun q => (room.placed_folder_iff bytes q).mpr) aside
    · rw [placed, (room.target_open bytes).mark?_put, if_neg room.beside_ne_target, staged,
        room.beside_open.mark?_put, if_pos rfl]

/-- What is replaced is read back under the path. -/
theorem read_replaced (bytes : Bytes) :
    (made.replaced beside target bytes).read path = .ok bytes := by
  refine read_ok_iff.mpr ⟨target, ?_, ?_⟩
  · exact resolve_keeps (fun q => (room.replaced_folder_iff bytes q).mpr) room.leads
  · rw [room.mark?_replaced, if_pos rfl]

theorem replace_eq (folders : t.makeFolders (parentOf path) = (made, .ok ())) (bytes : Bytes) :
    t.replace path bytes = (made.replaced beside target bytes, .ok ()) :=
  replace_ok_steps.mpr ⟨made, _, folders, room.write_staged bytes, room.rename_replaced bytes⟩

end Room

/-- The folders above a path can be added, and then there is room for a file under the path. -/
def Takes (t : FileTree) (path : Path) : Prop :=
  ∃ made beside target, t.makeFolders (parentOf path) = (made, .ok ()) ∧
    made.Room path beside target

/-- Where a file was stored there was room for it. -/
theorem takes_of_replace (stored : t.replace path bytes = (after, .ok ())) :
    t.Takes path := by
  obtain ⟨made, between, folders, written, renamed⟩ := replace_ok_steps.mp stored
  obtain ⟨beside, aside, asideFree, rfl⟩ := write_ok_iff.mp written
  obtain ⟨_, _, _, moved, _⟩ := rename_ok_iff.mp renamed
  obtain ⟨target, leads, free, _⟩ := write_ok_iff.mp moved
  have opened : made.drawn.Open beside := (open_of_resolve aside asideFree).1
  refine ⟨made, beside, target, folders, ?_, asideFree, ?_, ?_⟩
  · exact resolve_keeps made.drawn_keeps aside
  · exact resolve_keeps (fun q => (opened.put_folder_iff q).mp) leads
  · exact fun stands => free ((opened.put_folder_iff target).mpr stands)

/-- A file is stored or not whatever its bytes are. -/
theorem replace_ok_iff : (t.replace path bytes).2 = .ok () ↔ t.Takes path := by
  constructor
  · intro stored
    exact takes_of_replace (Prod.ext rfl stored)
  · rintro ⟨made, beside, target, folders, room⟩
    rw [room.replace_eq folders]

/-- A file that is stored is read back. -/
theorem Takes.read_replace (takes : t.Takes path) (bytes : Bytes) :
    ∃ after, t.replace path bytes = (after, .ok ()) ∧ after.read path = .ok bytes := by
  obtain ⟨made, beside, target, folders, room⟩ := takes
  exact ⟨_, room.replace_eq folders bytes, room.read_replaced bytes⟩

end Retrieval.FileTree
