import Retrieval.Files.Tree
import Retrieval.Proofs.Files.Folder
import Retrieval.Proofs.Traversal

/-!
Places in a tree of files. A path is followed through folders alone, so it leads to the same place
in any tree that has these folders; writing and removing a file changes the place that the path
leads to and no other.
-/
namespace Retrieval.FileTree
variable {t other : FileTree} {folder path place : Path} {name : String}

/-- What is seen at a place. -/
def mark? (t : FileTree) (place : Path) : Option Mark := t.top.mark? place

theorem mark?_eq_folder :
    t.mark? place = some .folder ↔ ∃ inner, t.node? place = some (.folder inner) := by
  show (t.node? place).map Node.mark = _ ↔ _
  cases t.node? place with
  | none => simp
  | some node => cases node <;> simp [Node.mark]

theorem mark?_eq_file {bytes : Bytes} :
    t.mark? place = some (.file bytes) ↔ t.node? place = some (.file bytes) := by
  show (t.node? place).map Node.mark = _ ↔ _
  cases t.node? place with
  | none => simp
  | some node => cases node <;> simp [Node.mark]

theorem node?_append_singleton {inner : Folder} (stands : t.node? folder = some (.folder inner))
    (name : String) : t.node? (folder ++ [name]) = inner.find? name := by
  have appended := t.top.node?_append folder [name]
  rw [show t.top.node? folder = _ from stands] at appended
  rw [node?, appended]
  show inner.node? [name] = _
  rw [Folder.node?_cons]
  simp

/-- Only a folder has anything in it. -/
theorem mark?_front {mark : Mark} (stands : t.mark? (folder ++ [name]) = some mark) :
    t.mark? folder = some .folder := by
  obtain ⟨found, there, _⟩ := Option.map_eq_some_iff.mp stands
  rw [Folder.node?_append] at there
  obtain ⟨node, outside, below⟩ := Option.bind_eq_some_iff.mp there
  obtain ⟨outer, rfl⟩ := Node.exists_folder_of_below below
  exact mark?_eq_folder.mpr ⟨outer, outside⟩

theorem mark?_dropLast (stands : t.mark? place = some .folder) :
    t.mark? place.dropLast = some .folder := by
  rcases List.eq_nil_or_concat place with rfl | ⟨front, name, rfl⟩
  · exact stands
  · rw [List.concat_eq_append] at stands ⊢
    rw [List.dropLast_concat]
    exact mark?_front stands

/-! Where paths lead -/

/-- The folders of one tree are folders in another. -/
def Keeps (t other : FileTree) : Prop :=
  ∀ place, t.mark? place = some .folder → other.mark? place = some .folder

theorem locate_cons (t : FileTree) (folder : Path) (name : String) (rest : Path) :
    t.locate folder (name :: rest) = .ok place ↔
      t.mark? folder = some .folder ∧ canName name = true ∧
        t.locate (step folder name) rest = .ok place := by
  rw [locate, mark?_eq_folder]
  cases t.node? folder with
  | none => simp
  | some node =>
    cases node with
    | file bytes => simp
    | folder inner => cases canName name <;> simp

theorem locate_keeps (keeps : t.Keeps other) (located : t.locate folder path = .ok place) :
    other.locate folder path = .ok place := by
  induction path generalizing folder with
  | nil => exact located
  | cons name rest ih =>
    obtain ⟨stands, named, later⟩ := (locate_cons ..).mp located
    exact (locate_cons ..).mpr ⟨keeps folder stands, named, ih later⟩

theorem resolve_ok_iff :
    t.resolve path = .ok place ↔ canFollow path = true ∧ t.locate [] path = .ok place := by
  rw [resolve]
  cases canFollow path <;> simp

theorem resolve_keeps (keeps : t.Keeps other) (resolved : t.resolve path = .ok place) :
    other.resolve path = .ok place := by
  obtain ⟨follows, located⟩ := resolve_ok_iff.mp resolved
  exact resolve_ok_iff.mpr ⟨follows, locate_keeps keeps located⟩

/-- A name that stands for what is called so in a folder. -/
def leadsOn (name : String) : Bool := !namesHere name && name != ".."

/-- A name that leads on is none of the three that stand for other folders. -/
theorem leadsOn_iff : leadsOn name = true ↔ namesHere name = false ∧ name ≠ ".." := by
  rw [leadsOn, Bool.and_eq_true, Bool.not_eq_true', bne_iff_ne]

/-- A file can stand at a place: it is in a folder, and no folder is there. -/
structure Open (t : FileTree) (place : Path) : Prop where
  within : t.mark? place.dropLast = some .folder
  free : t.mark? place ≠ some .folder

theorem top_folder (t : FileTree) : t.mark? [] = some .folder := rfl

theorem Open.ne_nil (opened : t.Open place) : place ≠ [] := by
  rintro rfl
  exact opened.free t.top_folder

/-- Where a path leads to no folder, its last name is the last of the place. -/
theorem open_of_locate (stands : t.mark? folder = some .folder)
    (located : t.locate folder path = .ok place) (free : t.mark? place ≠ some .folder) :
    t.Open place ∧ ∃ name, leadsOn name = true ∧ path.getLast? = some name ∧
      place.getLast? = some name := by
  induction path generalizing folder with
  | nil =>
    cases located
    exact absurd stands free
  | cons name rest ih =>
    obtain ⟨_, named, later⟩ := (locate_cons ..).mp located
    cases rest with
    | cons next rest =>
      obtain ⟨stands', _, _⟩ := (locate_cons ..).mp later
      have last := ih stands' later
      rwa [List.getLast?_cons_cons]
    | nil =>
      cases later
      rw [step] at free ⊢
      by_cases up : name = ".."
      · rw [if_pos up] at free
        exact absurd (mark?_dropLast stands) free
      by_cases here : namesHere name = true
      · rw [if_neg up, if_pos here] at free
        exact absurd stands free
      rw [if_neg up, if_neg here] at free ⊢
      refine ⟨⟨?_, free⟩, name, ?_, rfl, ?_⟩
      · rwa [List.dropLast_concat]
      · simp [leadsOn, here, up]
      · exact List.getLast?_concat

theorem open_of_resolve (resolved : t.resolve path = .ok place)
    (free : t.mark? place ≠ some .folder) :
    t.Open place ∧ ∃ name, leadsOn name = true ∧ path.getLast? = some name ∧
      place.getLast? = some name :=
  open_of_locate t.top_folder (resolve_ok_iff.mp resolved).2 free

/-! Single files -/

/-- A change to the last name of an open place is a change to that place only. -/
theorem Open.mark?_alter {change : Folder → Folder} {found : Option Node}
    (opened : t.Open (folder ++ [name]))
    (changed : ∀ f other, (change f).find? other = if other = name then found else f.find? other)
    (bare : Bare found) (q : Path) :
    (t.top.alter change folder).mark? q =
      if q = folder ++ [name] then found.map Node.mark else t.mark? q := by
  obtain ⟨within, free⟩ := opened
  rw [List.dropLast_concat] at within
  obtain ⟨inner, stands⟩ := mark?_eq_folder.mp within
  have before : Bare (inner.find? name) := by
    cases found : inner.find? name with
    | none => exact bare_none
    | some node =>
      cases node with
      | file bytes => exact bare_file bytes
      | folder deeper =>
        rw [← node?_append_singleton stands] at found
        exact absurd (mark?_eq_folder.mpr ⟨deeper, found⟩) free
  exact Folder.mark?_alter stands (changed inner) before bare q

theorem Open.mark?_put {bytes : Bytes} (opened : t.Open place) (q : Path) :
    (t.put place (.file bytes)).mark? q = if q = place then some (.file bytes) else t.mark? q := by
  rcases List.eq_nil_or_concat place with rfl | ⟨folder, name, rfl⟩
  · exact absurd rfl opened.ne_nil
  · rw [List.concat_eq_append] at opened ⊢
    rw [put, List.getLast?_concat, List.dropLast_concat]
    exact opened.mark?_alter (fun f other => f.find?_insert name other _) (bare_file bytes) q

theorem Open.mark?_clear (opened : t.Open place) (q : Path) :
    (t.clear place).mark? q = if q = place then none else t.mark? q := by
  rcases List.eq_nil_or_concat place with rfl | ⟨folder, name, rfl⟩
  · exact absurd rfl opened.ne_nil
  · rw [List.concat_eq_append] at opened ⊢
    rw [clear, List.getLast?_concat, List.dropLast_concat]
    exact opened.mark?_alter (fun f other => f.find?_erase name other) bare_none q

theorem Open.put_folder_iff {bytes : Bytes} (opened : t.Open place) (q : Path) :
    (t.put place (.file bytes)).mark? q = some .folder ↔ t.mark? q = some .folder := by
  rw [opened.mark?_put]
  by_cases same : q = place
  · subst same
    simp [opened.free]
  · rw [if_neg same]

theorem Open.clear_folder_iff (opened : t.Open place) (q : Path) :
    (t.clear place).mark? q = some .folder ↔ t.mark? q = some .folder := by
  rw [opened.mark?_clear]
  by_cases same : q = place
  · subst same
    simp [opened.free]
  · rw [if_neg same]

theorem read_ok_iff {bytes : Bytes} :
    t.read path = .ok bytes ↔
      ∃ place, t.resolve path = .ok place ∧ t.mark? place = some (.file bytes) := by
  rw [read, bind_ok_iff]
  apply exists_congr
  intro place
  rw [and_congr_right_iff, mark?_eq_file]
  intro _
  split
  · rename_i found
    rw [found]
    simp [pure, Except.pure]
  · rename_i found
    rw [found]
    exact ⟨nofun, nofun⟩
  · rename_i found
    rw [found]
    exact ⟨nofun, nofun⟩

theorem isFolder_iff : t.isFolder path = true ↔
    ∃ place, t.resolve path = .ok place ∧ t.mark? place = some .folder := by
  simp only [isFolder, mark?_eq_folder, ← toOption_eq_some_iff]
  cases (t.resolve path).toOption with
  | none => simp
  | some place =>
    cases stands : t.node? place with
    | none => simp [stands]
    | some node => cases node <;> simp [stands]

theorem write_ok_iff {bytes : Bytes} {after : FileTree} :
    t.write path bytes = .ok after ↔ ∃ place, t.resolve path = .ok place ∧
      t.mark? place ≠ some .folder ∧ t.put place (.file bytes) = after := by
  rw [write, bind_ok_iff]
  apply exists_congr
  intro place
  rw [and_congr_right_iff, Ne, mark?_eq_folder]
  intro _
  split
  · rename_i inner found
    refine ⟨nofun, ?_⟩
    rintro ⟨free, _⟩
    exact absurd ⟨inner, found⟩ free
  · rename_i free
    constructor
    · intro written
      exact ⟨fun ⟨inner, stands⟩ => free inner stands, Except.ok.inj written⟩
    · rintro ⟨_, rfl⟩
      rfl

theorem remove_ok_iff {after : FileTree} :
    t.remove path = .ok after ↔ ∃ place, t.resolve path = .ok place ∧
      (∃ bytes, t.mark? place = some (.file bytes)) ∧ t.clear place = after := by
  rw [remove, bind_ok_iff]
  apply exists_congr
  intro place
  rw [and_congr_right_iff]
  intro _
  simp only [mark?_eq_file]
  split
  · rename_i found
    rw [found]
    simp [pure, Except.pure]
  · rename_i found
    rw [found]
    exact ⟨nofun, nofun⟩
  · rename_i found
    rw [found]
    exact ⟨nofun, nofun⟩

/-- Where a path leads to nothing, there is nothing to read or to remove. -/
theorem read_of_vacant (resolved : t.resolve path = .ok place) (vacant : t.node? place = none) :
    t.read path = .error .absent := by
  simp [read, resolved, vacant, bind, Except.bind, throw, throwThe, MonadExceptOf.throw]

theorem remove_of_vacant (resolved : t.resolve path = .ok place) (vacant : t.node? place = none) :
    t.remove path = .error .absent := by
  simp [remove, resolved, vacant, bind, Except.bind, throw, throwThe, MonadExceptOf.throw]

theorem read_of_fault {fault : FileFault} (failed : t.resolve path = .error fault) :
    t.read path = .error fault := by
  rw [read, failed]
  rfl

theorem remove_of_fault {fault : FileFault} (failed : t.resolve path = .error fault) :
    t.remove path = .error fault := by
  rw [remove, failed]
  rfl

theorem rename_ok_iff {source target : Path} {after : FileTree} :
    t.rename source target = .ok after ↔ ∃ bytes between, t.read source = .ok bytes ∧
      t.write target bytes = .ok between ∧ between.remove source = .ok after := by
  rw [rename, bind_ok_iff]
  apply exists_congr
  intro bytes
  rw [bind_ok_iff, exists_and_left]

end Retrieval.FileTree
