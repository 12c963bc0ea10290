import Retrieval.Proofs.Files.Tree

/-!
Making folders along a path. Where the path leads to a folder nothing is made
(`FileTree.makeFolders_of_resolve`), and a name behind such a path is all that is added
(`FileTree.addFolders_append`). When it is done the path leads to a folder
(`FileTree.isFolder_of_makeFolders`).
-/
namespace Retrieval.FileTree
variable {t : FileTree} {folder path place : Path} {name : String}

theorem step_of_leadsOn (leads : leadsOn name = true) : step folder name = folder ++ [name] := by
  obtain ⟨here, up⟩ := leadsOn_iff.mp leads
  rw [step, if_neg up, if_neg (by simp [here])]

/-- A path is followed from where its front leads. -/
theorem locate_append (t : FileTree) (folder front rest : Path) :
    t.locate folder (front ++ rest) =
      (t.locate folder front).bind fun between => t.locate between rest := by
  induction front generalizing folder with
  | nil => rfl
  | cons name front ih =>
    rw [List.cons_append, locate, locate]
    split
    · rfl
    · rfl
    · split
      · exact ih _
      · rfl

/-- A path only leads to a folder from a folder. -/
theorem mark?_of_locate (located : t.locate folder path = .ok place)
    (stands : t.mark? place = some .folder) : t.mark? folder = some .folder := by
  cases path with
  | nil =>
    cases located
    exact stands
  | cons name rest => exact ((locate_cons ..).mp located).1

/-- Where the front of a path leads to a folder, there is nothing to be added along it. -/
theorem addFolders_append {front : Path} (located : t.locate folder front = .ok place)
    (stands : t.mark? place = some .folder) (rest : Path) :
    t.addFolders folder (front ++ rest) = t.addFolders place rest := by
  induction front generalizing folder with
  | nil =>
    cases located
    rfl
  | cons name front ih =>
    obtain ⟨_, _, later⟩ := (locate_cons ..).mp located
    obtain ⟨inner, there⟩ := mark?_eq_folder.mp (mark?_of_locate later stands)
    rw [List.cons_append, addFolders]
    simp only [there]
    exact ih later

theorem trimEnd_front (path : Path) : trimEnd path <+: path :=
  List.reverse_suffix.mp (by rw [trimEnd, List.reverse_reverse]; exact List.dropWhile_suffix _)

theorem parentOf_front (path : Path) : parentOf path <+: path :=
  ((trimEnd_front _).trans (List.dropLast_prefix _)).trans (trimEnd_front path)

/-- Nothing is made along a path that leads to a folder. -/
theorem makeFolders_of_resolve (resolved : t.resolve path = .ok place)
    (stands : t.mark? place = some .folder) : t.makeFolders path = (t, .ok ()) := by
  obtain ⟨follows, located⟩ := resolve_ok_iff.mp resolved
  have along {front : Path} (part : front <+: path) : t.addFolders [] front = (t, .ok ()) := by
    obtain ⟨rest, rfl⟩ := part
    rw [locate_append] at located
    obtain ⟨between, first, later⟩ := exists_of_bind_ok located
    have added := addFolders_append first (mark?_of_locate later stands) []
    rwa [List.append_nil] at added
  have isFolder : t.isFolder path = true := isFolder_iff.mpr ⟨place, resolved, stands⟩
  rw [makeFolders, if_pos follows, along (parentOf_front path), along (List.prefix_refl path)]
  simp only [isFolder, if_true, ite_self]

/-- Where a path leads to a folder, one more name is made in that folder. -/
theorem makeFolders_concat (leads : t.resolve path = .ok place)
    (stands : t.mark? place = some .folder) (nameLeads : leadsOn name = true)
    (follows : canFollow (path ++ [name]) = true) :
    t.makeFolders (path ++ [name]) = t.addFolders place [name] := by
  have last : ((path ++ [name]).filter (· ≠ "")).getLast? ≠ some "." := by
    simp only [leadsOn, namesHere, Bool.and_eq_true, Bool.not_eq_true', Bool.or_eq_false_iff,
      decide_eq_false_iff_not] at nameLeads
    obtain ⟨⟨filled, dotless⟩, _⟩ := nameLeads
    simp [filled, dotless]
  rw [makeFolders, if_pos follows, if_neg last,
    addFolders_append (resolve_ok_iff.mp leads).2 stands]

@[simp] theorem put_draws (t : FileTree) (place : Path) (node : Node) :
    (t.put place node).draws = t.draws := by
  rw [put]
  split <;> rfl

@[simp] theorem clear_draws (t : FileTree) (place : Path) : (t.clear place).draws = t.draws := by
  rw [clear]
  split <;> rfl

theorem addFolders_draws (t : FileTree) (folder path : Path) :
    (t.addFolders folder path).1.draws = t.draws := by
  induction path generalizing t folder with
  | nil => rfl
  | cons name rest ih =>
    unfold addFolders
    dsimp only
    split
    · exact ih t _
    · rfl
    · split
      · rw [ih, put_draws]
      · rfl

/-- Making folders makes up no names for temporary files. -/
theorem makeFolders_draws (t : FileTree) (path : Path) :
    (t.makeFolders path).1.draws = t.draws := by
  have parent := t.addFolders_draws [] (parentOf path)
  unfold makeFolders
  split
  · split
    · split
      · rename_i failed
        rwa [failed] at parent
      · rename_i added
        rwa [added] at parent
    · exact t.addFolders_draws [] path
  · rfl

/-- A new folder in an open place is a change to that place only. -/
theorem Open.mark?_putFolder (opened : t.Open place) (q : Path) :
    (t.put place (.folder .empty)).mark? q = if q = place then some .folder else t.mark? q := by
  have bare : Bare (some (.folder .empty)) := Folder.node?_empty
  rcases List.eq_nil_or_concat place with rfl | ⟨folder, name, rfl⟩
  · exact absurd rfl opened.ne_nil
  · rw [List.concat_eq_append] at opened ⊢
    rw [put, List.getLast?_concat, List.dropLast_concat]
    exact opened.mark?_alter (fun f other => f.find?_insert name other _) bare q

/-- Something can be put where a name leads to nothing. -/
theorem open_of_vacant (stands : t.mark? folder = some .folder) (named : canName name = true)
    (vacant : t.mark? (step folder name) = none) : t.Open (step folder name) := by
  have leads : t.locate folder [name] = .ok (step folder name) :=
    (locate_cons ..).mpr ⟨stands, named, rfl⟩
  exact (open_of_locate stands leads (by simp [vacant])).1

/-- Folders that are added along a path are led to by it, if their names can stand. -/
theorem addFolders_leads {after : FileTree} (named : ∀ name ∈ path, canName name = true)
    (stands : t.mark? folder = some .folder) (added : t.addFolders folder path = (after, .ok ())) :
    t.Keeps after ∧ ∃ place, after.locate folder path = .ok place ∧
      after.mark? place = some .folder := by
  induction path generalizing t folder with
  | nil =>
    cases added
    exact ⟨fun _ stands => stands, folder, rfl, stands⟩
  | cons name rest ih =>
    obtain ⟨now, later⟩ := List.forall_mem_cons.mp named
    unfold addFolders at added
    dsimp only at added
    split at added
    · rename_i inner there
      obtain ⟨keeps, place, located, found⟩ :=
        ih later (mark?_eq_folder.mpr ⟨inner, there⟩) added
      exact ⟨keeps, place, (locate_cons ..).mpr ⟨keeps _ stands, now, located⟩, found⟩
    · cases added
    · rename_i missing
      rw [if_pos now] at added
      have vacant : t.mark? (step folder name) = none := Option.map_eq_none_iff.mpr missing
      have opened := open_of_vacant stands now vacant
      have keeps : t.Keeps (t.put (step folder name) (.folder .empty)) := by
        intro q there
        rw [opened.mark?_putFolder, there, ite_self]
      obtain ⟨keeps', place, located, found⟩ :=
        ih later (by rw [opened.mark?_putFolder, if_pos rfl]) added
      have kept := keeps' _ (keeps _ stands)
      exact ⟨fun q there => keeps' q (keeps q there), place,
        (locate_cons ..).mpr ⟨kept, now, located⟩, found⟩

/-- A path along which folders were made leads to a folder. -/
theorem isFolder_of_makeFolders {after : FileTree} (named : ∀ name ∈ path, canName name = true)
    (made : t.makeFolders path = (after, .ok ())) : after.isFolder path = true := by
  unfold makeFolders at made
  split at made
  · rename_i follows
    split at made
    · split at made
      · cases made
      · rename_i between _
        cases isFolder : between.isFolder path with
        | true =>
          rw [isFolder] at made
          cases made
          exact isFolder
        | false =>
          rw [isFolder] at made
          cases made
    · obtain ⟨_, place, located, stands⟩ := addFolders_leads named t.top_folder made
      exact isFolder_iff.mpr ⟨place, resolve_ok_iff.mpr ⟨follows, located⟩, stands⟩
  · cases made

end Retrieval.FileTree
