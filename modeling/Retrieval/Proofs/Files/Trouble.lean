import Retrieval.Proofs.Files.Growth
import Retrieval.Proofs.Files.Replace

/-!
Replacing a file while something goes wrong. Each step can fail by itself, whatever the tree allows:
the folders are made in part, or the temporary file is not opened, written in part, or not renamed.
Then the bytes are in their place, or all files are as they were
(`FileTree.outcome_of_replaceAmid`).
-/
namespace Retrieval

/-- What goes wrong on the way to a file: nothing, or making the folders after so many names, or
opening the temporary file, or writing it after so many bytes, or renaming it. -/
inductive Trouble where
  | none
  | atMaking (names : Nat)
  | atOpening
  | atWriting (count : Nat)
  | atRenaming
deriving DecidableEq

namespace Trouble
variable {t made after : FileTree} {path source target : Path} {bytes : Bytes} {fault : FileFault}
  {trouble : Trouble}

def makeFolders (trouble : Trouble) (t : FileTree) (path : Path) :
    FileTree × Except FileFault Unit :=
  match trouble with
  | atMaking names =>
    if FileTree.canFollow path then ((t.addFolders [] (path.take names)).1, .error .refused)
    else (t, .error .refused)
  | _ => t.makeFolders path

def write (trouble : Trouble) (t : FileTree) (path : Path) (bytes : Bytes) :
    FileTree × Except FileFault Unit :=
  match trouble with
  | atOpening => (t, .error .refused)
  | atWriting count =>
    match t.write path (bytes.take count) with
    | .ok t => (t, .error .refused)
    | .error fault => (t, .error fault)
  | _ =>
    match t.write path bytes with
    | .ok t => (t, .ok ())
    | .error fault => (t, .error fault)

def rename (trouble : Trouble) (t : FileTree) (source target : Path) : Except FileFault FileTree :=
  match trouble with
  | atRenaming => .error .refused
  | _ => t.rename source target

theorem makeFolders_kept (trouble : Trouble) (t : FileTree) (path q : Path) :
    FileTree.KeptAt t (trouble.makeFolders t path).1 path q := by
  cases trouble with
  | atMaking names =>
    rw [makeFolders]
    split
    · have part := FileTree.addFolders_kept [] (path.take names) t.top_folder q
      exact part.mono (List.take_prefix ..)
    · exact .inl rfl
  | _ => exact t.makeFolders_kept path q

theorem makeFolders_ok (done : trouble.makeFolders t path = (made, .ok ())) :
    t.makeFolders path = (made, .ok ()) := by
  cases trouble with
  | atMaking names =>
    rw [makeFolders] at done
    split at done
    · cases done
    · cases done
  | _ => exact done

theorem write_ok (done : trouble.write t path bytes = (after, .ok ())) :
    t.write path bytes = .ok after := by
  unfold write at done
  split at done
  · cases done
  · split at done
    · cases done
    · cases done
  · split at done
    · cases done
      assumption
    · cases done

/-- A write that fails has written nothing, or some bytes. -/
theorem write_error (failed : trouble.write t path bytes = (after, .error fault)) :
    after = t ∨ ∃ part, t.write path part = .ok after := by
  unfold write at failed
  split at failed
  · cases failed
    exact .inl rfl
  · split at failed
    · rename_i written
      cases failed
      exact .inr ⟨_, written⟩
    · cases failed
      exact .inl rfl
  · split at failed
    · cases failed
    · cases failed
      exact .inl rfl

theorem rename_ok (done : trouble.rename t source target = .ok after) :
    t.rename source target = .ok after := by
  cases trouble with
  | atRenaming => cases done
  | _ => exact done

end Trouble

namespace FileTree
variable {t made between after : FileTree} {path place beside target q : Path} {bytes : Bytes}
  {fault : FileFault} {trouble : Trouble}

/-- Write a file under `path` while something goes wrong. -/
def replaceAmid (trouble : Trouble) (t : FileTree) (path : Path) (bytes : Bytes) :
    FileTree × Except FileFault Unit :=
  match trouble.makeFolders t (parentOf path) with
  | (t, .error fault) => (t, .error fault)
  | (t, .ok ()) =>
    let temporary := t.temporary path
    match trouble.write t.drawn temporary bytes with
    | (t, .error fault) => (t.discard temporary, .error fault)
    | (t, .ok ()) =>
      match trouble.rename t temporary path with
      | .error fault => (t.discard temporary, .error fault)
      | .ok t => (t, .ok ())

/-- Without trouble a file is replaced. -/
theorem replaceAmid_none (t : FileTree) (path : Path) (bytes : Bytes) :
    replaceAmid .none t path bytes = t.replace path bytes := by
  unfold replaceAmid replace
  simp only [Trouble.makeFolders]
  cases t.makeFolders (parentOf path) with
  | mk made answer =>
  cases answer with
  | error fault => rfl
  | ok done =>
    simp only [Trouble.write, Trouble.rename]
    generalize FileTree.write _ _ bytes = written
    cases written with
    | error fault => rfl
    | ok between => rfl

/-- Where a file is replaced, nothing went wrong. -/
theorem replace_of_replaceAmid (done : replaceAmid trouble t path bytes = (after, .ok ())) :
    t.replace path bytes = (after, .ok ()) := by
  unfold replaceAmid at done
  split at done
  · cases done
  rename_i made folders
  dsimp only at done
  split at done
  · cases done
  rename_i between written
  split at done
  · cases done
  rename_i renamed
  cases done
  exact replace_ok_steps.mpr ⟨made, between, Trouble.makeFolders_ok folders,
    Trouble.write_ok written, Trouble.rename_ok renamed⟩

/-! Temporary files -/

/-- A path does not lead to a file. -/
def Fileless (t : FileTree) (path : Path) : Prop :=
  ∀ place bytes, t.resolve path = .ok place → t.mark? place ≠ some (.file bytes)

theorem Fileless.vacant (fileless : t.Fileless path) (leads : t.resolve path = .ok place)
    (free : t.mark? place ≠ some .folder) : t.mark? place = none := by
  cases found : t.mark? place with
  | none => rfl
  | some mark =>
    cases mark with
    | file bytes => exact absurd found (fileless place bytes leads)
    | folder => exact absurd found free

theorem discard_of_fileless (fileless : t.Fileless path) : t.discard path = t := by
  rw [discard]
  cases removed : t.remove path with
  | error fault => rfl
  | ok after =>
    obtain ⟨place, leads, ⟨bytes, stands⟩, _⟩ := remove_ok_iff.mp removed
    exact absurd stands (fileless place bytes leads)

/-- After a new file is removed again, all is as before. -/
theorem mark?_discard (fileless : t.Fileless path) (written : t.write path bytes = .ok between)
    (q : Path) : (between.discard path).mark? q = t.mark? q := by
  obtain ⟨place, leads, free, rfl⟩ := write_ok_iff.mp written
  obtain ⟨opened, _⟩ := open_of_resolve leads free
  have folders (q : Path) : (t.put place (.file bytes)).mark? q = some .folder ↔
      t.mark? q = some .folder := opened.put_folder_iff q
  have reopened : (t.put place (.file bytes)).Open place :=
    ⟨(folders _).mpr opened.within, fun stands => free ((folders _).mp stands)⟩
  have removed : (t.put place (.file bytes)).remove path =
      .ok ((t.put place (.file bytes)).clear place) := by
    refine remove_ok_iff.mpr ⟨place, ?_, ⟨bytes, ?_⟩, rfl⟩
    · exact resolve_keeps (fun q => (folders q).mpr) leads
    · rw [opened.mark?_put, if_pos rfl]
  rw [discard, removed]
  show ((t.put place (.file bytes)).clear place).mark? q = _
  rw [reopened.mark?_clear, opened.mark?_put]
  by_cases here : q = place
  · rw [if_pos here, here, fileless.vacant leads free]
  · rw [if_neg here, if_neg here]

/-- The name that is made up for the temporary file is not that of a file. -/
def Spare (t : FileTree) (path : Path) : Prop :=
  ∀ made, t.makeFolders (parentOf path) = (made, .ok ()) → made.Fileless (made.temporary path)

/-- A name that no file has anywhere is spare. -/
theorem spare_of_unused
    (unused : ∀ place bytes, t.mark? place = some (.file bytes) →
      place.getLast? ≠ (t.temporary path).getLast?) :
    t.Spare path := by
  intro made folders place bytes leads stands
  have kept := t.makeFolders_kept (parentOf path) place
  have draws := t.makeFolders_draws (parentOf path)
  rw [folders] at kept draws
  obtain ⟨_, name, _, last, here⟩ := open_of_resolve leads (by rw [stands]; nofun)
  apply unused place bytes (kept.of_file stands)
  rw [here, ← last, temporary, temporary, draws]

/-- Where there is no way to the temporary file, the folders are all that is made. -/
theorem replace_of_unled (folders : t.makeFolders (parentOf path) = (made, .ok ()))
    (unled : ∀ place, made.resolve (made.temporary path) ≠ .ok place) (bytes : Bytes) :
    ∃ fault, t.replace path bytes = (made.drawn, .error fault) := by
  have unled' (place : Path) : made.drawn.resolve (made.temporary path) ≠ .ok place :=
    fun leads => unled place (resolve_keeps made.drawn_keeps leads)
  have discarded : made.drawn.discard (made.temporary path) = made.drawn :=
    discard_of_fileless fun place _ leads => absurd leads (unled' place)
  unfold replace
  rw [folders]
  dsimp only
  split
  · rename_i fault _
    exact ⟨fault, by rw [discarded]⟩
  · rename_i between written
    obtain ⟨place, leads, _⟩ := write_ok_iff.mp written
    exact absurd leads (unled' place)

/-- A name is spare where the temporary file would lead to nothing. -/
theorem spare_of_vacant (folders : t.makeFolders (parentOf path) = (made, .ok ()))
    (vacant : ∀ place, made.resolve (made.temporary path) = .ok place → made.mark? place = none) :
    t.Spare path := by
  intro other folders' place bytes leads
  cases folders.symm.trans folders'
  rw [vacant place leads]
  nofun

/-! Outcomes -/

/-- What comes of replacing a file: its bytes are in their place, or it is not stored. New folders
above it are all else that can have changed. -/
inductive Outcome (t : FileTree) (path : Path) (bytes : Bytes) :
    FileTree × Except FileFault Unit → Prop where
  | stored {after : FileTree} {target : Path} (leads : after.resolve path = .ok target)
      (here : after.mark? target = some (.file bytes))
      (elsewhere : ∀ q, q ≠ target → KeptAt t after (parentOf path) q) :
      Outcome t path bytes (after, .ok ())
  | failed {after : FileTree} {fault : FileFault} (kept : ∀ q, KeptAt t after (parentOf path) q) :
      Outcome t path bytes (after, .error fault)

theorem outcome_of_replaced (spare : t.Spare path)
    (done : t.replace path bytes = (after, .ok ())) : Outcome t path bytes (after, .ok ()) := by
  obtain ⟨made, beside, target, folders, room⟩ := takes_of_replace done
  cases done.symm.trans (room.replace_eq folders bytes)
  have kept := t.makeFolders_kept (parentOf path)
  rw [folders] at kept
  have leads : (made.replaced beside target bytes).resolve path = .ok target :=
    resolve_keeps (fun q => (room.replaced_folder_iff bytes q).mpr) room.leads
  have here : (made.replaced beside target bytes).mark? target = some (.file bytes) := by
    rw [room.mark?_replaced, if_pos rfl]
  refine .stored leads here fun q other => ?_
  -- The temporary file came to where nothing was, and is gone.
  have vacant := (spare made folders).vacant room.aside room.asideFree
  have same : (made.replaced beside target bytes).mark? q = made.mark? q := by
    rw [room.mark?_replaced, if_neg other]
    by_cases aside : q = beside
    · rw [if_pos aside, aside, vacant]
    · rw [if_neg aside]
  exact (kept q).trans (.inl same)

/-- Whatever goes wrong, the file is stored whole, or every file is as it was. -/
theorem outcome_of_replaceAmid (spare : t.Spare path) (trouble : Trouble) (bytes : Bytes) :
    Outcome t path bytes (replaceAmid trouble t path bytes) := by
  cases replaced : replaceAmid trouble t path bytes with
  | mk after answer =>
  cases answer with
  | ok done => exact outcome_of_replaced spare (replace_of_replaceAmid replaced)
  | error fault =>
  refine .failed fun q => ?_
  have kept := trouble.makeFolders_kept t (parentOf path) q
  unfold replaceAmid at replaced
  split at replaced
  · rename_i made failed
    cases replaced
    rwa [failed] at kept
  rename_i made folders
  rw [folders] at kept
  have fileless : made.drawn.Fileless (made.temporary path) := by
    intro place old leads
    exact spare made (Trouble.makeFolders_ok folders) place old
      (resolve_keeps made.drawn_keeps leads)
  refine kept.trans (.inl ?_)
  dsimp only at replaced
  split at replaced
  · rename_i between failed written
    cases replaced
    rcases Trouble.write_error written with rfl | ⟨part, written⟩
    · rw [discard_of_fileless fileless]
      rfl
    · exact mark?_discard fileless written q
  · rename_i between written
    split at replaced
    · cases replaced
      exact mark?_discard fileless (Trouble.write_ok written) q
    · cases replaced

end FileTree
end Retrieval
