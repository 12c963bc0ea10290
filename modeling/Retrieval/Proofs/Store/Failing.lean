import Retrieval.Proofs.Files.Trouble
import Retrieval.Proofs.Store.Descriptor

/-!
Stores in files while something goes wrong. A call that fails stores nothing, and every key is
answered as before unless it was found missing: the folders that the call made can be what was
missing on the way (`Shelf.outcome_of_trouble`).
-/
namespace Retrieval.Shelf
variable {α : Type} [Storable α] {root : Path} {files after : FileTree} {key other : Key}
  {trouble : Trouble}

/-- Keep a value while something goes wrong. -/
def setAmid (trouble : Trouble) (s : Shelf α) (key : Key) (value : α) :
    Shelf α × Except Error Unit :=
  match s.store with
  | .memory held => ({ s with store := .memory (held.insert key value) }, .ok ())
  | .folder root =>
    match FileTree.replaceAmid trouble s.files (@file α _ root key) (Storable.encode value) with
    | (files, .ok ()) => ({ s with files := files }, .ok ())
    | (files, .error _) => ({ s with files := files }, .error .io)

/-- Without trouble a value is set. -/
theorem setAmid_none (s : Shelf α) (key : Key) (value : α) :
    setAmid .none s key value = s.set key value := by
  obtain ⟨store, files⟩ := s
  cases store with
  | memory held => rfl
  | folder root =>
    have same := files.replaceAmid_none (file (α := α) root key) (Storable.encode value)
    cases replaced : files.replace (file (α := α) root key) (Storable.encode value) with
    | mk after answer =>
    rw [replaced] at same
    cases answer with
    | ok done => simp only [setAmid, set, same, replaced]
    | error fault => simp only [setAmid, set, same, replaced]

/-! Keys with too long names -/

section
variable (long : FileTree.canName (FileTree.temporaryName (fileName α key) files.draws) = false)
include long

/-- Where its name would be too long, there is no way to the temporary file. -/
theorem unled_of_long {made : FileTree}
    (folders : files.makeFolders (parentOf (file (α := α) root key)) = (made, .ok ()))
    (place : Path) : made.resolve (made.temporary (file (α := α) root key)) ≠ .ok place := by
  intro leads
  have draws := files.makeFolders_draws (parentOf (file (α := α) root key))
  rw [folders] at draws
  rw [temporary_file, List.append_cons] at leads
  have located := (FileTree.resolve_ok_iff.mp leads).2
  rw [FileTree.locate_append] at located
  obtain ⟨_, _, last⟩ := exists_of_bind_ok located
  have named := ((FileTree.locate_cons ..).mp last).2.1
  rw [draws, long] at named
  cases named

theorem spare_of_long : files.Spare (file (α := α) root key) := by
  intro made folders place bytes leads
  exact absurd leads (unled_of_long long folders place)

theorem set_of_long {made : FileTree}
    (folders : files.makeFolders (parentOf (file (α := α) root key)) = (made, .ok ())) (value : α) :
    set ⟨.folder root, files⟩ key value = (⟨.folder root, made.drawn⟩, .error .io) := by
  obtain ⟨fault, replaced⟩ := FileTree.replace_of_unled folders (unled_of_long long folders)
    (Storable.encode value)
  simp only [set, replaced]

end

/-! Answers after a failure -/

/-- What a call that failed for one key leaves of the answers about another. It can only have
changed the one that nothing was found, by folders that it made on the way. -/
inductive Told (root : Path) (key : Key) (before after : Shelf α) (other : Key) : Prop where
  /-- The answers are the same. -/
  | same (get : after.get other = before.get other) (has : after.has other = before.has other)
  /-- A name is too long, which is seen when it is looked for in a folder that was missing. -/
  | refused {front : Path} {name : String}
      (missed : before.get other = .error (.notFound other.label other.id))
      (get : after.get other = .error .io) (has : after.has other = before.has other)
      (part : front ++ [name] <+: file (α := α) root other)
      (long : FileTree.canName name = false)
      (new : FileTree.NewAt before.files after.files (root ++ [folderName key])
        (FileTree.placeOf front))
  /-- The root goes up from a folder that was missing. -/
  | regained (missed : before.get other = .error (.notFound other.label other.id))
      (lost : ¬ before.files.Steady root)

theorem steady_file (steady : files.Steady root) (key : Key) :
    files.Steady (file (α := α) root key) := by
  rw [file_eq, List.append_cons]
  exact (steady.concat (folderName_leadsOn key)).concat (fileName_leadsOn key)

theorem placeOf_label (root : Path) (key : Key) :
    FileTree.placeOf (root ++ [folderName key]) = FileTree.placeOf root ++ [folderName key] := by
  rw [FileTree.placeOf_concat, FileTree.step_of_leadsOn (folderName_leadsOn key)]

theorem placeOf_file (root : Path) (key : Key) :
    FileTree.placeOf (file (α := α) root key) =
      FileTree.placeOf root ++ [folderName key, fileName α key] := by
  rw [file_eq, List.append_cons, FileTree.placeOf_concat,
    FileTree.step_of_leadsOn (fileName_leadsOn key), placeOf_label, List.append_assoc]
  rfl

/-- Folders on the way to the file of a key are never where the file of a key belongs. -/
theorem not_newAt_file (steady : files.Steady root) :
    ¬ FileTree.NewAt files after (root ++ [folderName key])
      (FileTree.placeOf (file (α := α) root other)) := by
  rintro ⟨vacant, _, front, part, leads⟩
  rw [← leads] at vacant
  rw [placeOf_file] at leads
  rcases List.prefix_concat_iff.mp part with rfl | ⟨rest, rfl⟩
  · rw [placeOf_label] at leads
    simpa using congrArg List.length leads
  · have sizes := (FileTree.placeOf_front steady vacant).length_le
    rw [leads, List.length_append] at sizes
    simp at sizes

theorem get_of_absent (absent : files.read (file (α := α) root key) = .error .absent) :
    (Shelf.mk (α := α) (.folder root) files).get key = .error (.notFound key.label key.id) := by
  simp only [get, absent]

theorem get_of_refused (refused : files.read (file (α := α) root key) = .error .refused) :
    (Shelf.mk (α := α) (.folder root) files).get key = .error .io := by
  simp only [get, refused]

theorem told_of_kept
    (kept : ∀ q, FileTree.KeptAt files after (root ++ [folderName key]) q) (other : Key) :
    Told root key (Shelf.mk (α := α) (.folder root) files) ⟨.folder root, after⟩ other := by
  have told_of_same
      (same : after.read (file (α := α) root other) = files.read (file (α := α) root other)) :
      Told root key (Shelf.mk (α := α) (.folder root) files) ⟨.folder root, after⟩ other := by
    refine .same ?_ ?_
    · simp only [get, same]
    · simp only [has, FileTree.isFile, same]
  by_cases absent : files.read (file (α := α) root other) = .error .absent
  swap
  · exact told_of_same (FileTree.read_of_settled kept absent)
  by_cases steady : files.Steady root
  swap
  · exact .regained (get_of_absent absent) steady
  rcases FileTree.read_of_steady kept (steady_file (α := α) steady other) with
    same | ⟨_, refused, new | ⟨front, name, part, long, new⟩⟩
  · exact told_of_same same
  · exact absurd new (not_newAt_file steady)
  · refine .refused (get_of_absent absent) (get_of_refused refused) ?_ part long new
    simp only [has, FileTree.isFile, refused, absent]
    rfl

/-- Whatever goes wrong while a file is replaced, it is stored whole or every file is as it was. A
store whose call fails answers as before, unless the folders that the call made let it look further
for what it had missed. -/
theorem outcome_of_trouble :
    (∀ t path bytes, FileTree.replaceAmid .none t path bytes = t.replace path bytes) ∧
    (∀ trouble t path bytes, FileTree.Spare t path →
      FileTree.Outcome t path bytes (t.replaceAmid trouble path bytes)) ∧
    (∀ (s : Shelf α) key value, setAmid .none s key value = s.set key value) ∧
    ∀ trouble root files key (value : α) after e, FileTree.Spare files (file (α := α) root key) →
      setAmid trouble ⟨.folder root, files⟩ key value = (after, .error e) →
      ∀ other, Told root key ⟨.folder root, files⟩ after other := by
  refine ⟨FileTree.replaceAmid_none, ?_, setAmid_none, ?_⟩
  · intro trouble t path bytes spare
    exact FileTree.outcome_of_replaceAmid spare trouble bytes
  · intro trouble root files key value after e spare failed
    have outcome := FileTree.outcome_of_replaceAmid spare trouble (Storable.encode value)
    simp only [setAmid] at failed
    split at failed
    · cases failed
    · rename_i files' fault replaced
      rw [replaced] at outcome
      cases failed
      cases outcome with
      | failed kept =>
        rw [parentOf_file] at kept
        exact told_of_kept kept

/-- What is left of a vector for one key below a root. -/
def oneVector : FileTree where
  top := .folder "d" (.folder "t" (.file "x.vec" [1, 2, 3] .empty) .empty) .empty
  draws := 0

theorem outcome_of_trouble_torn :
    FileTree.Spare oneVector (file (α := Descriptor) ["d"] ⟨"t", "x"⟩) ∧
      (setAmid (α := Descriptor) (.atWriting 3) ⟨.folder ["d"], oneVector⟩ ⟨"t", "x"⟩
        [⟨0⟩]).2 = .error .io ∧
      (setAmid (α := Descriptor) (.atWriting 3) ⟨.folder ["d"], oneVector⟩ ⟨"t", "x"⟩
        [⟨0⟩]).1.get ⟨"t", "x"⟩ = .error .malformed := by
  have spare : FileTree.Spare oneVector (file (α := Descriptor) ["d"] ⟨"t", "x"⟩) := by
    have folders : oneVector.makeFolders (parentOf (file (α := Descriptor) ["d"] ⟨"t", "x"⟩)) =
        (oneVector, .ok ()) := by decide +kernel
    apply FileTree.spare_of_vacant folders
    intro place leads
    have there : oneVector.resolve
        (oneVector.temporary (file (α := Descriptor) ["d"] ⟨"t", "x"⟩)) =
          .ok ["d", "t", FileTree.temporaryName "x.vec" 0] := by decide +kernel
    cases there.symm.trans leads
    decide +kernel
  have failed : (setAmid (α := Descriptor) (.atWriting 3) ⟨.folder ["d"], oneVector⟩
      ⟨"t", "x"⟩ [⟨0⟩]).2 = .error .io := by decide +kernel
  have held : (Shelf.mk (α := Descriptor) (.folder ["d"]) oneVector).get ⟨"t", "x"⟩ =
      .error .malformed := by decide +kernel
  refine ⟨spare, failed, ?_⟩
  cases called : setAmid (α := Descriptor) (.atWriting 3) ⟨.folder ["d"], oneVector⟩
      ⟨"t", "x"⟩ [⟨0⟩] with
  | mk after answer =>
  rw [called] at failed
  cases failed
  cases outcome_of_trouble.2.2.2 _ _ _ _ _ _ _ spare called ⟨"t", "x"⟩ with
  | same get _ => rw [get, held]
  | refused missed =>
    rw [held] at missed
    cases missed
  | regained missed =>
    rw [held] at missed
    cases missed

/-- A key whose file has a name that is too long by one byte. -/
def longKey : Key := ⟨"t", String.ofList (List.replicate 252 'n')⟩

theorem longKey_long (files : FileTree) (fresh : files.draws = 0) :
    FileTree.canName (FileTree.temporaryName (fileName Descriptor longKey) files.draws) = false := by
  rw [fresh]
  decide +kernel

theorem longKey_follows : FileTree.canFollow (file (α := Descriptor) ["d"] longKey) = true := by
  refine FileTree.canFollow_append.mpr ⟨by decide +kernel, by decide +kernel, ?_⟩
  rw [List.forall_mem_cons, List.forall_mem_singleton]
  exact ⟨folderName_clean longKey, fileName_clean (α := Descriptor) longKey⟩

theorem read_longKey (files : FileTree) (leads : files.locate [] ["d", "t"] = .ok ["d", "t"]) :
    files.read (file (α := Descriptor) ["d"] longKey) =
      .error (FileTree.haltAt (files.mark? ["d", "t"])) := by
  have long : FileTree.canName (fileName Descriptor longKey) = false := by decide +kernel
  have parts : file (α := Descriptor) ["d"] longKey = ["d", "t"] ++ [fileName Descriptor longKey] := by
    have label : folderName longKey = "t" := by decide +kernel
    rw [file_eq, label]
    rfl
  exact FileTree.Ends.read_eq (.halted longKey_follows parts leads fun _ => long)

theorem not_same_of_failed :
    (¬ ∀ (root : Path) (files : FileTree) (key other : Key) (value : Descriptor)
      (after : Shelf Descriptor), FileTree.Spare files (file (α := Descriptor) root key) →
      set ⟨.folder root, files⟩ key value = (after, .error .io) →
      after.get other = get (α := Descriptor) ⟨.folder root, files⟩ other) ∧
    ¬ ∀ (root : Path) (files : FileTree) (key other : Key) (value : Descriptor)
      (after : Shelf Descriptor), FileTree.Spare files (file (α := Descriptor) root key) →
      set ⟨.folder root, files⟩ key value = (after, .error .io) →
      after.has other = has (α := Descriptor) ⟨.folder root, files⟩ other := by
  constructor
  · intro all
    have long := longKey_long ⟨.folder "d" .empty .empty, 0⟩ rfl
    have folders : FileTree.makeFolders ⟨.folder "d" .empty .empty, 0⟩
        (parentOf (file (α := Descriptor) ["d"] longKey)) =
          (⟨.folder "d" (.folder "t" .empty .empty) .empty, 0⟩, .ok ()) := by decide +kernel
    have same := all _ _ _ longKey _ _ (spare_of_long long) (set_of_long long folders [⟨0⟩])
    have before := get_of_absent (read_longKey ⟨.folder "d" .empty .empty, 0⟩ (by decide +kernel))
    have after := get_of_refused
      (read_longKey ⟨.folder "d" (.folder "t" .empty .empty) .empty, 1⟩ (by decide +kernel))
    have differ := before.symm.trans (same.symm.trans after)
    cases differ
  · intro all
    have long := longKey_long oneVector rfl
    have folders : oneVector.makeFolders
        (parentOf (file (α := Descriptor) ["gone", "..", "d"] longKey)) =
          (⟨.folder "gone" .empty oneVector.top, 0⟩, .ok ()) := by decide +kernel
    have same := all _ _ _ ⟨"t", "x"⟩ _ _ (spare_of_long long) (set_of_long long folders [⟨0⟩])
    revert same
    decide +kernel

end Retrieval.Shelf
