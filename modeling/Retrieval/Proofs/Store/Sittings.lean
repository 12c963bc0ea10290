import Retrieval.Proofs.Store.Mirror

/-!
Calls of a store, one after the other. A store in files that started below an empty root answers any
calls as one in memory that started empty, however often it is opened again between the calls
(`Shelf.sittings_agree`), unless the files get in the way; where there is room for the names of the
keys they do not (`Shelf.sittings_done`).
-/
namespace Retrieval.Shelf
variable {α β γ : Type} [Storable α] {root place : Path} {files : FileTree}
  {held : SortedMap Key α} {key : Key}

/-- A store in files and one in memory that hold the same. -/
def InStep (root place : Path) (draws : Nat) (one two : Shelf α) : Prop :=
  ∃ files held others, one = ⟨.folder root, files⟩ ∧ two = ⟨.memory held, others⟩ ∧
    Mirrors root place files held ∧ files.draws ≤ draws

/-- After one call the two stores answer alike and hold the same, or the files got in the way of the
first one, for which there was not room for all names. -/
def Agree (root place : Path) (files : FileTree) (key : Key) (one two : Shelf α × Except Error β) :
    Prop :=
  (one.2 = two.2 ∧ InStep root place (files.draws + 1) one.1 two.1) ∨
    one.2 = .error .io ∧ ¬ (Fits α root key ∧ files.draws < 16 ^ 32)

namespace Mirrors
variable (m : Mirrors root place files held) (others : FileTree)
include m

theorem inStep : InStep root place (files.draws + 1) (Shelf.mk (.folder root) files)
    (Shelf.mk (.memory held) others) :=
  ⟨files, held, others, rfl, rfl, m, Nat.le_succ _⟩

/-- A call that changes nothing and answers alike. -/
theorem agree_of_eq {answer answer' : Except Error β} (same : answer = answer') :
    Agree root place files key (Shelf.mk (.folder root) files, answer)
      (Shelf.mk (.memory held) others, answer') :=
  .inl ⟨same, m.inStep others⟩

variable [HarmlessExtension α]

theorem get_agree (key : Key) :
    Agree root place files key (Shelf.mk (.folder root) files, Shelf.get ⟨.folder root, files⟩ key)
      (Shelf.mk (.memory held) others, Shelf.get ⟨.memory held, others⟩ key) := by
  rcases m.get others key with same | ⟨failed, tight⟩
  · exact m.agree_of_eq others same
  · exact .inr ⟨failed, fun roomy => tight roomy.1⟩

theorem computed_agree (key : Key) : Agree root place files key
    (Shelf.mk (.folder root) files, Shelf.computed ⟨.folder root, files⟩ key)
    (Shelf.mk (.memory held) others, Shelf.computed ⟨.memory held, others⟩ key) := by
  rcases m.get others key with same | ⟨failed, tight⟩
  · exact m.agree_of_eq others (by rw [Shelf.computed, Shelf.computed, same])
  · exact .inr ⟨by rw [Shelf.computed, failed], fun roomy => tight roomy.1⟩

theorem remove_agree (key : Key) :
    Agree root place files key (Shelf.remove ⟨.folder root, files⟩ key)
      (Shelf.remove ⟨.memory held, others⟩ key) := by
  simp only [Shelf.remove]
  cases here : held.get? key with
  | some value =>
    obtain ⟨removed, mirrors⟩ := m.cleared here
    rw [removed]
    refine .inl ⟨by simp [SortedMap.contains, here], ?_⟩
    exact ⟨_, _, others, rfl, rfl, mirrors, by rw [FileTree.clear_draws]; exact Nat.le_succ _⟩
  | none =>
    have erased : held.erase key = held := SortedMap.erase_of_missing here
    rcases m.remove_of_missing here with absent | ⟨refused, tight⟩
    · rw [absent, erased]
      exact m.agree_of_eq others (by simp [SortedMap.contains, here])
    · rw [refused]
      exact .inr ⟨rfl, fun roomy => tight roomy.1⟩

theorem set_agree (key : Key) {value : α}
    (decoded : Storable.decode (Storable.encode value) = some value) :
    Agree root place files key (Shelf.set ⟨.folder root, files⟩ key value)
      (Shelf.set ⟨.memory held, others⟩ key value) := by
  simp only [Shelf.set]
  by_cases taken : files.Takes (file (α := α) root key)
  · obtain ⟨after, replaced, draws, mirrors⟩ := m.filed taken decoded
    rw [replaced]
    exact .inl ⟨rfl, after, _, others, rfl, rfl, mirrors, draws.le⟩
  · refine .inr ⟨?_, fun roomy => taken (m.takes roomy.1 roomy.2)⟩
    have refused :
        (files.replace (file (α := α) root key) (Storable.encode value)).2 ≠ .ok () :=
      fun done => taken (FileTree.replace_ok_iff.mp done)
    split
    · rename_i done
      rw [done] at refused
      exact absurd rfl refused
    · rfl

end Mirrors

theorem Agree.map {δ : Type} {one two : Shelf α × Except Error β}
    (agree : Agree root place files key one two) (f : β → δ) :
    Agree root place files key (one.1, one.2.map f) (two.1, two.2.map f) := by
  rcases agree with ⟨same, step⟩ | ⟨failed, tight⟩
  · exact .inl ⟨by rw [same], step⟩
  · exact .inr ⟨by rw [failed]; rfl, tight⟩

/-! Runs -/

/-- Serve calls one after the other. -/
def serveAll (serve : Shelf α → γ → Shelf α × Except Error β) :
    Shelf α → List γ → Shelf α × List (Except Error β)
  | s, [] => (s, [])
  | s, call :: rest =>
    let served := serve s call
    let later := serveAll serve served.1 rest
    (later.1, served.2 :: later.2)

/-- Serve calls in sittings: before each the store is opened again. -/
def sittings (serve : Shelf α → γ → Shelf α × Except Error β) (root : Path) :
    FileTree → List (List γ) → List (Except Error β)
  | _, [] => []
  | files, calls :: rest =>
    match openFolder files root with
    | (_, .error e) => [.error e]
    | (files, .ok store) =>
      let sat := serveAll serve ⟨store, files⟩ calls
      sat.2 ++ sittings serve root sat.1.files rest

/-- The root can be opened, and then it leads to a folder that has nothing in it. -/
def StartsEmpty (files : FileTree) (root : Path) : Prop :=
  ∃ made place, files.makeFolders root = (made, .ok ()) ∧ made.resolve root = .ok place ∧
    made.node? place = some (.folder .empty)

/-- A root that is not there yet is made. -/
theorem empty_startsEmpty : StartsEmpty .empty ["data"] :=
  ⟨(FileTree.empty.makeFolders ["data"]).1, ["data"], by decide +kernel, by decide +kernel,
    by decide +kernel⟩

/-- A call that is served alike by every two stores that hold the same. -/
def Parallel (serve : Shelf α → γ → Shelf α × Except Error β) (key : γ → Key) (call : γ) : Prop :=
  ∀ {root place files held} others, Mirrors root place files held →
    Agree root place files (key call) (serve ⟨.folder root, files⟩ call)
      (serve ⟨.memory held, others⟩ call)

variable {serve : Shelf α → γ → Shelf α × Except Error β} {keyOf : γ → Key}

variable (α) in
/-- There is room for the names of so many calls. -/
structure Roomy (root : Path) (keyOf : γ → Key) (draws : Nat) (calls : List γ) : Prop where
  fits : ∀ call ∈ calls, Fits α root (keyOf call)
  few : draws + calls.length ≤ 16 ^ 32

instance {draws : Nat} {calls : List γ} : Decidable (Roomy α root keyOf draws calls) :=
  decidable_of_iff ((∀ call ∈ calls, Fits α root (keyOf call)) ∧ draws + calls.length ≤ 16 ^ 32)
    ⟨fun h => ⟨h.1, h.2⟩, fun h => ⟨h.fits, h.few⟩⟩

namespace Roomy
variable {draws draws' : Nat} {call : γ} {calls rest : List γ}

theorem first (roomy : Roomy α root keyOf draws (call :: rest)) :
    Fits α root (keyOf call) ∧ draws < 16 ^ 32 := by
  have few := roomy.few
  rw [List.length_cons] at few
  exact ⟨(List.forall_mem_cons.mp roomy.fits).1, by omega⟩

theorem front (roomy : Roomy α root keyOf draws (calls ++ rest)) :
    Roomy α root keyOf draws calls := by
  have few := roomy.few
  rw [List.length_append] at few
  exact ⟨(List.forall_mem_append.mp roomy.fits).1, by omega⟩

theorem back (roomy : Roomy α root keyOf draws (calls ++ rest))
    (drawn : draws' ≤ draws + calls.length) : Roomy α root keyOf draws' rest := by
  have few := roomy.few
  rw [List.length_append] at few
  exact ⟨(List.forall_mem_append.mp roomy.fits).2, by omega⟩

end Roomy

theorem serveAll_agree {calls : List γ} (parallel : ∀ call ∈ calls, Parallel serve keyOf call)
    (m : Mirrors root place files held) (others : FileTree) :
    ((serveAll serve ⟨.folder root, files⟩ calls).2 =
        (serveAll serve ⟨.memory held, others⟩ calls).2 ∧
      InStep root place (files.draws + calls.length) (serveAll serve ⟨.folder root, files⟩ calls).1
        (serveAll serve ⟨.memory held, others⟩ calls).1) ∨
    .error .io ∈ (serveAll serve ⟨.folder root, files⟩ calls).2 ∧
      ¬ Roomy α root keyOf files.draws calls := by
  induction calls generalizing files held others with
  | nil => exact .inl ⟨rfl, files, held, others, rfl, rfl, m, Nat.le_refl _⟩
  | cons call rest ih =>
    obtain ⟨now, later⟩ := List.forall_mem_cons.mp parallel
    simp only [serveAll]
    rcases now others m with ⟨same, files', held', others', one, two, m', draws⟩ | ⟨failed, tight⟩
    swap
    · exact .inr ⟨List.mem_cons.mpr (.inl failed.symm), fun roomy => tight roomy.first⟩
    rw [one, two]
    rcases ih later m' others' with
      ⟨sameRest, files'', held'', others'', one', two', m'', draws'⟩ | ⟨failed, tight⟩
    · refine .inl ⟨by rw [same, sameRest], files'', held'', others'', one', two', m'', ?_⟩
      rw [List.length_cons]
      omega
    · refine .inr ⟨List.mem_cons_of_mem _ failed, fun roomy => tight ?_⟩
      have split : Roomy α root keyOf files.draws ([call] ++ rest) := roomy
      exact split.back draws

omit [Storable α] in
theorem serveAll_append (serve : Shelf α → γ → Shelf α × Except Error β) (s : Shelf α)
    (calls rest : List γ) : serveAll serve s (calls ++ rest) =
      ((serveAll serve (serveAll serve s calls).1 rest).1,
        (serveAll serve s calls).2 ++ (serveAll serve (serveAll serve s calls).1 rest).2) := by
  induction calls generalizing s with
  | nil => rfl
  | cons call calls ih => simp only [List.cons_append, serveAll, ih]

/-- A folder without files holds what an empty map does. -/
theorem mirrors_empty (leads : files.resolve root = .ok place)
    (vacant : files.node? place = some (.folder .empty)) :
    Mirrors root place files (SortedMap.empty : SortedMap Key α) := by
  have top : files.top.node? place = some (.folder .empty) := vacant
  have nothing (name : String) (rest : Path) : files.mark? (place ++ name :: rest) = none := by
    rw [FileTree.mark?, Folder.mark?, Folder.node?_append, top, Option.bind_some, Node.below,
      Folder.node?_empty]
    rfl
  constructor
  · exact leads
  · exact FileTree.mark?_eq_folder.mpr ⟨_, vacant⟩
  · exact fun key => .inl (nothing _ _)
  · intro folder name stands
    rw [nothing] at stands
    cases stands
  · exact fun key => nothing _ _
  · intro key value found
    cases found
  · intro key value found
    cases found

theorem openFolder_of_mirrors (m : Mirrors root place files held) :
    openFolder (α := α) files root = (files, .ok (.folder root)) := by
  rw [openFolder, FileTree.makeFolders_of_resolve m.leads m.within]

/-- However the calls are split into sittings, they are answered as in memory. -/
theorem sittings_of_mirrors {sat : List (List γ)}
    (parallel : ∀ call ∈ sat.flatten, Parallel serve keyOf call)
    (m : Mirrors root place files held) (others : FileTree) :
    sittings serve root files sat = (serveAll serve ⟨.memory held, others⟩ sat.flatten).2 ∨
    .error .io ∈ sittings serve root files sat ∧
      ¬ Roomy α root keyOf files.draws sat.flatten := by
  induction sat generalizing files held others with
  | nil => exact .inl rfl
  | cons calls rest ih =>
    rw [List.flatten_cons] at parallel
    obtain ⟨now, later⟩ := List.forall_mem_append.mp parallel
    simp only [sittings, openFolder_of_mirrors m, List.flatten_cons, serveAll_append]
    rcases serveAll_agree now m others with
      ⟨same, files', held', others', one, two, m', draws⟩ | ⟨failed, tight⟩
    swap
    · exact .inr ⟨List.mem_append_left _ failed, fun roomy => tight roomy.front⟩
    rw [one, two, same]
    rcases ih later m' others' with sameRest | ⟨failed, tight⟩
    · exact .inl (by rw [sameRest])
    · exact .inr ⟨List.mem_append_right _ failed, fun roomy => tight (roomy.back draws)⟩

/-- A store that started below an empty root answers as one in memory that started empty, if no call
is refused by the file system or there is room for the names. -/
theorem sittings_of_empty {sat : List (List γ)}
    (parallel : ∀ call ∈ sat.flatten, Parallel serve keyOf call) (empty : StartsEmpty files root)
    (clear : .error .io ∉ sittings serve root files sat ∨
      Roomy α root keyOf files.draws sat.flatten) :
    sittings serve root files sat = (serveAll serve ⟨.memory .empty, .empty⟩ sat.flatten).2 := by
  obtain ⟨made, place, done, leads, vacant⟩ := empty
  have m : Mirrors root place made (SortedMap.empty : SortedMap Key α) := mirrors_empty leads vacant
  have opened : sittings serve root files sat = sittings serve root made sat := by
    cases sat with
    | nil => rfl
    | cons calls rest => rw [sittings, sittings, openFolder_of_mirrors m, openFolder, done]
  have draws : made.draws = files.draws := by
    have made_draws := files.makeFolders_draws root
    rwa [done] at made_draws
  rw [opened] at clear ⊢
  rcases sittings_of_mirrors parallel m .empty with same | ⟨failed, tight⟩
  · exact same
  · rcases clear with unfailing | roomy
    · exact absurd failed unfailing
    · rw [draws] at tight
      exact absurd roomy tight

end Retrieval.Shelf
