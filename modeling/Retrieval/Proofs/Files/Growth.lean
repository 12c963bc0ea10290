import Mathlib.Data.List.Induction
import Retrieval.Proofs.Files.Making

/-!
Folders that come into a tree along a path, and what is read in the tree then. Making folders
changes nothing else (`FileTree.makeFolders_kept`). What could be read or was refused before is so
still (`FileTree.read_of_settled`). Where nothing was found, nothing is found still, unless a name
is too long for the new folder that it is now looked for in, or the path used to go up from a folder
that was missing (`FileTree.read_of_steady`).
-/
namespace Retrieval.FileTree
variable {t between after : FileTree} {way path front folder place q : Path} {name : String}
  {fault : FileFault}

/-! New folders -/

/-- The place that a path leads to if nothing is in its way. -/
def placeOf (path : Path) : Path := path.foldl step []

theorem placeOf_concat (path : Path) (name : String) :
    placeOf (path ++ [name]) = step (placeOf path) name := by
  rw [placeOf, List.foldl_append, placeOf]
  rfl

/-- A folder stands where nothing stood, at a place that the front of a path leads to. -/
structure NewAt (t after : FileTree) (way place : Path) : Prop where
  vacant : t.mark? place = none
  stands : after.mark? place = some .folder
  along : ∃ front, front <+: way ∧ placeOf front = place

/-- A place is as it was, but for a new folder along a path. -/
def KeptAt (t after : FileTree) (way place : Path) : Prop :=
  after.mark? place = t.mark? place ∨ NewAt t after way place

theorem NewAt.mono (new : NewAt t after front q) (part : front <+: way) : NewAt t after way q := by
  obtain ⟨vacant, stands, shorter, part', leads⟩ := new
  exact ⟨vacant, stands, shorter, part'.trans part, leads⟩

namespace KeptAt

theorem mono (kept : KeptAt t after front q) (part : front <+: way) : KeptAt t after way q :=
  kept.imp_right fun new => new.mono part

theorem trans (first : KeptAt t between way q) (later : KeptAt between after way q) :
    KeptAt t after way q := by
  rcases first with same | ⟨vacant, stood, along⟩
  · rcases later with same' | ⟨vacant, stands, along⟩
    · exact .inl (same'.trans same)
    · exact .inr ⟨same.symm.trans vacant, stands, along⟩
  · rcases later with same' | ⟨vacant', _⟩
    · exact .inr ⟨vacant, same'.trans stood, along⟩
    · rw [stood] at vacant'
      cases vacant'

/-- Where something stood, it stands still. -/
theorem of_old (kept : KeptAt t after way q) (old : t.mark? q ≠ none) :
    after.mark? q = t.mark? q := by
  rcases kept with same | new
  · exact same
  · exact absurd new.vacant old

/-- A file was there before. -/
theorem of_file (kept : KeptAt t after way q) {bytes : Bytes}
    (here : after.mark? q = some (.file bytes)) : t.mark? q = some (.file bytes) := by
  rcases kept with same | new
  · exact same.symm.trans here
  · rw [new.stands] at here
    cases here

end KeptAt

theorem keeps_of_kept (kept : ∀ q, KeptAt t after way q) : t.Keeps after := by
  intro q stands
  rw [(kept q).of_old (by rw [stands]; nofun), stands]

theorem addFolders_kept (front rest : Path)
    (stands : t.mark? (placeOf front) = some .folder) (q : Path) :
    KeptAt t (t.addFolders (placeOf front) rest).1 (front ++ rest) q := by
  induction rest generalizing t front with
  | nil => exact .inl rfl
  | cons name rest ih =>
    have onward := placeOf_concat front name
    have later {t : FileTree} (stands : t.mark? (step (placeOf front) name) = some .folder) :
        KeptAt t (t.addFolders (step (placeOf front) name) rest).1 (front ++ name :: rest) q := by
      have kept := ih (front ++ [name]) (by rwa [onward])
      rwa [onward, List.append_assoc] at kept
    unfold addFolders
    dsimp only
    split
    · rename_i inner there
      exact later (mark?_eq_folder.mpr ⟨inner, there⟩)
    · exact .inl rfl
    · rename_i missing
      have vacant : t.mark? (step (placeOf front) name) = none := Option.map_eq_none_iff.mpr missing
      split
      · rename_i named
        have opened := open_of_vacant stands named vacant
        have first : KeptAt t (t.put (step (placeOf front) name) (.folder .empty))
            (front ++ name :: rest) q := by
          by_cases same : q = step (placeOf front) name
          · subst same
            refine .inr ⟨vacant, ?_, front ++ [name], ?_, onward⟩
            · rw [opened.mark?_putFolder, if_pos rfl]
            · exact ⟨rest, by simp⟩
          · exact .inl (by rw [opened.mark?_putFolder, if_neg same])
        exact first.trans (later (by rw [opened.mark?_putFolder, if_pos rfl]))
      · exact .inl rfl

theorem makeFolders_kept (t : FileTree) (path q : Path) :
    KeptAt t (t.makeFolders path).1 path q := by
  have along (path : Path) : KeptAt t (t.addFolders [] path).1 path q :=
    addFolders_kept [] path t.top_folder q
  have parent := (along (parentOf path)).mono (parentOf_front path)
  unfold makeFolders
  split
  · split
    · split
      · rename_i failed
        rwa [failed] at parent
      · rename_i added
        rwa [added] at parent
    · exact along path
  · exact .inl rfl

/-! Reading -/

/-- Why a path cannot be followed on from what is seen at a place. -/
def haltAt : Option Mark → FileFault
  | none => .absent
  | some _ => .refused

/-- What is read at a place. -/
def answerOf : Option Mark → Except FileFault Bytes
  | none => .error .absent
  | some (.file bytes) => .ok bytes
  | some .folder => .error .refused

/-- How reading under a path ends: it may not be followed at all, it cannot be followed past some
place, or it leads to a place. -/
inductive Ends (t : FileTree) (path : Path) : Except FileFault Bytes → Prop where
  | unfollowed (long : canFollow path = false) : Ends t path (.error .refused)
  | halted {front rest place : Path} {name : String} (follows : canFollow path = true)
      (parts : path = front ++ name :: rest) (leads : t.locate [] front = .ok place)
      (halts : t.mark? place = some .folder → canName name = false) :
      Ends t path (.error (haltAt (t.mark? place)))
  | arrived {place : Path} (leads : t.resolve path = .ok place) :
      Ends t path (answerOf (t.mark? place))

theorem locate_name (t : FileTree) (folder : Path) (name : String) (rest : Path) :
    t.locate folder (name :: rest) =
      if t.mark? folder = some .folder ∧ canName name = true then t.locate (step folder name) rest
      else .error (haltAt (t.mark? folder)) := by
  have seen : t.mark? folder = (t.node? folder).map Node.mark := rfl
  rw [locate, seen]
  cases found : t.node? folder with
  | none => simp [haltAt]
  | some node =>
    cases node with
    | file bytes => simp [haltAt, Node.mark]
    | folder inner => simp [haltAt, Node.mark]

theorem exists_halt (failed : t.locate folder path = .error fault) :
    ∃ front rest name place, path = front ++ name :: rest ∧ t.locate folder front = .ok place ∧
      (t.mark? place = some .folder → canName name = false) ∧ fault = haltAt (t.mark? place) := by
  induction path generalizing folder with
  | nil => cases failed
  | cons name rest ih =>
    rw [locate_name] at failed
    split at failed
    · rename_i passes
      obtain ⟨front, rest, next, place, rfl, leads, halts⟩ := ih failed
      exact ⟨name :: front, rest, next, place, rfl, (locate_cons ..).mpr ⟨passes.1, passes.2, leads⟩,
        halts⟩
    · rename_i halts
      refine ⟨[], rest, name, folder, rfl, rfl, ?_, (Except.error.inj failed).symm⟩
      intro stands
      exact Bool.eq_false_iff.mpr fun named => halts ⟨stands, named⟩

theorem read_of_arrived (leads : t.resolve path = .ok place) :
    t.read path = answerOf (t.mark? place) := by
  rw [read, leads]
  show _ = answerOf ((t.node? place).map _)
  simp only [bind, Except.bind]
  cases t.node? place with
  | none => rfl
  | some node => cases node <;> rfl

theorem ends_read (t : FileTree) (path : Path) : t.Ends path (t.read path) := by
  cases resolved : t.resolve path with
  | ok place =>
    rw [read_of_arrived resolved]
    exact .arrived resolved
  | error fault =>
    rw [read_of_fault resolved]
    rw [resolve] at resolved
    split at resolved
    · rename_i follows
      obtain ⟨front, rest, name, place, parts, leads, halts, rfl⟩ := exists_halt resolved
      exact .halted follows parts leads halts
    · rename_i long
      cases resolved
      exact .unfollowed (Bool.eq_false_iff.mpr long)

theorem Ends.read_eq {answer : Except FileFault Bytes} (ends : t.Ends path answer) :
    t.read path = answer := by
  cases ends with
  | unfollowed long =>
    apply read_of_fault
    rw [resolve, long]
    rfl
  | @halted front rest place name follows parts leads halts =>
    apply read_of_fault
    rw [resolve, if_pos follows, parts, locate_append, leads]
    show t.locate place (name :: rest) = _
    rw [locate_name, if_neg]
    rintro ⟨stands, named⟩
    rw [halts stands] at named
    cases named
  | arrived leads => exact read_of_arrived leads

theorem locate_ok (located : t.locate folder path = .ok place) : path.foldl step folder = place := by
  induction path generalizing folder with
  | nil => exact Except.ok.inj located
  | cons name rest ih =>
    obtain ⟨_, _, later⟩ := (locate_cons ..).mp located
    exact ih later

/-- A path that goes up to the folder above does so from a place that it leads to. -/
def Steady (t : FileTree) (path : Path) : Prop :=
  ∀ front, front ++ [".."] <+: path → ∃ place, t.locate [] (front ++ [".."]) = .ok place

theorem Steady.concat (steady : t.Steady path) (leads : leadsOn name = true) :
    t.Steady (path ++ [name]) := by
  intro front part
  rcases List.prefix_concat_iff.mp part with same | shorter
  · obtain ⟨_, last⟩ := List.append_inj' same rfl
    cases last
    cases leads
  · exact steady front shorter

section
variable (kept : ∀ q, KeptAt t after way q)
include kept

theorem read_of_settled (settled : t.read path ≠ .error .absent) :
    after.read path = t.read path := by
  have keeps := keeps_of_kept kept
  have ends := t.ends_read path
  generalize t.read path = answer at ends settled
  apply Ends.read_eq
  cases ends with
  | unfollowed long => exact .unfollowed long
  | @halted front rest place name follows parts leads halts =>
    have old : t.mark? place ≠ none := fun vacant => settled (by rw [vacant]; rfl)
    rw [← (kept place).of_old old] at halts ⊢
    exact .halted follows parts (locate_keeps keeps leads) halts
  | @arrived place leads =>
    have old : t.mark? place ≠ none := fun vacant => settled (by rw [vacant]; rfl)
    rw [← (kept place).of_old old]
    exact .arrived (resolve_keeps keeps leads)

/-- Where a path leads to something old, it led there before. -/
theorem locate_back (steady : t.Steady path) (part : front <+: path)
    (leads : after.locate [] front = .ok place) (old : t.mark? place ≠ none) :
    t.locate [] front = .ok place := by
  have keeps := keeps_of_kept kept
  -- Backwards along the path: what is old stands in an old folder.
  induction front using List.reverseRecOn generalizing place with
  | nil => exact leads
  | append_singleton front name ih =>
    by_cases up : name = ".."
    · subst up
      obtain ⟨above, led⟩ := steady front part
      cases (locate_keeps keeps led).symm.trans leads
      exact led
    · have split := leads
      rw [locate_append] at split
      obtain ⟨before, first, last⟩ := exists_of_bind_ok split
      obtain ⟨stands, named, here⟩ := (locate_cons ..).mp last
      have passed : t.mark? before ≠ none := by
        cases here
        rw [step, if_neg up] at old
        split at old
        · exact old
        · obtain ⟨mark, there⟩ := Option.ne_none_iff_exists'.mp old
          rw [mark?_front there]
          exact Option.some_ne_none _
      have led := ih ((List.prefix_append ..).trans part) first passed
      rw [locate_append, led]
      refine (locate_cons ..).mpr ⟨?_, named, here⟩
      rw [← (kept before).of_old passed, stands]

/-- Where nothing was found, nothing is found still, unless a new folder stands there or a name is
too long for one. -/
theorem read_of_steady (steady : t.Steady path) :
    after.read path = t.read path ∨
      t.read path = .error .absent ∧ after.read path = .error .refused ∧
        (NewAt t after way (placeOf path) ∨ ∃ front name, front ++ [name] <+: path ∧
          canName name = false ∧ NewAt t after way (placeOf front)) := by
  by_cases settled : t.read path = .error .absent
  swap
  · exact .inl (read_of_settled kept settled)
  -- The two ends can only differ where there is a new folder now.
  have ends := after.ends_read path
  generalize after.read path = answer at ends
  cases ends with
  | unfollowed long =>
    rw [(Ends.unfollowed long).read_eq]
    exact .inl rfl
  | @halted front rest place name follows parts leads halts =>
    have part : front <+: path := ⟨_, parts.symm⟩
    rcases kept place with same | new
    · rw [same] at halts ⊢
      by_cases vacant : t.mark? place = none
      · rw [vacant, settled]
        exact .inl rfl
      · have led := locate_back kept steady part leads vacant
        rw [(Ends.halted follows parts led halts).read_eq]
        exact .inl rfl
    · rw [new.stands]
      refine .inr ⟨settled, rfl, .inr ⟨front, name, ⟨rest, ?_⟩, halts new.stands, ?_⟩⟩
      · rw [parts, List.append_assoc, List.singleton_append]
      · rwa [placeOf, locate_ok leads]
  | @arrived place leads =>
    obtain ⟨follows, located⟩ := resolve_ok_iff.mp leads
    rcases kept place with same | new
    · rw [same]
      by_cases vacant : t.mark? place = none
      · rw [vacant, settled]
        exact .inl rfl
      · have led := locate_back kept steady (List.prefix_refl path) located vacant
        rw [read_of_arrived (resolve_ok_iff.mpr ⟨follows, led⟩)]
        exact .inl rfl
    · rw [new.stands]
      refine .inr ⟨settled, rfl, .inl ?_⟩
      rwa [placeOf, locate_ok located]

end

/-- Behind a folder that is missing a steady path only leads on below it. -/
theorem placeOf_front {rest : Path} (steady : t.Steady (front ++ rest))
    (vacant : t.mark? (placeOf front) = none) : placeOf front <+: placeOf (front ++ rest) := by
  induction rest using List.reverseRecOn with
  | nil => simp
  | append_singleton rest name ih =>
    rw [← List.append_assoc] at steady ⊢
    have before := ih fun shorter part => steady shorter (part.trans (List.prefix_append ..))
    rw [placeOf_concat, step]
    split
    · rename_i up
      subst up
      -- The path led on behind the front, so there was a folder.
      obtain ⟨above, led⟩ := steady (front ++ rest) (List.prefix_refl _)
      rw [List.append_assoc, locate_append] at led
      obtain ⟨passed, first, later⟩ := exists_of_bind_ok led
      cases locate_ok first
      have stands : t.mark? (placeOf front) = some .folder := by
        cases rest with
        | nil => exact ((locate_cons ..).mp later).1
        | cons next rest => exact ((locate_cons ..).mp later).1
      rw [vacant] at stands
      cases stands
    · split
      · exact before
      · exact before.trans (List.prefix_append ..)

end Retrieval.FileTree
