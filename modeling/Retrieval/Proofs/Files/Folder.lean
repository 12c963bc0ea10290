import Retrieval.Files.Folder

/-!
What a folder holds after a change to one name in it: the place of that name has changed, and no
other place below the folder has (`Folder.mark?_alter`).
-/
namespace Retrieval

/-- What is seen at a place without looking into a folder. -/
inductive Mark where
  | file (bytes : Bytes)
  | folder
deriving DecidableEq

namespace Node

def mark : Node → Mark
  | .file bytes => .file bytes
  | .folder _ => .folder

/-- What stands at a place below a file or folder. -/
def below : Node → Path → Option Node
  | .folder inner, place => inner.node? place
  | .file bytes, [] => some (.file bytes)
  | .file _, _ :: _ => none

@[simp] theorem below_nil (node : Node) : node.below [] = some node := by
  cases node <;> rfl

/-- There is something below a folder only. -/
theorem exists_folder_of_below {node found : Node} {name : String} {rest : Path}
    (stands : node.below (name :: rest) = some found) : ∃ inner, node = .folder inner := by
  cases node with
  | file bytes => cases stands
  | folder inner => exact ⟨inner, rfl⟩

end Node

/-- Nothing stands below what a name stands for. -/
def Bare (found : Option Node) : Prop :=
  ∀ name rest, found.bind (·.below (name :: rest)) = none

theorem bare_none : Bare none := fun _ _ => rfl

theorem bare_file (bytes : Bytes) : Bare (some (.file bytes)) := fun _ _ => rfl

namespace Folder

theorem find?_erase (name other : String) (f : Folder) :
    (f.erase name).find? other = if other = name then none else f.find? other := by
  induction f with
  | empty => exact (ite_self none).symm
  | file listed bytes rest ih =>
    by_cases same : listed = name
    · grind [erase, find?]
    · grind [erase, find?]
  | folder listed inner rest _ ih =>
    by_cases same : listed = name
    · grind [erase, find?]
    · grind [erase, find?]

theorem find?_insert (name other : String) (node : Node) (f : Folder) :
    (f.insert name node).find? other = if other = name then some node else f.find? other := by
  by_cases sought : other = name
  · subst sought
    rw [if_pos rfl]
    cases node <;> rw [insert, find?, if_pos rfl]
  · rw [if_neg sought]
    cases node <;> rw [insert, find?, if_neg (Ne.symm sought), find?_erase, if_neg sought]

/-! Places -/

theorem node?_cons (f : Folder) (name : String) (rest : Path) :
    f.node? (name :: rest) = (f.find? name).bind (·.below rest) := by
  rw [node?]
  cases found : f.find? name with
  | none => exact ite_self none
  | some node =>
    cases node with
    | folder inner => rfl
    | file bytes => cases rest <;> rfl

@[simp] theorem node?_empty (name : String) (rest : Path) : empty.node? (name :: rest) = none := by
  rw [node?_cons]
  rfl

theorem node?_append (f : Folder) (place rest : Path) :
    f.node? (place ++ rest) = (f.node? place).bind (·.below rest) := by
  induction place generalizing f with
  | nil => rfl
  | cons name place ih =>
    rw [List.cons_append, node?_cons, node?_cons]
    cases found : f.find? name with
    | none => rfl
    | some node =>
      cases node with
      | folder inner => exact ih inner
      | file bytes => cases place <;> rfl

def mark? (f : Folder) (place : Path) : Option Mark := (f.node? place).map Node.mark

/-- Where one name stands for something else, and nothing is below it in either folder, its place
alone is changed. -/
theorem mark?_of_find? {f g : Folder} {name : String} {found : Option Node}
    (changed : ∀ other, g.find? other = if other = name then found else f.find? other)
    (before : Bare (f.find? name)) (after : Bare found) (place : Path) :
    g.mark? place = if place = [name] then found.map Node.mark else f.mark? place := by
  cases place with
  | nil => rfl
  | cons next rest =>
    rw [mark?, mark?, node?_cons, node?_cons, changed]
    by_cases same : next = name
    · subst same
      rw [if_pos rfl]
      cases rest with
      | nil => simp
      | cons further rest => simp [before further rest, after further rest]
    · simp [same]

/-- A change to what one name in a folder stands for is a change to that place only, unless there is
something below it. -/
theorem mark?_alter {change : Folder → Folder} {f inner : Folder} {place : Path} {name : String}
    {found : Option Node} (stands : f.node? place = some (.folder inner))
    (changed : ∀ other, (change inner).find? other =
      if other = name then found else inner.find? other)
    (before : Bare (inner.find? name)) (after : Bare found) (other : Path) :
    (f.alter change place).mark? other =
      if other = place ++ [name] then found.map Node.mark else f.mark? other := by
  induction place generalizing f other with
  | nil =>
    cases stands
    exact mark?_of_find? changed before after other
  | cons first place ih =>
    rw [node?_cons] at stands
    obtain ⟨node, listed, beneath⟩ := Option.bind_eq_some_iff.mp stands
    have passed : ∃ deeper, node = .folder deeper := by
      cases place with
      | nil =>
        rw [Node.below_nil] at beneath
        exact ⟨inner, Option.some.inj beneath⟩
      | cons next rest => exact Node.exists_folder_of_below beneath
    obtain ⟨deeper, rfl⟩ := passed
    have altered : f.alter change (first :: place) =
        f.insert first (.folder (deeper.alter change place)) := by
      rw [alter, listed]
    rw [altered]
    cases other with
    | nil => rfl
    | cons next rest =>
      rw [mark?, mark?, node?_cons, node?_cons, find?_insert]
      by_cases same : next = first
      · subst same
        have inside := ih beneath rest
        rw [if_pos rfl, listed]
        simpa [mark?, Node.below] using inside
      · simp [same]

end Folder
end Retrieval
