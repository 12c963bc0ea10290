import Retrieval.Text.Quoted

/-! Stored values are filed under a type label and an id; a key is also a handle to its value. -/
namespace Retrieval

/-- The place of a stored value: at most one value is filed under one key. -/
structure Key where
  label : String
  id : String
deriving DecidableEq, Inhabited

namespace Key

instance : Ord Key := ⟨compareLex (compareOn Key.label) (compareOn Key.id)⟩

instance : Std.TransOrd Key :=
  inferInstanceAs (Std.TransCmp (compareLex (compareOn Key.label) (compareOn Key.id)))

instance : Std.LawfulEqOrd Key where
  eq_of_compare {a b} same := by
    have parts : compareOn Key.label a b = .eq ∧ compareOn Key.id a b = .eq :=
      Ordering.then_eq_eq.1 same
    have labels : a.label = b.label := Std.LawfulEqOrd.eq_of_compare parts.1
    have ids : a.id = b.id := Std.LawfulEqOrd.eq_of_compare parts.2
    cases a; cases b; cases labels; cases ids; rfl

/-- A handle of the given kind, spelled out. -/
def describe (k : Key) (kind : String) : String :=
  kind ++ " \x7b type_label: " ++ Text.quote k.label ++ ", uuid: " ++ Text.quote k.id ++ " \x7d"

end Key
end Retrieval
