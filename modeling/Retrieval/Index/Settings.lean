import Retrieval.CodeIndex.Basic

/-! What an index is told when it is set up. -/
namespace Retrieval

/-- A query for `n` neighbours compares at least `n * overfetch` candidates if there are as many. -/
structure IndexSettings where
  search : CodeSearch
  overfetch : Nat
deriving DecidableEq

namespace IndexSettings

instance : Inhabited IndexSettings := ⟨default, 8⟩

def validate (s : IndexSettings) : Except Error Unit :=
  if s.overfetch = 0 then .error (.invalidConfig .overfetchZero)
  else if s.search = .ballTree 0 then .error (.invalidConfig .leafSizeZero)
  else .ok ()

private def searchText : CodeSearch → String
  | .ballTree leafSize => "BallTree \x7b leaf_size: " ++ toString leafSize ++ " \x7d"
  | .linear => "Linear"

def describe (s : IndexSettings) : String :=
  "NnIndexConfig \x7b hash_index: " ++ searchText s.search ++ ", overfetch_factor: " ++
    toString s.overfetch ++ " \x7d"

end IndexSettings
end Retrieval
