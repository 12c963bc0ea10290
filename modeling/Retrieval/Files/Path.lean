/-!
Paths as lists of names: what stands between the slashes of a text. A slash at either end, or two in
a row, leave an empty name. An empty name and a single dot name the folder they stand in, two dots
the one above.
-/
namespace Retrieval

abbrev Path := List String

/-- What stands between slashes. -/
def splitAtSlashes : List Char → List (List Char)
  | [] => [[]]
  | c :: rest =>
    if c = '/' then [] :: splitAtSlashes rest
    else
      match splitAtSlashes rest with
      | [] => [[c]]
      | name :: names => (c :: name) :: names

/-- The names in a path that is written out. -/
def pathOf (text : String) : Path := (splitAtSlashes text.toList).map String.ofList

/-- The path that a text means in a folder; one that begins with a slash starts at the top. -/
def pathWithin (folder : Path) (text : String) : Path :=
  if text.startsWith "/" then pathOf text else folder ++ pathOf text

/-- Whether a name stands for the folder that it is in. -/
def namesHere (name : String) : Bool := name = "" || name = "."

/-- A path without the names at its end that lead no further. -/
def trimEnd (path : Path) : Path := (path.reverse.dropWhile namesHere).reverse

/-- The folder that a path leads into before its last name; names that lead no further do not
count. -/
def parentOf (path : Path) : Path := trimEnd (trimEnd path).dropLast

/-- Whether two texts spell one path: both start at the top or both do not, and the names that lead
further are the same. A dot counts as well at the start of a path that does not start at the top. -/
def samePath (a b : String) : Bool :=
  let parts (text : String) : Bool × List String :=
    let top := text.startsWith "/"
    let names := (pathOf text).filter (!namesHere ·)
    (top, if !top && (pathOf text).head? = some "." then "." :: names else names)
  parts a = parts b

end Retrieval
