import Retrieval.Json.Basic

/-! Writing JSON text, on one line or indented by two blanks a level. -/
namespace Retrieval.Json

/-- The text of a string that is written as `raw`. -/
def quoted (raw : List Char) : List Char := '"' :: raw ++ ['"']

mutual

/-- The text on one line, without blanks. -/
def compact : Json → List Char
  | .null => ['n', 'u', 'l', 'l']
  | .bool true => ['t', 'r', 'u', 'e']
  | .bool false => ['f', 'a', 'l', 's', 'e']
  | .number literal => literal
  | .string raw => quoted raw
  | .array items => '[' :: compactItems items
  | .object members => '\x7b' :: compactMembers members

/-- Items with commas between them and the closing bracket. -/
def compactItems : List Json → List Char
  | [] => [']']
  | [item] => item.compact ++ [']']
  | item :: next :: rest => item.compact ++ ',' :: compactItems (next :: rest)

/-- Members with commas between them and the closing brace. -/
def compactMembers : List (List Char × Json) → List Char
  | [] => ['\x7d']
  | [(name, value)] => quoted name ++ ':' :: value.compact ++ ['\x7d']
  | (name, value) :: next :: rest =>
    quoted name ++ ':' :: value.compact ++ ',' :: compactMembers (next :: rest)

end

/-- A line break and the blanks of a level. -/
def newLine (level : Nat) : List Char := '\n' :: List.replicate (2 * level) ' '

mutual

/-- The text with each item and member on a line of its own. -/
def prettyAt (level : Nat) : Json → List Char
  | .array [] => ['[', ']']
  | .array (item :: rest) => '[' :: prettyItems (level + 1) (item :: rest)
  | .object [] => ['\x7b', '\x7d']
  | .object (member :: rest) => '\x7b' :: prettyMembers (level + 1) (member :: rest)
  | .null => ['n', 'u', 'l', 'l']
  | .bool true => ['t', 'r', 'u', 'e']
  | .bool false => ['f', 'a', 'l', 's', 'e']
  | .number literal => literal
  | .string raw => quoted raw

/-- Items one below the other, and the closing bracket one level out. -/
def prettyItems (level : Nat) : List Json → List Char
  | [] => newLine (level - 1) ++ [']']
  | [item] => newLine level ++ item.prettyAt level ++ newLine (level - 1) ++ [']']
  | item :: next :: rest =>
    newLine level ++ item.prettyAt level ++ ',' :: prettyItems level (next :: rest)

/-- Members one below the other, and the closing brace one level out. -/
def prettyMembers (level : Nat) : List (List Char × Json) → List Char
  | [] => newLine (level - 1) ++ ['\x7d']
  | [(name, value)] =>
    newLine level ++ quoted name ++ ':' :: ' ' :: value.prettyAt level ++ newLine (level - 1) ++
      ['\x7d']
  | (name, value) :: next :: rest =>
    newLine level ++ quoted name ++ ':' :: ' ' :: value.prettyAt level ++
      ',' :: prettyMembers level (next :: rest)

end

def pretty (j : Json) : List Char := j.prettyAt 0

end Retrieval.Json
