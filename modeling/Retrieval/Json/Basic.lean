/-!
JSON documents as trees of tokens. Strings and numbers stay as they are written, so that a reader
can pass over a part it does not use without judging it.
-/
namespace Retrieval

/-- A JSON value; `raw` is the text between the quotes of a string or of a member's name. -/
inductive Json where
  | null
  | bool (value : Bool)
  | number (literal : List Char)
  | string (raw : List Char)
  | array (items : List Json)
  | object (members : List (List Char × Json))

namespace Json

instance : Inhabited Json := ⟨.null⟩

/-- The lower-case digit for the last four bits. -/
def hexDigit (n : Nat) : Char := (Nat.toDigits 16 (n % 16)).headD '0'

/-- The written form of a character in a string. -/
def escapeChar (c : Char) : List Char :=
  if c = '"' ∨ c = '\\' then ['\\', c]
  else if c = '\x08' then ['\\', 'b']
  else if c = '\x0c' then ['\\', 'f']
  else if c = '\n' then ['\\', 'n']
  else if c = '\r' then ['\\', 'r']
  else if c = '\t' then ['\\', 't']
  else if c.toNat < 0x20 then
    ['\\', 'u', '0', '0', hexDigit (c.toNat / 16), hexDigit c.toNat]
  else [c]

/-- The written form of a string: quotes, backslashes and controls are escaped. -/
def escape (text : List Char) : List Char := text.flatMap escapeChar

/-- The value of a hexadecimal digit of either case. -/
def hexValue? (c : Char) : Option Nat :=
  if '0' ≤ c ∧ c ≤ '9' then some (c.toNat - '0'.toNat)
  else if 'a' ≤ c ∧ c ≤ 'f' then some (c.toNat - 'a'.toNat + 10)
  else if 'A' ≤ c ∧ c ≤ 'F' then some (c.toNat - 'A'.toNat + 10)
  else none

/-- The value of four hexadecimal digits. -/
def hexQuad? (a b c d : Char) : Option Nat := do
  return (((← hexValue? a) * 16 + (← hexValue? b)) * 16 + (← hexValue? c)) * 16 + (← hexValue? d)

/-- The character that stands behind a backslash and one letter. -/
def shortEscape? : Char → Option Char
  | '"' => some '"'
  | '\\' => some '\\'
  | '/' => some '/'
  | 'b' => some '\x08'
  | 'f' => some '\x0c'
  | 'n' => some '\n'
  | 'r' => some '\r'
  | 't' => some '\t'
  | _ => none

/-- The string that a written form stands for; a surrogate without its partner stands for none. -/
def unescape : List Char → Option (List Char)
  | [] => some []
  | '\\' :: 'u' :: a :: b :: c :: d :: rest =>
    match hexQuad? a b c d with
    | none => none
    | some high =>
      if high < 0xd800 ∨ 0xdfff < high then (unescape rest).map (Char.ofNat high :: ·)
      else if 0xdc00 ≤ high then none
      else
        match rest with
        | '\\' :: 'u' :: a :: b :: c :: d :: rest =>
          match hexQuad? a b c d with
          | none => none
          | some low =>
            if 0xdc00 ≤ low ∧ low ≤ 0xdfff then
              (unescape rest).map
                (Char.ofNat (0x10000 + (high - 0xd800) * 0x400 + (low - 0xdc00)) :: ·)
            else none
        | _ => none
  | '\\' :: c :: rest =>
    match shortEscape? c with
    | none => none
    | some c => (unescape rest).map (c :: ·)
  | ['\\'] => none
  | c :: rest => (unescape rest).map (c :: ·)

def ofString (s : String) : Json := .string (escape s.toList)

def ofNat (n : Nat) : Json := .number (toString n).toList

/-- An object with its members in the order given. -/
def ofMembers (members : List (String × Json)) : Json :=
  .object (members.map fun member => (escape member.1.toList, member.2))

end Json
end Retrieval
