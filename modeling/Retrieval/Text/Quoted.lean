import Retrieval.Text.Hidden

/-!
Quoted text: a character in single quotes or a string in double quotes, with a backslash before the
quote in use and before a backslash, short forms for the usual controls, and the code point in
braces for every other hidden character.
-/
namespace Retrieval.Text

private def codePoint (c : Char) : List Char :=
  ['\\', 'u', '\x7b'] ++ Nat.toDigits 16 c.toNat ++ ['\x7d']

/-- One character between quotes of the kind `delimiter`. -/
def spell (delimiter c : Char) : List Char :=
  if c = '\x00' then ['\\', '0']
  else if c = '\t' then ['\\', 't']
  else if c = '\r' then ['\\', 'r']
  else if c = '\n' then ['\\', 'n']
  else if c = '\\' ∨ c = delimiter then ['\\', c]
  else if isHidden c then codePoint c
  else [c]

def quoteChar (c : Char) : String := String.ofList ('\'' :: spell '\'' c ++ ['\''])

def quote (s : String) : String := String.ofList ('"' :: s.toList.flatMap (spell '"') ++ ['"'])

end Retrieval.Text
