import Retrieval.Json.Basic

/-!
Reading JSON text. The reader checks the grammar, escapes included; whether a number is in range and
a string is made of whole characters is left to whoever uses the value.
-/
namespace Retrieval.Json

/-- The four characters that may stand between tokens. -/
def isBlank (c : Char) : Bool := c = ' ' || c = '\n' || c = '\r' || c = '\t'

def skipBlank (cs : List Char) : List Char := cs.dropWhile isBlank

/-- Put characters back in front of what was split off. -/
def consAll (front : List Char) :
    Option (List Char × List Char) → Option (List Char × List Char) :=
  Option.map fun parts => (front ++ parts.1, parts.2)

/-- Split the text after an opening quote at the closing one. -/
def scanString : List Char → Option (List Char × List Char)
  | [] => none
  | '"' :: rest => some ([], rest)
  | '\\' :: 'u' :: a :: b :: c :: d :: rest =>
    if [a, b, c, d].all (fun digit => (hexValue? digit).isSome) then
      consAll ['\\', 'u', a, b, c, d] (scanString rest)
    else none
  | '\\' :: c :: rest =>
    if c ∈ ['"', '\\', '/', 'b', 'f', 'n', 'r', 't'] then consAll ['\\', c] (scanString rest)
    else none
  | c :: rest => if c.toNat < 0x20 then none else consAll [c] (scanString rest)

/-- Split off the digits at the front. -/
def spanDigits (cs : List Char) : List Char × List Char := cs.span Char.isDigit

/-- Split off a whole part: one or more digits, and no zero before others. -/
def scanWhole (cs : List Char) : Option (List Char × List Char) :=
  match spanDigits cs with
  | ([], _) => none
  | ('0' :: _ :: _, _) => none
  | parts => some parts

/-- Split off a fraction if there is one. -/
def scanFraction : List Char → Option (List Char × List Char)
  | '.' :: rest =>
    match spanDigits rest with
    | ([], _) => none
    | (digits, rest) => some ('.' :: digits, rest)
  | rest => some ([], rest)

/-- Split off an exponent if there is one. -/
def scanExponent : List Char → Option (List Char × List Char)
  | e :: rest =>
    if e = 'e' ∨ e = 'E' then
      let parts := match rest with
        | '+' :: rest => ([e, '+'], rest)
        | '-' :: rest => ([e, '-'], rest)
        | rest => ([e], rest)
      match spanDigits parts.2 with
      | ([], _) => none
      | (digits, rest) => some (parts.1 ++ digits, rest)
    else some ([], e :: rest)
  | [] => some ([], [])

/-- Split off a number: a sign, a whole part without needless zeros, a fraction, an exponent. -/
def scanNumber (cs : List Char) : Option (List Char × List Char) := do
  let (sign, cs) := match cs with
    | '-' :: rest => (['-'], rest)
    | cs => ([], cs)
  let (whole, cs) ← scanWhole cs
  let (fraction, cs) ← scanFraction cs
  let (exponent, cs) ← scanExponent cs
  return (sign ++ whole ++ fraction ++ exponent, cs)

mutual

/-- Read one value and answer what follows it. Each token costs at most two units of fuel. -/
def readValue : Nat → List Char → Option (Json × List Char)
  | 0, _ => none
  | fuel + 1, cs =>
    match skipBlank cs with
    | 'n' :: 'u' :: 'l' :: 'l' :: rest => some (.null, rest)
    | 't' :: 'r' :: 'u' :: 'e' :: rest => some (.bool true, rest)
    | 'f' :: 'a' :: 'l' :: 's' :: 'e' :: rest => some (.bool false, rest)
    | '"' :: rest => (scanString rest).map fun parts => (.string parts.1, parts.2)
    | '[' :: rest =>
      match skipBlank rest with
      | ']' :: rest => some (.array [], rest)
      | rest => (readItems fuel rest).map fun parts => (.array parts.1, parts.2)
    | '\x7b' :: rest =>
      match skipBlank rest with
      | '\x7d' :: rest => some (.object [], rest)
      | rest => (readMembers fuel rest).map fun parts => (.object parts.1, parts.2)
    | rest => (scanNumber rest).map fun parts => (.number parts.1, parts.2)

/-- Read one or more items up to the closing bracket. -/
def readItems : Nat → List Char → Option (List Json × List Char)
  | 0, _ => none
  | fuel + 1, cs =>
    match readValue fuel cs with
    | none => none
    | some (item, rest) =>
      match skipBlank rest with
      | ']' :: rest => some ([item], rest)
      | ',' :: rest => (readItems fuel rest).map fun parts => (item :: parts.1, parts.2)
      | _ => none

/-- Read one or more members up to the closing brace. -/
def readMembers : Nat → List Char → Option (List (List Char × Json) × List Char)
  | 0, _ => none
  | fuel + 1, cs =>
    match skipBlank cs with
    | '"' :: rest =>
      match scanString rest with
      | none => none
      | some (name, rest) =>
        match skipBlank rest with
        | ':' :: rest =>
          match readValue fuel rest with
          | none => none
          | some (value, rest) =>
            match skipBlank rest with
            | '\x7d' :: rest => some ([(name, value)], rest)
            | ',' :: rest =>
              (readMembers fuel rest).map fun parts => ((name, value) :: parts.1, parts.2)
            | _ => none
        | _ => none
    | _ => none

end

/-- The one value that the text holds, with nothing but blanks around it. -/
def parse? (text : List Char) : Option Json :=
  match readValue (2 * text.length + 2) text with
  | some (value, rest) => if (skipBlank rest).isEmpty then some value else none
  | none => none

end Retrieval.Json
