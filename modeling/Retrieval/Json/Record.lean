import Retrieval.Json.Number

/-!
How documents spell values of a known type. A record is an object, or an array of its fields in
order; members that it does not know are passed over unread, and a field given twice is refused. A
choice names its kind, and its whole text is read before the kind is looked at.
-/
namespace Retrieval.Json

def string? : Json → Option String
  | .string raw => (unescape raw).map String.ofList
  | _ => none

def bool? : Json → Option Bool
  | .bool value => some value
  | _ => none

/-- Null stands for no value. -/
def optional {α : Type} (read : Json → Option α) : Json → Option (Option α)
  | .null => some none
  | value => (read value).map some

def listOf {α : Type} (read : Json → Option α) : Json → Option (List α)
  | .array items => items.mapM read
  | _ => none

/-- The members of an object with their names read. -/
def members? : Json → Option (List (String × Json))
  | .object members => members.mapM fun member =>
      (unescape member.1).map fun name => (String.ofList name, member.2)
  | _ => none

/-- The values of the members called `name`. -/
def valuesOf (name : String) (members : List (String × Json)) : List Json :=
  members.filterMap fun member => if member.1 = name then some member.2 else none

/-- The one value called `name`, if any; a name that is given twice is refused. -/
def lookUp (members : List (String × Json)) (name : String) : Option (Option Json) :=
  match valuesOf name members with
  | [] => some none
  | [value] => some (some value)
  | _ => none

/-- The fields of a record in the order of `names`; a field that is not given is `none`. An array
may stop early. -/
def fields? (names : List String) : Json → Option (List (Option Json))
  | .array items =>
    if items.length ≤ names.length then
      some (items.map some ++ List.replicate (names.length - items.length) none)
    else none
  | value => value.members?.bind fun members => names.mapM (lookUp members)

/-- The fields of a record whose array form has to give all of them. -/
def allFields? (names : List String) : Json → Option (List (Option Json))
  | .array items => if items.length = names.length then some (items.map some) else none
  | value => value.fields? names

/-- Read a field that is given, or take its default. -/
def orDefault {α : Type} (default : α) (read : Json → Option α) : Option Json → Option α
  | none => some default
  | some value => read value

mutual

/-- Whether containers nest at most `depth` deep and every string and number stands for a value; a
number whose digits all fit does, without a point or an exponent. -/
def readable (depth : Nat) : Json → Bool
  | .null => true
  | .bool _ => true
  | .number literal =>
    let parts := NumberParts.ofLiteral literal
    parts.exact || parts.double?.isSome
  | .string raw => (unescape raw).isSome
  | .array items => depth != 0 && readableItems (depth - 1) items
  | .object members => depth != 0 && readableMembers (depth - 1) members

def readableItems (depth : Nat) : List Json → Bool
  | [] => true
  | item :: rest => item.readable depth && readableItems depth rest

def readableMembers (depth : Nat) : List (List Char × Json) → Bool
  | [] => true
  | (name, value) :: rest =>
    (unescape name).isSome && value.readable depth && readableMembers depth rest

end

/-- The kind that a choice names, and the rest of its text: an object with one member `kind`, or an
array whose first item is the kind. `depth` bounds the nesting of the whole. -/
def kind? (depth : Nat) (value : Json) : Option (String × Json) :=
  if value.readable depth then
    match value with
    | .array (kind :: rest) => kind.string?.map (·, .array rest)
    | .object members => do
      let named ← value.members?
      let [kind] := valuesOf "kind" named | none
      return (← kind.string?, .object (members.filter fun member =>
        (unescape member.1).map String.ofList ≠ some "kind"))
    | _ => none
  else none

/-- Whether the rest of a choice suits a kind without fields. -/
def hasNoFields : Json → Bool
  | .array items => items.isEmpty
  | _ => true

/-- A bare name, also spelled as an object whose one member has that name and is null. -/
def name? : Json → Option String
  | .object [(name, .null)] => (unescape name).map String.ofList
  | value => value.string?

end Retrieval.Json
