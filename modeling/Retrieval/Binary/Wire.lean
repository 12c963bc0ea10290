/-!
The binary form of values: words with the least byte first, and texts and sequences behind a 64-bit
count. A reader takes what it needs from the front of the bytes and answers the rest.
-/
namespace Retrieval

abbrev Bytes := List UInt8

abbrev Reader (α : Type) := Bytes → Option (α × Bytes)

/-- The `width` low bytes of a number, least first. -/
def wordBytes : (width n : Nat) → Bytes
  | 0, _ => []
  | width + 1, n => UInt8.ofNat (n % 256) :: wordBytes width (n / 256)

/-- Read a number of `width` bytes. -/
def readWord : (width : Nat) → Reader Nat
  | 0, bytes => some (0, bytes)
  | _ + 1, [] => none
  | width + 1, byte :: rest =>
    (readWord width rest).map fun parts => (byte.toNat + 256 * parts.1, parts.2)

/-- A count takes eight bytes. -/
def countBytes (n : Nat) : Bytes := wordBytes 8 n

def readCount : Reader Nat := readWord 8

/-- The bytes that a text is stored in. -/
def textBytes (s : String) : Bytes := s.toUTF8.data.toList

/-- The text that bytes store, if they are well formed. -/
def ofTextBytes? (bytes : Bytes) : Option String := String.fromUTF8? ⟨bytes.toArray⟩

/-- A text behind the number of its bytes. -/
def putText (s : String) : Bytes := countBytes (textBytes s).length ++ textBytes s

def readText : Reader String := fun bytes =>
  match readCount bytes with
  | none => none
  | some (size, rest) =>
    if size ≤ rest.length then (ofTextBytes? (rest.take size)).map (·, rest.drop size) else none

/-- The items of a list behind their number. -/
def putList {α : Type} (put : α → Bytes) (items : List α) : Bytes :=
  countBytes items.length ++ items.flatMap put

/-- Read a number of items one after the other. -/
def readMany {α : Type} (read : Reader α) : Nat → Reader (List α)
  | 0, bytes => some ([], bytes)
  | count + 1, bytes =>
    match read bytes with
    | none => none
    | some (item, rest) => (readMany read count rest).map fun parts => (item :: parts.1, parts.2)

def readList {α : Type} (read : Reader α) : Reader (List α) := fun bytes =>
  match readCount bytes with
  | none => none
  | some (count, rest) => readMany read count rest

end Retrieval
