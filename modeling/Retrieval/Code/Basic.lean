import Retrieval.Code.Word

/-!
Hash codes: bit strings of any length, packed into words. Shorter codes come first and codes of one
length follow their words, which is the lexical order of the bit strings because the first bit is on
top of the first word. Bits are counted in 32 bits, which is enough for codes of fewer than `2 ^ 32`
bits.
-/
namespace Retrieval

/-- A bit string of a fixed length, packed into 64-bit words with clear bits past the end. -/
structure Code where
  length : Nat
  words : List UInt64
  packed : ∃ bits : List Bool, bits.length = length ∧ packWords bits = words
deriving DecidableEq

namespace Code

/-- The code with the given bits, first bit first. -/
def ofBools (bits : List Bool) : Code := ⟨bits.length, packWords bits, bits, rfl, rfl⟩

def zeros (length : Nat) : Code := ofBools (List.replicate length false)

instance : Inhabited Code := ⟨zeros 0⟩

/-- The bits of a code, first bit first. -/
def toBools (c : Code) : List Bool := (c.words.flatMap wordBits).take c.length

/-- The bit at position `i`; positions past the end hold clear bits. -/
def bit (c : Code) (i : Nat) : Bool := (c.words.getD (i / 64) 0).toBitVec.getMsbD (i % 64)

/-- How many bits are set, modulo `2 ^ 32`. -/
def ones (c : Code) : UInt32 := totalOnes c.words

/-- How many bits differ over the words that both codes have, modulo `2 ^ 32`. -/
def hamming (a b : Code) : UInt32 := totalOnes (List.zipWith (· ^^^ ·) a.words b.words)

instance : Ord Code := ⟨compareLex (compareOn Code.length) (compareOn Code.words)⟩

instance : Std.TransOrd Code :=
  inferInstanceAs (Std.TransCmp (compareLex (compareOn Code.length) (compareOn Code.words)))

instance : Std.LawfulEqOrd Code where
  eq_of_compare {a b} same := by
    have parts : compareOn Code.length a b = .eq ∧ compareOn Code.words a b = .eq :=
      Ordering.then_eq_eq.1 same
    have lengths : a.length = b.length := Std.LawfulEqOrd.eq_of_compare parts.1
    have words : a.words = b.words := Std.LawfulEqOrd.eq_of_compare parts.2
    cases a; cases b; cases lengths; cases words; rfl

/-- The text of a code: one digit a bit. -/
def text (c : Code) : String := String.ofList (c.toBools.map fun b => if b then '1' else '0')

/-- The code marked as one. -/
def describe (c : Code) : String := "HashCode(" ++ c.text ++ ")"

/-- The bits that digits stand for, or the first other character. -/
def readBits : List Char → Except Char (List Bool)
  | [] => .ok []
  | '0' :: rest => (readBits rest).map (false :: ·)
  | '1' :: rest => (readBits rest).map (true :: ·)
  | other :: _ => .error other

/-- Reads a string of zeros and ones, or names the first other character. -/
def ofText (s : String) : Except Char Code := (readBits s.toList).map ofBools

@[simp] theorem toBools_ofBools (bits : List Bool) : (ofBools bits).toBools = bits :=
  take_flatMap_wordBits_packWords bits

/-- A packed code has the bits it was made of. -/
theorem bit_ofBools (bits : List Bool) (i : Nat) : (ofBools bits).bit i = bits.getD i false := by
  show ((packWords bits).getD (i / 64) 0).toBitVec.getMsbD (i % 64) = _
  have place := Nat.div_add_mod i 64
  have within := Nat.mod_lt i (y := 64) (by decide)
  by_cases packed : i / 64 < (bits.length + 63) / 64
  · have word : (packWords bits).getD (i / 64) 0 = packWord ((bits.drop (64 * (i / 64))).take 64) := by
      simp [packWords, packed]
    rw [word, getMsbD_packWord _ _ within]
    simp [List.getD_eq_getElem?_getD, within, place]
  · have word : (packWords bits).getD (i / 64) 0 = 0 := by
      simp [packWords, packed]
    have past : bits.length ≤ i := by omega
    rw [word]
    simp [List.getD_eq_getElem?_getD, past]

@[simp] theorem ofBools_toBools (c : Code) : ofBools c.toBools = c := by
  obtain ⟨length, words, bits, size, same⟩ := c
  subst size same
  exact congrArg ofBools (toBools_ofBools bits)

@[simp] theorem length_ofBools (bits : List Bool) : (ofBools bits).length = bits.length := rfl

@[simp] theorem length_toBools (c : Code) : c.toBools.length = c.length := by
  obtain ⟨length, words, bits, size, same⟩ := c
  subst size same
  exact congrArg List.length (toBools_ofBools bits)

theorem toBools_eq (c : Code) : c.toBools = (List.range c.length).map c.bit := by
  rw [← ofBools_toBools c]
  generalize c.toBools = bits
  rw [toBools_ofBools]
  refine List.ext_getElem (by simp) fun i inside _ => ?_
  simp [bit_ofBools, List.getD_eq_getElem?_getD, inside]

/-- A code differs from itself in no bit. -/
theorem hamming_self (c : Code) : c.hamming c = 0 := by
  have clear : wordOnes 0 = 0 := by decide
  rw [hamming]
  induction c.words with
  | nil => rfl
  | cons w rest ih => simpa [totalOnes, clear] using ih

end Code
end Retrieval
