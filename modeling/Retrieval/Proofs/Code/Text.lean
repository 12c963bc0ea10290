import Retrieval.Code.Parse
import Retrieval.Proofs.Code.Packing
import Retrieval.Proofs.Traversal

/-!
The text of a code is read as that code, and no other text is (`Code.parse_ok_iff`); of other texts
the first character that is no digit is the error. Codes, lists of bits and texts of digits are told
from each other without loss (`Code.conversions_inverse`).
-/
namespace Retrieval.Code

theorem readBits_digits (bits : List Bool) :
    readBits (bits.map fun b => if b then '1' else '0') = .ok bits := by
  induction bits with
  | nil => rfl
  | cons b rest ih =>
    cases b with
    | false =>
      show (readBits (rest.map _)).map (false :: ·) = _
      rw [ih]
      rfl
    | true =>
      show (readBits (rest.map _)).map (true :: ·) = _
      rw [ih]
      rfl

@[simp] theorem ofText_text (c : Code) : ofText c.text = .ok c := by
  rw [ofText, text, String.toList_ofList, readBits_digits]
  exact congrArg Except.ok (ofBools_toBools c)

theorem utf8ByteSize_digits (bits : List Bool) :
    (String.ofList (bits.map fun b => if b then '1' else '0')).utf8ByteSize = bits.length := by
  induction bits with
  | nil => rfl
  | cons b rest ih =>
    have one : (if b then '1' else '0').utf8Size = 1 := by cases b <;> rfl
    rw [List.map_cons, String.ofList_cons, String.utf8ByteSize_append,
      String.utf8ByteSize_singleton, ih, one, List.length_cons, Nat.add_comm]

/-- The text of a code takes a byte for each bit. -/
@[simp] theorem utf8ByteSize_text (c : Code) : c.text.utf8ByteSize = c.length := by
  rw [text, utf8ByteSize_digits, length_toBools]

/-! What texts are read as -/

/-- Whether a character stands for a bit. -/
def IsDigit (x : Char) : Prop := x = '0' ∨ x = '1'

theorem readBits_digit {x : Char} (digit : IsDigit x) (rest : List Char) :
    readBits (x :: rest) = (readBits rest).map (decide (x = '1') :: ·) := by
  rcases digit with rfl | rfl <;> rfl

theorem readBits_other {x : Char} (other : ¬ IsDigit x) (rest : List Char) :
    readBits (x :: rest) = .error x := by
  rw [readBits]
  · rintro rfl
    exact other (.inl rfl)
  · rintro rfl
    exact other (.inr rfl)

/-- Bits are read from the digits that are written for them, and from nothing else. -/
theorem readBits_ok_iff {chars : List Char} {bits : List Bool} :
    readBits chars = .ok bits ↔ chars = bits.map fun b => if b then '1' else '0' := by
  refine ⟨fun done => ?_, fun spelled => spelled ▸ readBits_digits bits⟩
  induction chars generalizing bits with
  | nil =>
    cases done
    rfl
  | cons x rest ih =>
    by_cases digit : IsDigit x
    · rw [readBits_digit digit] at done
      obtain ⟨later, read, rfl⟩ := exists_of_map_ok done
      rw [ih read]
      rcases digit with rfl | rfl <;> rfl
    · rw [readBits_other digit] at done
      cases done

/-- The error is the first character that is no digit. -/
theorem readBits_error_iff {chars : List Char} {found : Char} :
    readBits chars = .error found ↔ ∃ front x back, chars = front ++ x :: back ∧
      (∀ y ∈ front, IsDigit y) ∧ ¬ IsDigit x ∧ x = found := by
  induction chars with
  | nil => simp [readBits]
  | cons x rest ih =>
    rw [exists_first_cons, ← ih]
    by_cases digit : IsDigit x
    · rw [readBits_digit digit]
      cases readBits rest <;> simp [Except.map, digit]
    · rw [readBits_other digit]
      simp [digit]

theorem ofText_ok_iff {s : String} {c : Code} : ofText s = .ok c ↔ c.text = s := by
  refine ⟨fun done => ?_, fun spelled => spelled ▸ ofText_text c⟩
  obtain ⟨bits, read, rfl⟩ := exists_of_map_ok done
  rw [text, toBools_ofBools, ← readBits_ok_iff.mp read, String.ofList_toList]

theorem ofText_error_iff {s : String} {found : Char} :
    ofText s = .error found ↔ ∃ front x back, s.toList = front ++ x :: back ∧
      (∀ y ∈ front, IsDigit y) ∧ ¬ IsDigit x ∧ x = found := by
  rw [← readBits_error_iff, ofText]
  cases readBits s.toList <;> simp [Except.map]

theorem parse_ok_iff {s : String} {c : Code} : parse s = .ok c ↔ c.text = s := by
  rw [parse, mapError_ok_iff, ofText_ok_iff]

theorem parse_error_iff {s : String} {e : Error} :
    parse s = .error e ↔ ∃ front x back, s.toList = front ++ x :: back ∧
      (∀ y ∈ front, IsDigit y) ∧ ¬ IsDigit x ∧ e = .invalidConfig (.notABit x) := by
  rw [parse, mapError_error_iff]
  simp only [ofText_error_iff]
  constructor
  · rintro ⟨found, ⟨front, x, back, split, digits, other, rfl⟩, same⟩
    exact ⟨front, x, back, split, digits, other, same⟩
  · rintro ⟨front, x, back, split, digits, other, same⟩
    exact ⟨x, ⟨front, x, back, split, digits, other, rfl⟩, same⟩

/-- The texts of codes are those that have no other characters than digits. -/
theorem exists_text_iff {s : String} : (∃ c : Code, c.text = s) ↔ ∀ x ∈ s.toList, IsDigit x := by
  constructor
  · rintro ⟨c, rfl⟩ x member
    rw [text, String.toList_ofList] at member
    obtain ⟨b, _, rfl⟩ := List.mem_map.mp member
    cases b with
    | false => exact .inl rfl
    | true => exact .inr rfl
  · intro digits
    cases read : readBits s.toList with
    | ok bits => exact ⟨ofBools bits, ofText_ok_iff.mp (by rw [ofText, read]; rfl)⟩
    | error found =>
      obtain ⟨front, x, back, split, _, other, _⟩ := readBits_error_iff.mp read
      exact absurd (digits x (by simp [split])) other

/-- As many bits are counted as are set, as far as 32 bits go. -/
theorem toNat_ones (c : Code) : c.ones.toNat = c.toBools.count true % 2 ^ 32 := by
  rw [ones, toNat_totalOnes, flatMap_wordBits_words, List.count_append]
  simp [List.count_replicate]

/-- Bits, codes and texts of digits are told from each other without loss: bits that are packed one
after the other are read back, and a code is that of its bits and the one read from its text. The
bits that are set are counted modulo `2 ^ 32`, so those of shorter codes to the last one. A text is
refused if it has another character than digits, and the error names the first of these. -/
theorem conversions_inverse :
    (∀ bits : List Bool, (ofBools bits).length = bits.length ∧ (ofBools bits).words = fill bits ∧
      (ofBools bits).toBools = bits ∧
      (ofBools bits).ones.toNat = bits.count true % 2 ^ 32 ∧
      (bits.length < 2 ^ 32 → (ofBools bits).ones.toNat = bits.count true)) ∧
    (∀ c : Code, c.toBools = (List.range c.length).map c.bit ∧ ofBools c.toBools = c ∧
      parse c.text = .ok c) ∧
    (∀ s : String, ((∃ c, parse s = .ok c) ↔ ∀ x ∈ s.toList, IsDigit x) ∧
      (∀ c, parse s = .ok c ↔ c.text = s) ∧
      ∀ e, parse s = .error e ↔ ∃ front x back, s.toList = front ++ x :: back ∧
        (∀ y ∈ front, IsDigit y) ∧ ¬ IsDigit x ∧ e = .invalidConfig (.notABit x)) ∧
    ∀ x, (Error.invalidConfig (.notABit x)).message = "invalid configuration: " ++
      ("hash code strings may only contain 0 and 1, found " ++ Text.quoteChar x) := by
  refine ⟨fun bits => ?_, fun c => ?_, fun s => ?_, fun x => rfl⟩
  · have counted : (ofBools bits).ones.toNat = bits.count true % 2 ^ 32 := by
      rw [toNat_ones, toBools_ofBools]
    refine ⟨rfl, (fill_eq bits).symm, toBools_ofBools bits, counted, fun short => ?_⟩
    have set_bits : bits.count true ≤ bits.length := List.count_le_length
    rw [counted, Nat.mod_eq_of_lt (by omega)]
  · exact ⟨toBools_eq c, ofBools_toBools c, parse_ok_iff.mpr rfl⟩
  · have read : (∃ c, parse s = .ok c) ↔ ∃ c : Code, c.text = s := by simp only [parse_ok_iff]
    exact ⟨read.trans exists_text_iff, fun _ => parse_ok_iff, fun _ => parse_error_iff⟩

/-- A code that fills a word and goes on for a bit. -/
theorem conversions_inverse_long :
    let bits := List.replicate 65 true
    bits.length < 2 ^ 32 ∧ (ofBools bits).ones.toNat = 65 ∧ (ofBools bits).toBools = bits := by
  intro bits
  obtain ⟨_, _, read, _, counted⟩ := conversions_inverse.1 bits
  have short : bits.length < 2 ^ 32 := by decide
  exact ⟨short, (counted short).trans List.count_replicate_self, read⟩

/-- A code of `2 ^ 32` set bits counts none. -/
theorem ones_wraps :
    ¬ ∀ bits : List Bool, (ofBools bits).ones.toNat = bits.count true := by
  intro counts
  have counted := counts (List.replicate (2 ^ 32) true)
  rw [toNat_ones, toBools_ofBools, List.count_replicate_self] at counted
  exact absurd counted (by decide)

end Retrieval.Code
