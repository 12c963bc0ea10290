import Retrieval.Files.Escape
import Retrieval.Proofs.Binary.Wire

/-!
Escaped names. Different texts have different names (`escapeName_injective`), and every name is made
of letters, digits and three other signs of ASCII, so it is one name of a path and not a dot or two.
-/
namespace Retrieval

/-- The characters that names are made of. -/
def isHarmless (c : Char) : Bool := c.isAlphanum || c = '-' || c = '_' || c = '%'

/-- Such a character is one of ASCII and not the null character. -/
theorem isHarmless_small {c : Char} (harmless : isHarmless c = true) : 0 < c.val ∧ c.val < 128 := by
  delta isHarmless Char.isAlphanum Char.isAlpha Char.isUpper Char.isLower Char.isDigit at harmless
  simp only [Bool.or_eq_true, Bool.and_eq_true, decide_eq_true_eq] at harmless
  rcases harmless with ((((⟨low, high⟩ | ⟨low, high⟩) | ⟨low, high⟩) | rfl) | rfl) | rfl
  · constructor <;> grind
  · constructor <;> grind
  · constructor <;> grind
  all_goals decide

theorem isHarmless_ne_null {c : Char} (harmless : isHarmless c = true) : c ≠ '\x00' := by
  rintro rfl
  cases harmless

theorem utf8ByteSize_of_harmless {cs : List Char} (harmless : ∀ c ∈ cs, isHarmless c = true) :
    (String.ofList cs).utf8ByteSize = cs.length := by
  induction cs with
  | nil => rfl
  | cons c cs ih =>
    obtain ⟨first, rest⟩ := List.forall_mem_cons.mp harmless
    have one : c.utf8Size = 1 :=
      Char.utf8Size_eq_one_iff.mpr (by have := (isHarmless_small first).2; grind)
    rw [String.ofList_cons, String.utf8ByteSize_append, String.utf8ByteSize_singleton, ih rest, one,
      List.length_cons, Nat.add_comm]

theorem plainByte_char : ∀ n < 256, isPlainByte (UInt8.ofNat n) = true →
    isHarmless (Char.ofNat n) = true ∧ (Char.ofNat n).toNat = n ∧ Char.ofNat n ≠ '%' := by
  decide +kernel

theorem upperDigit_harmless : ∀ n < 16, isHarmless (upperDigit n) = true := by decide

theorem upperDigit_injective : ∀ m < 16, ∀ n < 16, upperDigit m = upperDigit n → m = n := by decide

/-- The characters of a byte are one that stands for itself, or a percent sign and two digits. -/
theorem escapeByte_cases (b : UInt8) :
    (isHarmless (Char.ofNat b.toNat) = true ∧ (Char.ofNat b.toNat).toNat = b.toNat ∧
        Char.ofNat b.toNat ≠ '%' ∧ escapeByte b = [Char.ofNat b.toNat]) ∨
      escapeByte b = ['%', upperDigit (b.toNat / 16), upperDigit (b.toNat % 16)] := by
  unfold escapeByte
  split
  · rename_i plain
    have known := plainByte_char b.toNat b.toNat_lt
    rw [UInt8.ofNat_toNat] at known
    obtain ⟨harmless, number, other⟩ := known plain
    exact .inl ⟨harmless, number, other, rfl⟩
  · exact .inr rfl

theorem escapeByte_harmless {b : UInt8} {c : Char} (member : c ∈ escapeByte b) :
    isHarmless c = true := by
  have small := b.toNat_lt
  rcases escapeByte_cases b with ⟨harmless, _, _, spelled⟩ | spelled
  · rw [spelled, List.mem_singleton] at member
    rwa [member]
  · rw [spelled] at member
    simp only [List.mem_cons, List.not_mem_nil, or_false] at member
    rcases member with rfl | rfl | rfl
    · rfl
    · exact upperDigit_harmless _ (by omega)
    · exact upperDigit_harmless _ (by omega)

/-- The characters of a byte tell the byte, and where they end. -/
theorem escapeByte_append_inj {a b : UInt8} {front back : List Char}
    (same : escapeByte a ++ front = escapeByte b ++ back) : a = b ∧ front = back := by
  have small := a.toNat_lt
  have small' := b.toNat_lt
  rcases escapeByte_cases a with ⟨_, number, other, spelled⟩ | spelled <;>
    rcases escapeByte_cases b with ⟨_, number', other', spelled'⟩ | spelled' <;>
    rw [spelled, spelled'] at same
  · obtain ⟨char, rest⟩ := List.cons.inj same
    refine ⟨UInt8.toNat_inj.mp ?_, rest⟩
    rw [← number, ← number', char]
  · exact absurd (List.cons.inj same).1 other
  · exact absurd (List.cons.inj same).1.symm other'
  · simp only [List.cons_append, List.nil_append, List.cons.injEq, true_and] at same
    obtain ⟨high, low, rest⟩ := same
    have high := upperDigit_injective _ (by omega) _ (by omega) high
    have low := upperDigit_injective _ (by omega) _ (by omega) low
    exact ⟨UInt8.toNat_inj.mp (by omega), rest⟩

theorem escapeByte_ne_nil (b : UInt8) : escapeByte b ≠ [] := by
  rcases escapeByte_cases b with ⟨_, _, _, spelled⟩ | spelled <;> rw [spelled] <;> simp

theorem flatMap_escapeByte_injective {a b : Bytes}
    (same : a.flatMap escapeByte = b.flatMap escapeByte) : a = b := by
  induction a generalizing b with
  | nil =>
    cases b with
    | nil => rfl
    | cons byte rest =>
      rw [List.flatMap_cons] at same
      exact absurd (List.append_eq_nil_iff.mp same.symm).1 (escapeByte_ne_nil byte)
  | cons byte rest ih =>
    cases b with
    | nil =>
      rw [List.flatMap_cons] at same
      exact absurd (List.append_eq_nil_iff.mp same).1 (escapeByte_ne_nil byte)
    | cons byte' rest' =>
      obtain ⟨rfl, later⟩ := escapeByte_append_inj same
      rw [ih later]

/-- No bytes are written as a bare percent sign. -/
theorem flatMap_escapeByte_ne_percent (bytes : Bytes) : bytes.flatMap escapeByte ≠ ['%'] := by
  cases bytes with
  | nil => simp
  | cons byte rest =>
    rw [List.flatMap_cons]
    rcases escapeByte_cases byte with ⟨_, _, other, spelled⟩ | spelled
    · rw [spelled]
      intro same
      exact other (List.cons.inj same).1
    · rw [spelled]
      simp

theorem textBytes_injective {s t : String} (same : textBytes s = textBytes t) : s = t := by
  have back := congrArg ofTextBytes? same
  rw [ofTextBytes?_textBytes, ofTextBytes?_textBytes] at back
  exact Option.some.inj back

theorem toList_escapeName (s : String) :
    (escapeName s).toList = if s = "" then ['%'] else (textBytes s).flatMap escapeByte := by
  rw [escapeName]
  by_cases empty : s = ""
  · subst empty
    rfl
  · rw [if_neg empty, if_neg (by simpa [String.isEmpty_iff] using empty), String.toList_ofList]

/-- Different texts have different names. -/
theorem escapeName_injective {s t : String} (same : escapeName s = escapeName t) : s = t := by
  have chars := congrArg String.toList same
  rw [toList_escapeName, toList_escapeName] at chars
  by_cases left : s = ""
  · by_cases right : t = ""
    · rw [left, right]
    · rw [if_pos left, if_neg right] at chars
      exact absurd chars.symm (flatMap_escapeByte_ne_percent _)
  · by_cases right : t = ""
    · rw [if_neg left, if_pos right] at chars
      exact absurd chars (flatMap_escapeByte_ne_percent _)
    · rw [if_neg left, if_neg right] at chars
      exact textBytes_injective (flatMap_escapeByte_injective chars)

theorem escapeName_harmless {s : String} {c : Char} (member : c ∈ (escapeName s).toList) :
    isHarmless c = true := by
  rw [toList_escapeName] at member
  split at member
  · rw [List.mem_singleton.mp member]
    rfl
  · obtain ⟨byte, _, spelled⟩ := List.mem_flatMap.mp member
    exact escapeByte_harmless spelled

theorem escapeName_ne_nil (s : String) : (escapeName s).toList ≠ [] := by
  rw [toList_escapeName]
  split
  · simp
  · rename_i some_char
    intro none
    apply some_char
    apply textBytes_injective
    exact flatMap_escapeByte_injective (none.trans rfl)

/-- No name begins with a dot. -/
theorem exists_first_escapeName (s : String) :
    ∃ c rest, (escapeName s).toList = c :: rest ∧ c ≠ '.' := by
  obtain ⟨c, rest, spelled⟩ := List.exists_cons_of_ne_nil (escapeName_ne_nil s)
  refine ⟨c, rest, spelled, ?_⟩
  rintro rfl
  have harmless := escapeName_harmless (s := s) (c := '.') (by simp [spelled])
  cases harmless

end Retrieval
