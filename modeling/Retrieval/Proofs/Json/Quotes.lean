import Retrieval.Json.Reader
import Retrieval.Json.Record

/-!
Strings between quotes. Whatever characters a string has, its written form ends at the closing quote
and stands for the string.
-/
namespace Retrieval.Json

theorem hexValue?_hexDigit (n : Nat) : hexValue? (hexDigit n) = some (n % 16) := by
  have digits : ∀ d < 16, hexValue? ((Nat.toDigits 16 d).headD '0') = some d := by decide
  exact digits (n % 16) (Nat.mod_lt n (by decide))

/-- A control is written with four digits, two of which are zero. -/
theorem hexQuad?_control {c : Char} (control : c.toNat < 0x20) :
    hexQuad? '0' '0' (hexDigit (c.toNat / 16)) (hexDigit c.toNat) = some c.toNat := by
  have zero : hexValue? '0' = some 0 := by decide
  rw [hexQuad?, zero, hexValue?_hexDigit, hexValue?_hexDigit]
  show some (((0 * 16 + 0) * 16 + c.toNat / 16 % 16) * 16 + c.toNat % 16) = _
  congr 1
  omega

/-- A character is written behind a backslash, as the digits of its number, or as it is. -/
inductive Written (c : Char) : List Char → Prop
  | short {letter : Char} (stands : shortEscape? letter = some c) : Written c ['\\', letter]
  | digits (control : c.toNat < 0x20) :
    Written c ['\\', 'u', '0', '0', hexDigit (c.toNat / 16), hexDigit c.toNat]
  | plain (quote : c ≠ '"') (backslash : c ≠ '\\') (visible : 0x20 ≤ c.toNat) : Written c [c]

theorem escapeChar_written (c : Char) : Written c (escapeChar c) := by
  unfold escapeChar
  split
  · rename_i special
    rcases special with rfl | rfl
    · exact .short rfl
    · exact .short rfl
  rename_i ordinary
  obtain ⟨quote, backslash⟩ := not_or.mp ordinary
  -- Five controls have letters.
  iterate 5
    split
    · subst c
      exact .short rfl
  split
  · rename_i control
    exact .digits control
  · rename_i visible
    exact .plain quote backslash (Nat.le_of_not_lt visible)

/-- The letters that may stand behind a backslash. -/
theorem letter_of_shortEscape? {letter c : Char} (stands : shortEscape? letter = some c) :
    letter ∈ ['"', '\\', '/', 'b', 'f', 'n', 'r', 't'] := by
  unfold shortEscape? at stands
  split at stands <;> simp at stands ⊢

theorem scanString_written {c : Char} {text : List Char} (written : Written c text)
    (rest : List Char) : scanString (text ++ rest) = consAll text (scanString rest) := by
  cases written with
  | @short letter stands =>
    have allowed := letter_of_shortEscape? stands
    have direct : letter ≠ 'u' := by
      rintro rfl
      cases stands
    show scanString ('\\' :: letter :: rest) = _
    rw [scanString, if_pos allowed]
    intro a b c d rest' same
    exact absurd same direct
  | digits control =>
    have quad : ['0', '0', hexDigit (c.toNat / 16), hexDigit c.toNat].all
        (fun digit => (hexValue? digit).isSome) = true := by
      have zero : (hexValue? '0').isSome = true := by decide
      simp only [List.all_cons, List.all_nil, zero, hexValue?_hexDigit, Option.isSome_some,
        Bool.and_self]
    show scanString ('\\' :: 'u' :: '0' :: '0' :: _ :: _ :: rest) = _
    rw [scanString, if_pos quad]
  | plain quote backslash visible =>
    show scanString (c :: rest) = _
    rw [scanString, if_neg (Nat.not_lt.mpr visible)]
    · exact quote
    · intro _ _ _ _ _ same
      exact absurd same backslash
    · intro _ _ same
      exact absurd same backslash

theorem unescape_written {c : Char} {text : List Char} (written : Written c text)
    (rest : List Char) : unescape (text ++ rest) = (unescape rest).map (c :: ·) := by
  cases written with
  | @short letter stands =>
    have direct : letter ≠ 'u' := by
      rintro rfl
      cases stands
    show unescape ('\\' :: letter :: rest) = _
    rw [unescape, stands]
    intro a b c d rest' same
    exact absurd same direct
  | digits control =>
    show unescape ('\\' :: 'u' :: '0' :: '0' :: _ :: _ :: rest) = _
    have low : c.toNat < 0xd800 := Nat.lt_trans control (by decide)
    simp only [unescape, hexQuad?_control control, low, true_or, if_true, Char.ofNat_toNat]
  | plain quote backslash visible =>
    show unescape (c :: rest) = _
    rw [unescape]
    · intro _ _ _ _ _ same
      exact absurd same backslash
    · intro _ _ same
      exact absurd same backslash
    · intro same
      exact absurd same backslash

/-- The written form of a string stands for the string. -/
@[simp] theorem unescape_escape (text : List Char) : unescape (escape text) = some text := by
  induction text with
  | nil => rfl
  | cons c rest ih =>
    show unescape (escapeChar c ++ escape rest) = _
    rw [unescape_written (escapeChar_written c), ih]
    rfl

/-- A text can be quoted if it ends at the first quote behind it. -/
def Quotable (raw : List Char) : Prop :=
  ∀ rest, scanString (raw ++ '"' :: rest) = some (raw, rest)

theorem escape_quotable (text : List Char) : Quotable (escape text) := by
  intro rest
  induction text with
  | nil => rfl
  | cons c others ih =>
    show scanString (escapeChar c ++ escape others ++ '"' :: rest) = _
    rw [List.append_assoc, scanString_written (escapeChar_written c), ih]
    rfl

@[simp] theorem string?_ofString (s : String) : (ofString s).string? = some s := by
  rw [ofString, string?, unescape_escape]
  exact congrArg some String.ofList_toList

/-- Items are read one by one, whatever each is read as. -/
theorem mapM_map {α β γ : Type} {read : β → Option γ} {write : α → β} {seen : α → γ}
    {items : List α} (each : ∀ item ∈ items, read (write item) = some (seen item)) :
    (items.map write).mapM read = some (items.map seen) := by
  induction items with
  | nil => rfl
  | cons item rest ih =>
    obtain ⟨first, later⟩ := List.forall_mem_cons.mp each
    rw [List.map_cons, List.mapM_cons, first, ih later]
    rfl

/-- A list is read back if each of its items is. -/
theorem mapM_map_some {α β : Type} {read : β → Option α} {write : α → β} {items : List α}
    (each : ∀ item ∈ items, read (write item) = some item) :
    (items.map write).mapM read = some items := by
  rw [mapM_map each, List.map_id']

/-- The members of an object are read as they were given. -/
@[simp] theorem members?_ofMembers (members : List (String × Json)) :
    (ofMembers members).members? = some members := by
  rw [ofMembers, members?]
  apply mapM_map_some
  intro member _
  rw [unescape_escape, Option.map_some, String.ofList_toList]

theorem listOf_array {α : Type} {read : Json → Option α} {write : α → Json} {items : List α}
    (each : ∀ item ∈ items, read (write item) = some item) :
    (Json.array (items.map write)).listOf read = some items := mapM_map_some each

end Retrieval.Json
