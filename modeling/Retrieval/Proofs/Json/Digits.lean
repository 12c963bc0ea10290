import Mathlib.Algebra.Group.Nat.Defs
import Mathlib.Data.List.TakeDrop
import Mathlib.Data.List.TakeWhile
import Retrieval.Json.Number
import Retrieval.Json.Reader

/-! Whole numbers in digits. A number below `2 ^ 64` is read back as it was, and its digits end
where no more of a number follows. -/
namespace Retrieval.Json

/-- Nothing that could go on with a number. -/
def Follows (rest : List Char) : Prop :=
  ∀ c later, rest = c :: later → c.isDigit = false ∧ c ≠ '.' ∧ c ≠ 'e' ∧ c ≠ 'E'

theorem follows_nil : Follows [] := nofun

theorem follows_cons {c : Char} {rest : List Char} (digit : c.isDigit = false) (point : c ≠ '.')
    (e : c ≠ 'e') (E : c ≠ 'E') : Follows (c :: rest) := by
  intro _ _ same
  cases same
  exact ⟨digit, point, e, E⟩

/-- A text is a number token if it is read as one whatever follows, but for what would go on with
it. -/
structure IsNumber (literal : List Char) : Prop where
  begins : ∃ c rest, literal = c :: rest ∧ (c.isDigit = true ∨ c = '-')
  ends : ∀ rest, Follows rest → scanNumber (literal ++ rest) = some (literal, rest)

/-- Nothing that could go on with the digits of a whole part or be its fraction. -/
def EndsWhole (rest : List Char) : Prop :=
  ∀ c later, rest = c :: later → c.isDigit = false ∧ c ≠ '.'

theorem Follows.endsWhole {rest : List Char} (follows : Follows rest) : EndsWhole rest := by
  intro c later same
  obtain ⟨digit, point, _⟩ := follows c later same
  exact ⟨digit, point⟩

theorem spanDigits_append {digits rest : List Char} (all : ∀ c ∈ digits, c.isDigit = true)
    (ends : ∀ c later, rest = c :: later → c.isDigit = false) :
    spanDigits (digits ++ rest) = (digits, rest) := by
  rw [spanDigits, List.span_eq_takeWhile_dropWhile, List.takeWhile_append_of_pos all,
    List.dropWhile_append_of_pos all]
  cases rest with
  | nil => simp
  | cons c later =>
    have other := ends c later rfl
    simp [other]

/-! The parts of a number token -/

/-- One or more digits without a needless zero. -/
structure IsWhole (digits : List Char) : Prop where
  some_digit : digits ≠ []
  all : ∀ c ∈ digits, c.isDigit = true
  needed : ∀ rest, digits = '0' :: rest → rest = []

inductive IsFraction : List Char → Prop
  | none : IsFraction []
  | digits {digits : List Char} (some_digit : digits ≠ []) (all : ∀ c ∈ digits, c.isDigit = true) :
    IsFraction ('.' :: digits)

inductive IsExponent : List Char → Prop
  | none : IsExponent []
  | digits {sign : Char} {digits : List Char} (signed : sign = '+' ∨ sign = '-')
      (some_digit : digits ≠ []) (all : ∀ c ∈ digits, c.isDigit = true) :
    IsExponent ('e' :: sign :: digits)

theorem scanWhole_append {digits rest : List Char} (whole : IsWhole digits)
    (ends : ∀ c later, rest = c :: later → c.isDigit = false) :
    scanWhole (digits ++ rest) = some (digits, rest) := by
  rw [scanWhole, spanDigits_append whole.all ends]
  split
  · rename_i nothing
    exact absurd (Prod.mk.inj nothing).1 whole.some_digit
  · rename_i needless
    cases whole.needed _ (Prod.mk.inj needless).1
  · rfl

theorem scanFraction_append {fraction rest : List Char} (parted : IsFraction fraction)
    (ends : EndsWhole rest) : scanFraction (fraction ++ rest) = some (fraction, rest) := by
  cases parted with
  | none =>
    rw [List.nil_append]
    unfold scanFraction
    split
    · exact absurd rfl (ends _ _ rfl).2
    · rfl
  | @digits digits some_digit all =>
    rw [List.cons_append, scanFraction,
      spanDigits_append all fun c later same => (ends c later same).1]
    split
    · rename_i nothing
      exact absurd (Prod.mk.inj nothing).1 some_digit
    · rename_i same
      cases same
      rfl

theorem scanExponent_append {exponent rest : List Char} (raised : IsExponent exponent)
    (follows : Follows rest) : scanExponent (exponent ++ rest) = some (exponent, rest) := by
  cases raised with
  | none =>
    rw [List.nil_append]
    unfold scanExponent
    split
    · rename_i e later
      obtain ⟨_, _, small, large⟩ := follows e later rfl
      rw [if_neg (not_or.mpr ⟨small, large⟩)]
    · rfl
  | @digits sign digits signed some_digit all =>
    have taken := spanDigits_append all fun c later same => (follows c later same).1
    rcases signed with rfl | rfl
    all_goals
      unfold scanExponent
      simp only [List.cons_append, true_or, if_true, taken]
      rfl

/-- What follows a whole part is not taken for more of its digits. -/
theorem endsWhole_exponent {exponent rest : List Char} (raised : IsExponent exponent)
    (follows : Follows rest) : EndsWhole (exponent ++ rest) := by
  cases raised with
  | none => exact follows.endsWhole
  | digits =>
    intro c later same
    cases same
    exact ⟨rfl, by decide⟩

theorem endsDigits_fraction {fraction rest : List Char} (parted : IsFraction fraction)
    (ends : EndsWhole rest) : ∀ c later, fraction ++ rest = c :: later → c.isDigit = false := by
  cases parted with
  | none => exact fun c later same => (ends c later same).1
  | digits =>
    intro c later same
    cases same
    rfl

/-- A sign, a whole part, a fraction and an exponent are a number token. -/
theorem parts_isNumber {sign whole fraction exponent : List Char} (signed : sign = [] ∨ sign = ['-'])
    (isWhole : IsWhole whole) (parted : IsFraction fraction) (raised : IsExponent exponent) :
    IsNumber (sign ++ whole ++ fraction ++ exponent) := by
  obtain ⟨c, others, rfl⟩ := List.exists_cons_of_ne_nil isWhole.some_digit
  have digit : c.isDigit = true := isWhole.all c List.mem_cons_self
  have unsigned : c ≠ '-' := by
    rintro rfl
    cases digit
  refine ⟨?_, fun rest follows => ?_⟩
  · rcases signed with rfl | rfl
    · exact ⟨c, _, rfl, .inl digit⟩
    · exact ⟨'-', _, rfl, .inr rfl⟩
  have ends := endsWhole_exponent raised follows
  have first := scanWhole_append isWhole (endsDigits_fraction parted ends)
  have second := scanFraction_append parted ends
  have third := scanExponent_append raised follows
  rw [List.cons_append] at first
  rcases signed with rfl | rfl
  · unfold scanNumber
    split
    rename_i sign cs same
    split at same
    · rename_i minus
      exact absurd (List.cons.inj minus).1 unsigned
    · cases same
      simp [first, second, third]
  · unfold scanNumber
    simp [first, second, third]

/-- Digits without a needless zero are a number token. -/
theorem digits_isNumber {digits : List Char} (some_digit : digits ≠ [])
    (all : ∀ c ∈ digits, c.isDigit = true) (needed : ∀ rest, digits = '0' :: rest → rest = []) :
    IsNumber digits := by
  have parts := parts_isNumber (.inl rfl) ⟨some_digit, all, needed⟩ .none .none
  rwa [List.nil_append, List.append_nil, List.append_nil] at parts

theorem digits_ofNat (n : Nat) : (toString n).toList = Nat.toDigits 10 n := Nat.toList_repr

/-- Only zero is spelled with a zero in front. -/
theorem toDigits_needed (n : Nat) (rest : List Char) (front : Nat.toDigits 10 n = '0' :: rest) :
    rest = [] := by
  induction n using Nat.base_induction 10 (by decide) generalizing rest with
  | single m small =>
    rw [Nat.toDigits_of_lt_base small] at front
    exact (List.cons.inj front).2.symm
  | digit m k small positive ih =>
    exfalso
    rw [← Nat.toDigits_append_toDigits (by decide) positive small] at front
    cases spelled : Nat.toDigits 10 m with
    | nil => exact Nat.toDigits_ne_nil spelled
    | cons d others =>
      rw [spelled, List.cons_append] at front
      obtain ⟨rfl, _⟩ := List.cons.inj front
      cases ih others spelled
      have zero : m = 0 := by
        rw [← Nat.ofDigitChars_ten_toDigits (n := m), spelled]
        rfl
      omega

theorem ofNat_isNumber (n : Nat) : IsNumber (toString n).toList := by
  rw [digits_ofNat]
  apply digits_isNumber Nat.toDigits_ne_nil
  · intro c member
    exact Nat.isDigit_of_mem_toDigits (by decide) (by decide) member
  · exact toDigits_needed n

theorem le_ofDigitChars (digits : List Char) (n : Nat) : n ≤ Nat.ofDigitChars 10 digits n := by
  induction digits generalizing n with
  | nil => exact Nat.le_refl n
  | cons c rest ih =>
    rw [Nat.ofDigitChars_cons]
    exact Nat.le_trans (by omega) (ih _)

/-- Digits are all taken in if the number that they spell fits. -/
theorem absorb_of_fits {digits : List Char} {n : Nat}
    (fits : Nat.ofDigitChars 10 digits n < 0x10000000000000000) :
    NumberParts.absorb n digits = (Nat.ofDigitChars 10 digits n, []) := by
  induction digits generalizing n with
  | nil => rfl
  | cons c rest ih =>
    rw [Nat.ofDigitChars_cons, Nat.mul_comm] at fits ⊢
    rw [NumberParts.absorb]
    rw [if_pos (Nat.lt_of_le_of_lt (le_ofDigitChars rest _) fits)]
    exact ih fits

theorem ofLiteral_digits {digits : List Char} (all : ∀ c ∈ digits, c.isDigit = true)
    (fits : Nat.ofDigitChars 10 digits 0 < 0x10000000000000000) :
    NumberParts.ofLiteral digits = ⟨false, Nat.ofDigitChars 10 digits 0, 0, true⟩ := by
  have unsigned : digits.head? ≠ some '-' := by
    intro sign
    cases all '-' (List.mem_of_mem_head? sign)
  have whole : digits.takeWhile Char.isDigit = digits := List.takeWhile_eq_self_iff.mpr all
  have none_left : digits.dropWhile Char.isDigit = [] := List.dropWhile_eq_nil_iff.mpr all
  simp only [NumberParts.ofLiteral, unsigned, if_false, whole, none_left, absorb_of_fits fits]
  rfl

/-- A number that fits is read back from its digits. -/
theorem nat?_ofNat {n : Nat} (fits : n < 2 ^ 64) : (ofNat n).nat? = some n := by
  have all (c : Char) (member : c ∈ Nat.toDigits 10 n) : c.isDigit = true :=
    Nat.isDigit_of_mem_toDigits (by decide) (by decide) member
  have parts := ofLiteral_digits all (by rwa [Nat.ofDigitChars_ten_toDigits])
  rw [Nat.ofDigitChars_ten_toDigits] at parts
  rw [ofNat, digits_ofNat, nat?, parts]
  rfl

end Retrieval.Json
