import Retrieval.Number.Decimal
import Retrieval.Proofs.Json.Printing

/-!
Numbers with a fraction or an exponent. What is printed for a finite number is a number token,
whether its digits stand around a point or before an exponent.
-/
namespace Retrieval.Json

theorem toDigits_isDigit (n : Nat) : ∀ c ∈ Nat.toDigits 10 n, c.isDigit = true :=
  fun _ member => Nat.isDigit_of_mem_toDigits (by decide) (by decide) member

theorem zeros_isDigit (count : Nat) : ∀ c ∈ List.replicate count '0', c.isDigit = true := by
  intro c member
  rw [(List.mem_replicate.mp member).2]
  rfl

/-- Digits that do not begin with a zero are a whole part. -/
theorem isWhole_of_front {digits : List Char} (some_digit : digits ≠ [])
    (all : ∀ c ∈ digits, c.isDigit = true) (front : ∀ rest, digits ≠ '0' :: rest) :
    IsWhole digits :=
  ⟨some_digit, all, fun rest same => absurd same (front rest)⟩

/-- The digits of a positive number do not begin with a zero. -/
theorem toDigits_front {n : Nat} (positive : n ≠ 0) (rest : List Char) :
    Nat.toDigits 10 n ≠ '0' :: rest := by
  intro spelled
  cases toDigits_needed n rest spelled
  apply positive
  rw [← Nat.ofDigitChars_ten_toDigits (n := n), spelled]
  rfl

/-- The first digits of a positive number are a whole part. -/
theorem isWhole_take {n count : Nat} (positive : n ≠ 0) (some_digit : count ≠ 0) :
    IsWhole ((Nat.toDigits 10 n).take count) := by
  obtain ⟨c, rest, spelled⟩ := List.exists_cons_of_ne_nil (Nat.toDigits_ne_nil (b := 10) (n := n))
  obtain ⟨count, rfl⟩ := Nat.exists_eq_succ_of_ne_zero some_digit
  apply isWhole_of_front
  · simp [spelled]
  · exact fun c member => toDigits_isDigit n c (List.mem_of_mem_take member)
  · intro others same
    rw [spelled, List.take_succ_cons] at same
    cases (List.cons.inj same).1
    exact toDigits_front positive rest spelled

/-- So are all of them with zeros behind. -/
theorem isWhole_zeros {n : Nat} (positive : n ≠ 0) (count : Nat) :
    IsWhole (Nat.toDigits 10 n ++ List.replicate count '0') := by
  obtain ⟨c, rest, spelled⟩ := List.exists_cons_of_ne_nil (Nat.toDigits_ne_nil (b := 10) (n := n))
  apply isWhole_of_front
  · simp [spelled]
  · exact List.forall_mem_append.mpr ⟨toDigits_isDigit n, zeros_isDigit count⟩
  · intro others same
    rw [spelled] at same
    cases (List.cons.inj same).1
    exact toDigits_front positive rest spelled

/-- An exponent is written with its sign. -/
theorem isExponent_shift (point : Int) :
    IsExponent ('e' :: if 0 < point then '+' :: (toString (point - 1)).toList
      else (toString (point - 1)).toList) := by
  by_cases positive : 0 < point
  · obtain ⟨n, shifted⟩ := Int.eq_ofNat_of_zero_le (show 0 ≤ point - 1 by omega)
    have spelled : (toString (n : Int)).toList = Nat.toDigits 10 n := Nat.toList_repr
    rw [if_pos positive, shifted, spelled]
    exact .digits (.inl rfl) Nat.toDigits_ne_nil (toDigits_isDigit n)
  · obtain ⟨n, shifted⟩ := Int.eq_negSucc_of_lt_zero (show point - 1 < 0 by omega)
    have spelled : (toString (Int.negSucc n)).toList = '-' :: Nat.toDigits 10 (n + 1) := by
      rw [Int.toString_eq_repr, Int.repr, String.toList_append, Nat.toList_repr]
      rfl
    rw [if_neg positive, shifted, spelled]
    exact .digits (.inr rfl) Nat.toDigits_ne_nil (toDigits_isDigit (n + 1))

/-- The text of a decimal is a whole part, a fraction and an exponent, in every style that ends
whole numbers with a fraction. -/
theorem layOut_parts {style : DecimalStyle} (ends : style.wholeEnd = ".0") (digits : Nat)
    (place : Int) : ∃ whole fraction exponent, style.layOut digits place =
      whole ++ fraction ++ exponent ∧ IsWhole whole ∧ IsFraction fraction ∧ IsExponent exponent := by
  have zeroEnd : IsFraction ".0".toList := .digits (List.cons_ne_nil '0' []) (zeros_isDigit 1)
  have zeroWhole : IsWhole ['0'] :=
    ⟨nofun, zeros_isDigit 1, fun rest same => (List.cons.inj same).2.symm⟩
  have all := toDigits_isDigit digits
  have some_digit := Nat.length_toDigits_pos (b := 10) (n := digits)
  rw [DecimalStyle.layOut, ends, digits_ofNat]
  dsimp only
  split
  · exact ⟨['0'], ".0".toList, [], (List.append_nil _).symm, zeroWhole, zeroEnd, .none⟩
  rename_i positive
  generalize shift : ((Nat.toDigits 10 digits).length : Int) + place = point
  split
  · split
    · exact ⟨_, _, [], (List.append_nil _).symm, isWhole_zeros positive _, zeroEnd, .none⟩
    · split
      · refine ⟨_, '.' :: (Nat.toDigits 10 digits).drop point.toNat, [],
          (List.append_nil _).symm, isWhole_take positive (by omega), .digits ?_ ?_, .none⟩
        · apply List.ne_nil_of_length_pos
          rw [List.length_drop]
          omega
        · exact fun c member => all c (List.mem_of_mem_drop member)
      · refine ⟨['0'], '.' :: (List.replicate (-point).toNat '0' ++ Nat.toDigits 10 digits), [],
          (List.append_nil _).symm, zeroWhole, .digits ?_ ?_, .none⟩
        · exact List.append_ne_nil_of_right_ne_nil _ Nat.toDigits_ne_nil
        · exact List.forall_mem_append.mpr ⟨zeros_isDigit _, all⟩
  · refine ⟨_, if ((Nat.toDigits 10 digits).drop 1).isEmpty then [] else
      '.' :: (Nat.toDigits 10 digits).drop 1, _, rfl, isWhole_take positive (by decide), ?_,
      isExponent_shift _⟩
    split
    · exact .none
    · rename_i more
      exact .digits (by simpa using more) fun c member => all c (List.mem_of_mem_drop member)

/-- Decimals are number tokens, with a sign or without. -/
theorem write_isNumber {style : DecimalStyle} (ends : style.wholeEnd = ".0") (d : Dyadic) :
    IsNumber (style.write (.finite d)).toList := by
  obtain ⟨whole, fraction, exponent, spelled, isWhole, parted, raised⟩ :=
    layOut_parts ends (d.shortest style.ties).1 (d.shortest style.ties).2
  have written : (style.write (.finite d)).toList = (if d.negative then ['-'] else []) ++
      style.layOut (d.shortest style.ties).1 (d.shortest style.ties).2 := by
    show String.toList (String.ofList (if d.negative then '-' :: _ else _)) = _
    rw [String.toList_ofList]
    cases d.negative <;> rfl
  rw [written, spelled, ← List.append_assoc, ← List.append_assoc]
  refine parts_isNumber ?_ isWhole parted raised
  cases d.negative
  · exact .inl rfl
  · exact .inr rfl

/-- A field of a pattern that is all ones is what a mask of its place leaves. -/
theorem masked_of_full {pattern place width : Nat}
    (full : pattern / 2 ^ place % 2 ^ width = 2 ^ width - 1) :
    pattern &&& ((2 ^ width - 1) <<< place) = (2 ^ width - 1) <<< place := by
  have shifted : pattern &&& ((2 ^ width - 1) <<< place) =
      ((pattern >>> place) &&& (2 ^ width - 1)) <<< place := by
    apply Nat.eq_of_testBit_eq
    intro i
    simp only [Nat.testBit_and, Nat.testBit_shiftLeft, Nat.testBit_shiftRight]
    by_cases low : place ≤ i
    · simp [low]
    · simp [low]
  rw [shifted, Nat.and_two_pow_sub_one_eq_mod, Nat.shiftRight_eq_div_pow, full]

/-- The pattern of a finite number has an exponent that is not all ones. -/
theorem exponent_of_finite {x : Double} (finite : x.isFinite = true) :
    x.bits.toNat / 2 ^ 52 % 2 ^ 11 ≠ 2 ^ 11 - 1 := by
  intro full
  simp only [Double.isFinite, ne_eq, decide_not, Bool.not_eq_true', decide_eq_false_iff_not] at finite
  apply finite
  apply UInt64.toNat_inj.mp
  rw [UInt64.toNat_and]
  exact masked_of_full full

/-- The pattern of a finite number has an exponent that is not all ones. -/
theorem exponent_of_finite_single {x : Single} (finite : x.isFinite = true) :
    x.bits.toNat / 2 ^ 23 % 2 ^ 8 ≠ 2 ^ 8 - 1 := by
  intro full
  simp only [Single.isFinite, ne_eq, decide_not, Bool.not_eq_true', decide_eq_false_iff_not] at finite
  apply finite
  apply UInt32.toNat_inj.mp
  rw [UInt32.toNat_and]
  exact masked_of_full full

theorem exists_reading {x : Double} (finite : x.isFinite = true) :
    ∃ d, x.reading = .finite d := by
  have field := exponent_of_finite finite
  show ∃ d, (if x.bits.toNat / 2 ^ 52 % 2 ^ 11 = 2 ^ 11 - 1 then
    if x.bits.toNat % 2 ^ 52 = 0 then Reading.infinite _ else Reading.nan
    else if x.bits.toNat / 2 ^ 52 % 2 ^ 11 = 0 then Reading.finite _
    else Reading.finite _) = Reading.finite d
  rw [if_neg field]
  split
  · exact ⟨_, rfl⟩
  · exact ⟨_, rfl⟩

theorem exists_reading_single {x : Single} (finite : x.isFinite = true) :
    ∃ d, x.reading = .finite d := by
  have field := exponent_of_finite_single finite
  show ∃ d, (if x.bits.toNat / 2 ^ 23 % 2 ^ 8 = 2 ^ 8 - 1 then
    if x.bits.toNat % 2 ^ 23 = 0 then Reading.infinite _ else Reading.nan
    else if x.bits.toNat / 2 ^ 23 % 2 ^ 8 = 0 then Reading.finite _
    else Reading.finite _) = Reading.finite d
  rw [if_neg field]
  split
  · exact ⟨_, rfl⟩
  · exact ⟨_, rfl⟩

/-- A number that is read from its text as it was: reading rounds, so not every number is. -/
def Legible (x : Double) : Prop := (ofDouble x).double? = some x

instance (x : Double) : Decidable (Legible x) :=
  inferInstanceAs (Decidable ((ofDouble x).double? = some x))

/-- A number is printed as a token, or as null. -/
theorem ofDouble_printable (x : Double) : (ofDouble x).Printable := by
  rw [ofDouble]
  split
  · rename_i finite
    obtain ⟨d, read⟩ := exists_reading finite
    rw [read]
    exact .number (write_isNumber rfl d)
  · exact .null

/-- A number is printed as a token, or as null. -/
theorem ofSingle_printable (x : Single) : (ofSingle x).Printable := by
  rw [ofSingle]
  split
  · rename_i finite
    obtain ⟨d, read⟩ := exists_reading_single finite
    rw [read]
    exact .number (write_isNumber rfl d)
  · exact .null

end Retrieval.Json
