import Mathlib.Data.Nat.Digits.Defs
import Retrieval.Files.Replace
import Retrieval.Proofs.Files.Escape
import Retrieval.Proofs.Files.Tree

/-!
How long paths and the names of temporary files are: a temporary name takes 38 bytes more than the
name that it is made up for, until the numbers of 32 digits are used up.
-/
namespace Retrieval.FileTree

theorem toDigits_harmless (n : Nat) : ∀ c ∈ Nat.toDigits 16 n, isHarmless c = true := by
  have single : ∀ n < 16, isHarmless (Nat.digitChar n) = true := by decide
  induction n using Nat.base_induction 16 (by decide) with
  | single n small =>
    rw [Nat.toDigits_of_lt_base small]
    simpa using single n small
  | digit front digit small positive ih =>
    rw [← Nat.toDigits_append_toDigits (by decide) positive small, Nat.toDigits_of_lt_base small]
    intro c member
    rcases List.mem_append.mp member with before | last
    · exact ih c before
    · rw [List.mem_singleton.mp last]
      exact single digit small

theorem serial_harmless (n : Nat) : ∀ c ∈ (serial n).toList, isHarmless c = true := by
  intro c member
  rw [serial, String.toList_ofList, List.mem_append, List.mem_replicate] at member
  rcases member with ⟨_, rfl⟩ | digit
  · rfl
  · exact toDigits_harmless n c digit

theorem utf8ByteSize_serial {n : Nat} (few : n < 16 ^ 32) : (serial n).utf8ByteSize = 32 := by
  have digits := (Nat.length_toDigits_le_iff (n := n) (by decide : 1 < 16) (by decide)).mpr few
  have size := utf8ByteSize_of_harmless (serial_harmless n)
  rw [String.ofList_toList] at size
  rw [size, serial, String.toList_ofList, List.length_append, List.length_replicate]
  omega

theorem utf8ByteSize_temporaryName {draw : Nat} (few : draw < 16 ^ 32) (name : String) :
    (temporaryName name draw).utf8ByteSize = name.utf8ByteSize + 38 := by
  simp only [temporaryName, String.utf8ByteSize_append, utf8ByteSize_serial few]
  have dot : ".".utf8ByteSize = 1 := rfl
  have tail : ".tmp".utf8ByteSize = 4 := rfl
  omega

/-- A temporary name begins with a dot. -/
theorem toList_temporaryName (name : String) (draw : Nat) :
    (temporaryName name draw).toList =
      '.' :: (name.toList ++ '.' :: ((serial draw).toList ++ ['.', 't', 'm', 'p'])) := by
  simp [temporaryName]

theorem temporaryName_leadsOn (name : String) (draw : Nat) :
    leadsOn (temporaryName name draw) = true := by
  have ne (short : String) (size : short.length ≤ 2) : temporaryName name draw ≠ short := by
    rintro rfl
    rw [← String.length_toList, toList_temporaryName] at size
    simp only [List.length_cons, List.length_append] at size
    omega
  have nothing := ne "" (by decide)
  have dot := ne "." (by decide)
  have dots := ne ".." (by decide)
  simp [leadsOn, namesHere, nothing, dot, dots]

theorem temporaryName_ne_null {name : String} (clean : '\x00' ∉ name.toList) (draw : Nat) :
    '\x00' ∉ (temporaryName name draw).toList := by
  have counted : '\x00' ∉ (serial draw).toList := fun null =>
    isHarmless_ne_null (serial_harmless draw _ null) rfl
  rw [toList_temporaryName]
  simp [clean, counted]

theorem textSize_append (front rest : Path) :
    textSize (front ++ rest) = textSize front + textSize rest := by
  have start (size : Nat) (path : Path) :
      path.foldl (fun size name => size + name.utf8ByteSize + 1) size = size + textSize path := by
    induction path generalizing size with
    | nil => rfl
    | cons name path ih =>
      rw [textSize, List.foldl_cons, List.foldl_cons, ih, ih (0 + _ + 1)]
      omega
  rw [textSize, List.foldl_append, start]
  rfl

theorem canFollow_append {front rest : Path} :
    canFollow (front ++ rest) = true ↔ canFollow front = true ∧
      textSize front + textSize rest ≤ 4096 ∧ ∀ name ∈ rest, '\x00' ∉ name.toList := by
  simp only [canFollow, textSize_append, List.all_append, Bool.and_eq_true, decide_eq_true_eq,
    List.all_eq_true, Bool.not_eq_true', List.contains_eq_mem, decide_eq_false_iff_not]
  constructor
  · rintro ⟨short, before, behind⟩
    exact ⟨⟨by omega, before⟩, short, behind⟩
  · rintro ⟨⟨_, before⟩, short, behind⟩
    exact ⟨short, before, behind⟩

end Retrieval.FileTree
