import Mathlib.Algebra.Group.Nat.Defs
import Retrieval.Binary.Wire

/-!
Whatever is put in binary form is read back as it was, and the form tells where it ends: bytes that
follow it are left alone, and a part of it is not taken for a shorter value.
-/
namespace Retrieval
variable {α β : Type}

/-- A reader takes exactly these bytes for the value. -/
structure Frames (read : Reader α) (bytes : Bytes) (value : α) : Prop where
  reads : ∀ rest, read (bytes ++ rest) = some (value, rest)
  refuses : ∀ front, front <+: bytes → front ≠ bytes → read front = none

/-- The front of two pieces does not reach the second piece, or begins with the whole first one. -/
theorem prefix_append_cases {front first second : Bytes} (front_of : front <+: first ++ second) :
    front <+: first ∧ front ≠ first ∨ ∃ later, front = first ++ later ∧ later <+: second := by
  obtain ⟨back, same⟩ := front_of
  rcases List.append_eq_append_iff.mp same with ⟨missing, rfl, _⟩ | ⟨later, rfl, rfl⟩
  · by_cases whole : front = front ++ missing
    · exact .inr ⟨[], by rw [List.append_nil, ← whole], List.nil_prefix⟩
    · exact .inl ⟨List.prefix_append _ _, whole⟩
  · exact .inr ⟨later, rfl, List.prefix_append _ _⟩

namespace Frames

/-- What is read in two steps, the second as the first says, is put one after the other. -/
theorem append {read : Reader β} {first : Reader α} {second : α → Reader β} {bytes bytes' : Bytes}
    {a : α} {b : β}
    (steps : ∀ input, read input = (first input).bind fun parts => second parts.1 parts.2)
    (one : Frames first bytes a) (two : Frames (second a) bytes' b) :
    Frames read (bytes ++ bytes') b where
  reads rest := by
    rw [List.append_assoc, steps, one.reads]
    exact two.reads rest
  refuses front front_of short := by
    rw [steps]
    rcases prefix_append_cases front_of with ⟨here, differs⟩ | ⟨later, rfl, there⟩
    · rw [one.refuses front here differs]
      rfl
    · rw [one.reads]
      apply two.refuses later there
      rintro rfl
      exact short rfl

theorem map {read : Reader α} {bytes : Bytes} {a : α} (frames : Frames read bytes a) (f : α → β) :
    Frames (fun input => (read input).map fun parts => (f parts.1, parts.2)) bytes (f a) where
  reads rest := by simp only [frames.reads, Option.map_some]
  refuses front front_of short := by
    simp only [frames.refuses front front_of short, Option.map_none]

end Frames

theorem readWord_frames {width n : Nat} (fits : n < 256 ^ width) :
    Frames (readWord width) (wordBytes width n) n := by
  induction width generalizing n with
  | zero =>
    refine ⟨?_, ?_⟩
    · intro rest
      rw [show n = 0 by omega]
      rfl
    · intro front front_of short
      exact absurd (List.prefix_nil.mp front_of) short
  | succ width ih =>
    have later := ih (n := n / 256) (Nat.div_lt_of_lt_mul (by rwa [Nat.pow_succ'] at fits))
    have low : (UInt8.ofNat (n % 256)).toNat = n % 256 := by
      rw [UInt8.toNat_ofNat']
      omega
    refine ⟨?_, ?_⟩
    · intro rest
      show (readWord width (wordBytes width (n / 256) ++ rest)).map _ = _
      rw [later.reads, Option.map_some, low, Nat.mod_add_div]
    · intro front front_of short
      rcases List.prefix_cons_iff.mp front_of with rfl | ⟨rest, rfl, rest_of⟩
      · rfl
      · show (readWord width rest).map _ = none
        rw [later.refuses rest rest_of fun same => short (congrArg _ same)]
        rfl

theorem readCount_frames {n : Nat} (fits : n < 2 ^ 64) : Frames readCount (countBytes n) n :=
  readWord_frames fits

theorem ofTextBytes?_textBytes (s : String) : ofTextBytes? (textBytes s) = some s := by
  have same : (⟨(textBytes s).toArray⟩ : ByteArray) = s.toByteArray := by
    rw [textBytes]
    simp
  rw [ofTextBytes?, same, String.fromUTF8?, dif_pos s.isValidUTF8]
  rfl

/-- Read a text of so many bytes. -/
def takeText (size : Nat) : Reader String := fun bytes =>
  if size ≤ bytes.length then (ofTextBytes? (bytes.take size)).map (·, bytes.drop size) else none

theorem readText_steps (input : Bytes) :
    readText input = (readCount input).bind fun parts => takeText parts.1 parts.2 := by
  unfold readText
  cases readCount input <;> rfl

theorem takeText_frames (s : String) : Frames (takeText (textBytes s).length) (textBytes s) s where
  reads rest := by
    have reaches : (textBytes s).length ≤ (textBytes s ++ rest).length := by
      rw [List.length_append]
      exact Nat.le_add_right _ _
    rw [takeText, if_pos reaches, List.take_left, List.drop_left, ofTextBytes?_textBytes]
    rfl
  refuses front front_of short := by
    have fewer : ¬ (textBytes s).length ≤ front.length :=
      fun long => short (front_of.eq_of_length_le long)
    rw [takeText, if_neg fewer]

theorem readText_frames {s : String} (fits : s.utf8ByteSize < 2 ^ 64) :
    Frames readText (putText s) s :=
  .append readText_steps (readCount_frames fits) (takeText_frames s)

/-- Read so many items behind one that has been read. -/
def readBehind (read : Reader α) (count : Nat) (item : α) : Reader (List α) := fun bytes =>
  (readMany read count bytes).map fun parts => (item :: parts.1, parts.2)

theorem readMany_steps (read : Reader α) (count : Nat) (input : Bytes) :
    readMany read (count + 1) input = (read input).bind fun parts =>
      readBehind read count parts.1 parts.2 := by
  rw [readMany]
  cases read input <;> rfl

/-- Items that are read one by one are read all. -/
theorem readMany_frames {read : Reader α} {put : α → Bytes} {items : List α}
    (each : ∀ item ∈ items, Frames read (put item) item) :
    Frames (readMany read items.length) (items.flatMap put) items := by
  induction items with
  | nil =>
    refine ⟨fun _ => rfl, ?_⟩
    intro front front_of short
    exact absurd (List.prefix_nil.mp front_of) short
  | cons item rest ih =>
    obtain ⟨first, later⟩ := List.forall_mem_cons.mp each
    rw [List.flatMap_cons]
    exact .append (readMany_steps read rest.length) first ((ih later).map (item :: ·))

theorem readList_steps (read : Reader α) (input : Bytes) :
    readList read input = (readCount input).bind fun parts => readMany read parts.1 parts.2 := by
  unfold readList
  cases readCount input <;> rfl

theorem readList_frames {read : Reader α} {put : α → Bytes} {items : List α}
    (fits : items.length < 2 ^ 64) (each : ∀ item ∈ items, Frames read (put item) item) :
    Frames (readList read) (putList put items) items :=
  .append (readList_steps read) (readCount_frames fits) (readMany_frames each)

end Retrieval
