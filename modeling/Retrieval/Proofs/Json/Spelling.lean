import Retrieval.Json.Printer
import Retrieval.Proofs.Json.Digits
import Retrieval.Proofs.Json.Quotes

/-!
The texts that spell a value, with any blanks between its tokens. Whatever spells a value is read as
that value (`parse?_spelled`), on one line or indented.
-/
namespace Retrieval.Json

def Blanks (cs : List Char) : Prop := ∀ c ∈ cs, isBlank c = true

mutual

inductive Spells : Json → List Char → Prop
  | null : Spells .null ['n', 'u', 'l', 'l']
  | yes : Spells (.bool true) ['t', 'r', 'u', 'e']
  | no : Spells (.bool false) ['f', 'a', 'l', 's', 'e']
  | number {literal : List Char} (token : IsNumber literal) : Spells (.number literal) literal
  | string {raw : List Char} (quotable : Quotable raw) : Spells (.string raw) (quoted raw)
  | noItems : Spells (.array []) ['[', ']']
  | array {items : List Json} {text : List Char} (spelled : SpellsItems items text) :
    Spells (.array items) ('[' :: text)
  | noMembers : Spells (.object []) ['\x7b', '\x7d']
  | object {members : List (List Char × Json)} {text : List Char}
      (spelled : SpellsMembers members text) :
    Spells (.object members) ('\x7b' :: text)

/-- Items up to the closing bracket. -/
inductive SpellsItems : List Json → List Char → Prop
  | last {item : Json} {front text back : List Char} (before : Blanks front)
      (spelled : Spells item text) (behind : Blanks back) :
    SpellsItems [item] (front ++ text ++ back ++ [']'])
  | more {item : Json} {rest : List Json} {front text back later : List Char}
      (before : Blanks front) (spelled : Spells item text) (behind : Blanks back)
      (others : SpellsItems rest later) :
    SpellsItems (item :: rest) (front ++ text ++ back ++ ',' :: later)

/-- Members up to the closing brace. -/
inductive SpellsMembers : List (List Char × Json) → List Char → Prop
  | last {name : List Char} {value : Json} {front between text back : List Char}
      (before : Blanks front) (quotable : Quotable name) (amid : Blanks between)
      (spelled : Spells value text) (behind : Blanks back) :
    SpellsMembers [(name, value)]
      (front ++ quoted name ++ ':' :: between ++ text ++ back ++ ['\x7d'])
  | more {name : List Char} {value : Json} {rest : List (List Char × Json)}
      {front between text back later : List Char}
      (before : Blanks front) (quotable : Quotable name) (amid : Blanks between)
      (spelled : Spells value text) (behind : Blanks back) (others : SpellsMembers rest later) :
    SpellsMembers ((name, value) :: rest)
      (front ++ quoted name ++ ':' :: between ++ text ++ back ++ ',' :: later)

end

/-! Blanks -/

theorem skipBlank_blanks {front : List Char} (blanks : Blanks front) (cs : List Char) :
    skipBlank (front ++ cs) = skipBlank cs := List.dropWhile_append_of_pos blanks

theorem skipBlank_cons {c : Char} (token : isBlank c = false) (cs : List Char) :
    skipBlank (c :: cs) = c :: cs := by
  rw [skipBlank, List.dropWhile_cons, token]
  rfl

theorem skipBlank_skipBlank (cs : List Char) : skipBlank (skipBlank cs) = skipBlank cs := by
  induction cs with
  | nil => rfl
  | cons c rest ih =>
    cases blank : isBlank c with
    | true =>
      have skipped : skipBlank (c :: rest) = skipBlank rest := by
        rw [skipBlank, List.dropWhile_cons, blank]
        rfl
      rw [skipped, ih]
    | false => rw [skipBlank_cons blank, skipBlank_cons blank]

theorem readValue_skipBlank (fuel : Nat) (cs : List Char) :
    readValue fuel (skipBlank cs) = readValue fuel cs := by
  cases fuel with
  | zero => rfl
  | succ fuel => rw [readValue, readValue, skipBlank_skipBlank]

theorem readItems_skipBlank (fuel : Nat) (cs : List Char) :
    readItems fuel (skipBlank cs) = readItems fuel cs := by
  cases fuel with
  | zero => rfl
  | succ fuel => rw [readItems, readItems, readValue_skipBlank]

theorem readMembers_skipBlank (fuel : Nat) (cs : List Char) :
    readMembers fuel (skipBlank cs) = readMembers fuel cs := by
  cases fuel with
  | zero => rfl
  | succ fuel => rw [readMembers, readMembers, skipBlank_skipBlank]

theorem readValue_blanks {front : List Char} (blanks : Blanks front) (fuel : Nat)
    (cs : List Char) : readValue fuel (front ++ cs) = readValue fuel cs := by
  rw [← readValue_skipBlank, skipBlank_blanks blanks, readValue_skipBlank]

/-- No number goes on with a blank. -/
theorem follows_blanks {back rest : List Char} (blanks : Blanks back) (follows : Follows rest) :
    Follows (back ++ rest) := by
  cases back with
  | nil => exact follows
  | cons c later =>
    have blank := blanks c List.mem_cons_self
    simp only [isBlank, Bool.or_eq_true, decide_eq_true_eq] at blank
    rcases blank with ((rfl | rfl) | rfl) | rfl
    all_goals exact follows_cons rfl (by decide) (by decide) (by decide)

/-! Values -/

/-- No digit is anything else that matters to a reader. -/
theorem ne_of_isDigit {c other : Char} (digit : c.isDigit = true)
    (otherwise : other.isDigit = false) : c ≠ other := by
  rintro rfl
  rw [digit] at otherwise
  cases otherwise

theorem isBlank_of_isDigit {c : Char} (digit : c.isDigit = true) : isBlank c = false := by
  simp [isBlank, ne_of_isDigit digit]

/-- A value begins with a character that is neither blank nor a closing bracket. -/
theorem Spells.begins {j : Json} {text : List Char} (spelled : Spells j text) :
    ∃ c rest, text = c :: rest ∧ isBlank c = false ∧ c ≠ ']' := by
  cases spelled with
  | number token =>
    obtain ⟨c, rest, same, digit | rfl⟩ := token.begins
    · exact ⟨c, rest, same, isBlank_of_isDigit digit, ne_of_isDigit digit rfl⟩
    · exact ⟨'-', rest, same, rfl, by decide⟩
  | _ => exact ⟨_, _, rfl, rfl, by decide⟩

theorem readValue_number {literal rest : List Char} (token : IsNumber literal)
    (follows : Follows rest) (fuel : Nat) :
    readValue (fuel + 1) (literal ++ rest) = some (.number literal, rest) := by
  have scanned := token.ends rest follows
  obtain ⟨c, others, rfl, begins⟩ := token.begins
  have other {d : Char} (digit : d.isDigit = false) (minus : d ≠ '-') : c ≠ d := by
    rcases begins with front | rfl
    · exact ne_of_isDigit front digit
    · exact minus.symm
  have visible : isBlank c = false := by
    simp [isBlank, other]
  rw [List.cons_append] at scanned ⊢
  rw [readValue, skipBlank_cons visible]
  -- All other kinds of values begin with a character of their own.
  split
  case h_7 =>
    rw [scanned]
    rfl
  all_goals
    rename_i same
    exact absurd (List.cons.inj same).1 (other rfl (by decide))

theorem quoted_append (raw rest : List Char) :
    quoted raw ++ rest = '"' :: (raw ++ '"' :: rest) := by
  simp [quoted]

theorem readValue_string {raw : List Char} (quotable : Quotable raw) (rest : List Char)
    (fuel : Nat) : readValue (fuel + 1) (quoted raw ++ rest) = some (.string raw, rest) := by
  rw [quoted_append, readValue, skipBlank_cons rfl]
  simp only [quotable rest, Option.map_some]

/-! Whole texts -/

/-- So much fuel is enough to read the texts of half its length. -/
structure Enough (fuel : Nat) : Prop where
  value : ∀ {j : Json} {text rest : List Char}, Spells j text → Follows rest →
    2 * text.length ≤ fuel → readValue fuel (text ++ rest) = some (j, rest)
  items : ∀ {items : List Json} {text rest : List Char}, SpellsItems items text →
    2 * text.length ≤ fuel → readItems fuel (text ++ rest) = some (items, rest)
  members : ∀ {members : List (List Char × Json)} {text rest : List Char},
    SpellsMembers members text → 2 * text.length ≤ fuel →
      readMembers fuel (text ++ rest) = some (members, rest)

namespace Enough
variable {fuel : Nat} {rest : List Char}

/-- A value is read with the blanks around it, up to the token behind it. -/
theorem spaced (enough : Enough fuel) {j : Json} {front text back : List Char} {token : Char}
    (before : Blanks front) (spelled : Spells j text) (behind : Blanks back)
    (follows : Follows (token :: rest)) (fits : 2 * text.length ≤ fuel) :
    readValue fuel (front ++ text ++ back ++ token :: rest) = some (j, back ++ token :: rest) := by
  rw [List.append_assoc, List.append_assoc, readValue_blanks before]
  exact enough.value spelled (follows_blanks behind follows) fits

theorem items_succ (enough : Enough fuel) {items : List Json} {text : List Char}
    (spelled : SpellsItems items text) (fits : 2 * text.length ≤ fuel + 1) :
    readItems (fuel + 1) (text ++ rest) = some (items, rest) := by
  cases spelled with
  | @last item front text back before spelled behind =>
    have follows : Follows (']' :: rest) := follows_cons rfl (by decide) (by decide) (by decide)
    simp only [List.length_append, List.length_cons] at fits
    have read := enough.spaced before spelled behind follows (by omega)
    rw [List.append_assoc, List.singleton_append, readItems, read]
    simp only [skipBlank_blanks behind, skipBlank_cons (show isBlank ']' = false from rfl)]
  | @more item others front text back later before spelled behind further =>
    have follows : Follows (',' :: (later ++ rest)) :=
      follows_cons rfl (by decide) (by decide) (by decide)
    simp only [List.length_append, List.length_cons] at fits
    have read := enough.spaced before spelled behind follows (by omega)
    have next : readItems fuel (later ++ rest) = some (others, rest) :=
      enough.items further (by omega)
    rw [List.append_assoc, List.cons_append, readItems, read]
    simp only [skipBlank_blanks behind, skipBlank_cons (show isBlank ',' = false from rfl), next,
      Option.map_some]

/-- The text of a member, taken apart at its quotes. -/
theorem member_append (front name between text back tail : List Char) (token : Char) :
    front ++ quoted name ++ ':' :: between ++ text ++ back ++ token :: tail =
      front ++ '"' :: (name ++ '"' :: ':' :: (between ++ text ++ back ++ token :: tail)) := by
  simp [quoted]

theorem members_succ (enough : Enough fuel) {members : List (List Char × Json)} {text : List Char}
    (spelled : SpellsMembers members text) (fits : 2 * text.length ≤ fuel + 1) :
    readMembers (fuel + 1) (text ++ rest) = some (members, rest) := by
  have quote : isBlank '"' = false := rfl
  have colon : isBlank ':' = false := rfl
  cases spelled with
  | @last name value front between text back before quotable amid spelled behind =>
    have follows : Follows ('\x7d' :: rest) :=
      follows_cons rfl (by decide) (by decide) (by decide)
    have brace : isBlank '\x7d' = false := rfl
    simp only [List.length_append, List.length_cons] at fits
    have read := enough.spaced amid spelled behind follows (by omega)
    rw [List.append_assoc, List.singleton_append, member_append, readMembers]
    simp only [skipBlank_blanks before, skipBlank_blanks behind, skipBlank_cons quote,
      skipBlank_cons colon, skipBlank_cons brace, quotable _, read]
  | @more name value others front between text back later before quotable amid spelled behind
      further =>
    have follows : Follows (',' :: (later ++ rest)) :=
      follows_cons rfl (by decide) (by decide) (by decide)
    have comma : isBlank ',' = false := rfl
    simp only [List.length_append, List.length_cons] at fits
    have read := enough.spaced amid spelled behind follows (by omega)
    have next : readMembers fuel (later ++ rest) = some (others, rest) :=
      enough.members further (by omega)
    rw [List.append_assoc, List.cons_append, member_append, readMembers]
    simp only [skipBlank_blanks before, skipBlank_blanks behind, skipBlank_cons quote,
      skipBlank_cons colon, skipBlank_cons comma, quotable _, read, next, Option.map_some]

/-- Items do not begin with a closing bracket, whatever blanks they begin with. -/
theorem items_begin {items : List Json} {text : List Char} (spelled : SpellsItems items text)
    (rest : List Char) :
    ∃ c later, skipBlank (text ++ rest) = c :: later ∧ c ≠ ']' := by
  have apart {j : Json} {front text : List Char} (before : Blanks front) (spelled : Spells j text)
      (tail : List Char) : ∃ c later, skipBlank (front ++ text ++ tail) = c :: later ∧ c ≠ ']' := by
    obtain ⟨c, others, rfl, visible, opens⟩ := spelled.begins
    refine ⟨c, others ++ tail, ?_, opens⟩
    rw [List.append_assoc, skipBlank_blanks before, List.cons_append, skipBlank_cons visible]
  cases spelled with
  | last before spelled behind =>
    simp only [List.append_assoc]
    rw [← List.append_assoc]
    exact apart before spelled _
  | more before spelled behind further =>
    simp only [List.append_assoc]
    rw [← List.append_assoc]
    exact apart before spelled _

theorem members_begin {members : List (List Char × Json)} {text : List Char}
    (spelled : SpellsMembers members text) (rest : List Char) :
    ∃ later, skipBlank (text ++ rest) = '"' :: later := by
  cases spelled with
  | last before quotable amid spelled behind =>
    rw [List.append_assoc, List.singleton_append, member_append, skipBlank_blanks before]
    exact ⟨_, rfl⟩
  | more before quotable amid spelled behind further =>
    rw [List.append_assoc, List.cons_append, member_append, skipBlank_blanks before]
    exact ⟨_, rfl⟩

theorem value_succ (enough : Enough fuel) {j : Json} {text : List Char}
    (spelled : Spells j text) (follows : Follows rest) (fits : 2 * text.length ≤ fuel + 1) :
    readValue (fuel + 1) (text ++ rest) = some (j, rest) := by
  cases spelled with
  | null => rfl
  | yes => rfl
  | no => rfl
  | number token => exact readValue_number token follows fuel
  | string quotable => exact readValue_string quotable rest fuel
  | noItems => rfl
  | noMembers => rfl
  | @array items text spelled =>
    rw [List.length_cons] at fits
    have read : readItems fuel (text ++ rest) = some (items, rest) :=
      enough.items spelled (by omega)
    obtain ⟨c, later, front, opens⟩ := items_begin spelled rest
    rw [← readItems_skipBlank, front] at read
    have bracket : isBlank '[' = false := rfl
    rw [List.cons_append, readValue, skipBlank_cons bracket]
    simp only [front]
    split
    · rename_i same
      exact absurd (List.cons.inj same).1 opens
    · rw [read]
      rfl
  | @object members text spelled =>
    rw [List.length_cons] at fits
    have read : readMembers fuel (text ++ rest) = some (members, rest) :=
      enough.members spelled (by omega)
    obtain ⟨later, front⟩ := members_begin spelled rest
    rw [← readMembers_skipBlank, front] at read
    have brace : isBlank '\x7b' = false := rfl
    rw [List.cons_append, readValue, skipBlank_cons brace]
    simp only [front]
    split
    · rename_i same
      cases (List.cons.inj same).1
    · rw [read]
      rfl

end Enough

theorem enough (fuel : Nat) : Enough fuel := by
  induction fuel with
  | zero =>
    refine ⟨?_, ?_, ?_⟩
    · intro j text rest spelled _ fits
      obtain ⟨c, others, rfl, _⟩ := spelled.begins
      simp at fits
    · intro items text rest spelled fits
      cases spelled <;> simp at fits
    · intro members text rest spelled fits
      cases spelled <;> simp at fits
  | succ fuel ih => exact ⟨ih.value_succ, ih.items_succ, ih.members_succ⟩

/-- A text that spells a value, and nothing else, is read as the value. -/
theorem parse?_spelled {j : Json} {text : List Char} (spelled : Spells j text) :
    parse? text = some j := by
  have read := (enough (2 * text.length + 2)).value spelled follows_nil (by omega)
  rw [List.append_nil] at read
  rw [parse?, read]
  rfl

end Retrieval.Json
