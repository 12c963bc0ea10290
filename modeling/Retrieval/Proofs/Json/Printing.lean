import Retrieval.Proofs.Json.Spelling

/-! What is printed, on one line or indented, is read as what was printed. -/
namespace Retrieval.Json

/-- The numbers in a value are number tokens, and its strings and names can be quoted. -/
inductive Printable : Json → Prop
  | null : Printable .null
  | bool (value : Bool) : Printable (.bool value)
  | number {literal : List Char} (token : IsNumber literal) : Printable (.number literal)
  | string {raw : List Char} (quotable : Quotable raw) : Printable (.string raw)
  | array {items : List Json} (each : ∀ item ∈ items, Printable item) : Printable (.array items)
  | object {members : List (List Char × Json)} (names : ∀ member ∈ members, Quotable member.1)
      (each : ∀ member ∈ members, Printable member.2) : Printable (.object members)

theorem ofNat_printable (n : Nat) : Printable (ofNat n) := .number (ofNat_isNumber n)

theorem ofString_printable (s : String) : Printable (ofString s) := .string (escape_quotable _)

theorem ofMembers_printable {members : List (String × Json)}
    (each : ∀ member ∈ members, Printable member.2) : Printable (ofMembers members) := by
  apply Printable.object
  · intro member listed
    obtain ⟨named, _, rfl⟩ := List.mem_map.mp listed
    exact escape_quotable _
  · intro member listed
    obtain ⟨named, given, rfl⟩ := List.mem_map.mp listed
    exact each named given

theorem newLine_blanks (level : Nat) : Blanks (newLine level) := by
  intro c member
  rcases List.mem_cons.mp member with rfl | blank
  · rfl
  · rw [(List.mem_replicate.mp blank).2]
    rfl

theorem nil_blanks : Blanks [] := nofun

theorem blank_blanks : Blanks [' '] := by
  intro c member
  rw [List.mem_singleton.mp member]
  rfl

/-- Items one below the other are spelled if each of them is. -/
theorem prettyItems_spells {level : Nat} {items : List Json} (some_item : items ≠ [])
    (each : ∀ item ∈ items, Spells item (item.prettyAt level)) :
    SpellsItems items (prettyItems level items) := by
  induction items with
  | nil => exact absurd rfl some_item
  | cons item rest ih =>
    obtain ⟨first, later⟩ := List.forall_mem_cons.mp each
    cases rest with
    | nil =>
      rw [prettyItems]
      exact .last (newLine_blanks level) first (newLine_blanks _)
    | cons next rest =>
      have others := ih (List.cons_ne_nil _ _) later
      have spelled := SpellsItems.more (newLine_blanks level) first nil_blanks others
      rw [prettyItems]
      rwa [List.append_nil] at spelled

/-- The text of a member, taken apart around the blank behind its colon. -/
theorem member_text (front name text tail : List Char) :
    front ++ quoted name ++ ':' :: ' ' :: text ++ tail =
      front ++ quoted name ++ ':' :: [' '] ++ text ++ tail := by
  simp only [List.append_assoc, List.cons_append, List.nil_append]

theorem prettyMembers_spells {level : Nat} {members : List (List Char × Json)}
    (some_member : members ≠ []) (names : ∀ member ∈ members, Quotable member.1)
    (each : ∀ member ∈ members, Spells member.2 (member.2.prettyAt level)) :
    SpellsMembers members (prettyMembers level members) := by
  induction members with
  | nil => exact absurd rfl some_member
  | cons member rest ih =>
    obtain ⟨name, value⟩ := member
    obtain ⟨quotable, laterNames⟩ := List.forall_mem_cons.mp names
    obtain ⟨first, later⟩ := List.forall_mem_cons.mp each
    cases rest with
    | nil =>
      rw [prettyMembers, List.append_assoc, member_text, ← List.append_assoc]
      exact .last (newLine_blanks level) quotable blank_blanks first (newLine_blanks _)
    | cons next rest =>
      have others := ih (List.cons_ne_nil _ _) laterNames later
      have spelled :=
        SpellsMembers.more (newLine_blanks level) quotable blank_blanks first nil_blanks others
      rw [List.append_nil] at spelled
      rw [prettyMembers, member_text]
      exact spelled

theorem Printable.pretty_spells {j : Json} (printable : Printable j) (level : Nat) :
    Spells j (j.prettyAt level) := by
  induction printable generalizing level with
  | null =>
    rw [prettyAt]
    exact .null
  | bool value =>
    cases value with
    | false =>
      rw [prettyAt]
      exact .no
    | true =>
      rw [prettyAt]
      exact .yes
  | number token =>
    rw [prettyAt]
    exact .number token
  | string quotable =>
    rw [prettyAt]
    exact .string quotable
  | @array items each ih =>
    cases items with
    | nil =>
      rw [prettyAt]
      exact .noItems
    | cons item rest =>
      rw [prettyAt]
      apply Spells.array
      apply prettyItems_spells (List.cons_ne_nil _ _)
      intro item listed
      exact ih item listed (level + 1)
  | @object members names each ih =>
    cases members with
    | nil =>
      rw [prettyAt]
      exact .noMembers
    | cons member rest =>
      rw [prettyAt]
      apply Spells.object
      apply prettyMembers_spells (List.cons_ne_nil _ _) names
      intro member listed
      exact ih member listed (level + 1)

theorem compactItems_spells {items : List Json} (some_item : items ≠ [])
    (each : ∀ item ∈ items, Spells item item.compact) : SpellsItems items (compactItems items) := by
  induction items with
  | nil => exact absurd rfl some_item
  | cons item rest ih =>
    obtain ⟨first, later⟩ := List.forall_mem_cons.mp each
    cases rest with
    | nil =>
      have spelled := SpellsItems.last nil_blanks first nil_blanks
      rw [List.nil_append, List.append_nil] at spelled
      rwa [compactItems]
    | cons next rest =>
      have others := ih (List.cons_ne_nil _ _) later
      have spelled := SpellsItems.more nil_blanks first nil_blanks others
      rw [List.nil_append, List.append_nil] at spelled
      rwa [compactItems]

theorem compactMembers_spells {members : List (List Char × Json)} (some_member : members ≠ [])
    (names : ∀ member ∈ members, Quotable member.1)
    (each : ∀ member ∈ members, Spells member.2 member.2.compact) :
    SpellsMembers members (compactMembers members) := by
  induction members with
  | nil => exact absurd rfl some_member
  | cons member rest ih =>
    obtain ⟨name, value⟩ := member
    obtain ⟨quotable, laterNames⟩ := List.forall_mem_cons.mp names
    obtain ⟨first, later⟩ := List.forall_mem_cons.mp each
    cases rest with
    | nil =>
      have spelled := SpellsMembers.last nil_blanks quotable nil_blanks first nil_blanks
      rw [compactMembers]
      simpa only [List.nil_append, List.append_nil, List.append_assoc, List.cons_append] using
        spelled
    | cons next rest =>
      have others := ih (List.cons_ne_nil _ _) laterNames later
      have spelled := SpellsMembers.more nil_blanks quotable nil_blanks first nil_blanks others
      rw [compactMembers]
      simpa only [List.nil_append, List.append_nil, List.append_assoc, List.cons_append] using
        spelled

theorem Printable.compact_spells {j : Json} (printable : Printable j) : Spells j j.compact := by
  induction printable with
  | null =>
    rw [compact]
    exact .null
  | bool value =>
    cases value with
    | false =>
      rw [compact]
      exact .no
    | true =>
      rw [compact]
      exact .yes
  | number token =>
    rw [compact]
    exact .number token
  | string quotable =>
    rw [compact]
    exact .string quotable
  | @array items each ih =>
    rw [compact]
    cases items with
    | nil =>
      rw [compactItems]
      exact .noItems
    | cons item rest => exact .array (compactItems_spells (List.cons_ne_nil _ _) ih)
  | @object members names each ih =>
    rw [compact]
    cases members with
    | nil =>
      rw [compactMembers]
      exact .noMembers
    | cons member rest => exact .object (compactMembers_spells (List.cons_ne_nil _ _) names ih)

/-- What is printed on one line is read as what was printed. -/
theorem parse?_compact {j : Json} (printable : Printable j) : parse? j.compact = some j :=
  parse?_spelled printable.compact_spells

/-- What is printed on lines of its own is read as what was printed. -/
theorem parse?_pretty {j : Json} (printable : Printable j) : parse? j.pretty = some j :=
  parse?_spelled (printable.pretty_spells 0)

end Retrieval.Json
