import Retrieval.Proofs.Json.Printing

/-!
Records of which some members are left out, and choices. The fields of a record that is written as
an object are read as they were given, and those that are left out as missing
(`fields?_without`).
-/
namespace Retrieval.Json

/-- The name that the text of a member's name stands for. -/
def nameOf (raw : List Char) : String := String.ofList ((unescape raw).getD raw)

mutual

/-- A value without the members that are gone, each known by the names on the way to it. -/
def without (gone : List String → Bool) : Json → Json
  | .object members => .object (membersWithout gone members)
  | value => value

def membersWithout (gone : List String → Bool) : List (List Char × Json) → List (List Char × Json)
  | [] => []
  | (raw, value) :: rest =>
    if gone [nameOf raw] then membersWithout gone rest
    else (raw, value.without fun path => gone (nameOf raw :: path)) :: membersWithout gone rest

end

@[simp] theorem nameOf_escape (name : String) : nameOf (escape name.toList) = name := by
  rw [nameOf, unescape_escape, Option.getD_some, String.ofList_toList]

/-- The members that are not gone, each with what is left of its value. -/
def kept (gone : List String → Bool) (members : List (String × Json)) : List (String × Json) :=
  (members.filter fun member => !gone [member.1]).map fun member =>
    (member.1, member.2.without fun path => gone (member.1 :: path))

theorem kept_cons (gone : List String → Bool) (member : String × Json)
    (rest : List (String × Json)) :
    kept gone (member :: rest) =
      if gone [member.1] then kept gone rest
      else (member.1, member.2.without fun path => gone (member.1 :: path)) :: kept gone rest := by
  rw [kept, List.filter_cons]
  cases gone [member.1] <;> rfl

theorem membersWithout_eq (gone : List String → Bool) (members : List (List Char × Json)) :
    membersWithout gone members = (members.filter fun member => !gone [nameOf member.1]).map
      fun member => (member.1, member.2.without fun path => gone (nameOf member.1 :: path)) := by
  induction members with
  | nil => rfl
  | cons member rest ih =>
    rw [membersWithout, ih, List.filter_cons]
    cases gone [nameOf member.1] <;> rfl

theorem without_ofMembers (gone : List String → Bool) (members : List (String × Json)) :
    (ofMembers members).without gone = ofMembers (kept gone members) := by
  rw [ofMembers, without, membersWithout_eq, ofMembers, kept, List.filter_map, List.map_map,
    List.map_map]
  simp only [Function.comp_def, nameOf_escape]

/-- A record of plain values is left as it is where nothing in it is gone. -/
theorem without_ofMembers_self {gone : List String → Bool} {members : List (String × Json)}
    (nothing : ∀ name path, gone (name :: path) = false)
    (plain : ∀ member ∈ members, ∀ gone, member.2.without gone = member.2) :
    (ofMembers members).without gone = ofMembers members := by
  rw [without_ofMembers]
  congr 1
  induction members with
  | nil => rfl
  | cons member rest ih =>
    obtain ⟨first, later⟩ := List.forall_mem_cons.mp plain
    rw [kept_cons, nothing, first, ih later]
    rfl

theorem ofDouble_without (gone : List String → Bool) (x : Double) :
    (ofDouble x).without gone = ofDouble x := by
  rw [ofDouble]
  split <;> rfl

/-- What is left of a value can be printed if the value can. -/
theorem Printable.without {j : Json} (printable : Printable j) (gone : List String → Bool) :
    (j.without gone).Printable := by
  induction printable generalizing gone with
  | null => exact .null
  | bool value => exact .bool value
  | number token => exact .number token
  | string quotable => exact .string quotable
  | array each => exact .array each
  | object names each ih =>
    refine .object ?_ ?_
    · intro member listed
      rw [membersWithout_eq] at listed
      obtain ⟨given, stays, rfl⟩ := List.mem_map.mp listed
      exact names given (List.mem_filter.mp stays).1
    · intro member listed
      rw [membersWithout_eq] at listed
      obtain ⟨given, stays, rfl⟩ := List.mem_map.mp listed
      exact ih given (List.mem_filter.mp stays).1 _

mutual

/-- A value of which nothing is gone is left as it is. -/
theorem without_nothing : ∀ j : Json, (j.without fun _ => false) = j
  | .null => rfl
  | .bool _ => rfl
  | .number _ => rfl
  | .string _ => rfl
  | .array _ => rfl
  | .object members => by rw [without, membersWithout_nothing members]

theorem membersWithout_nothing :
    ∀ members : List (List Char × Json), membersWithout (fun _ => false) members = members
  | [] => rfl
  | (raw, value) :: rest => by
    rw [membersWithout, without_nothing value, membersWithout_nothing rest]
    rfl

end

/-! Fields -/

theorem valuesOf_cons (name : String) (member : String × Json) (rest : List (String × Json)) :
    valuesOf name (member :: rest) =
      if member.1 = name then member.2 :: valuesOf name rest else valuesOf name rest := by
  rw [valuesOf, List.filterMap_cons]
  split <;> rename_i found <;> split at found <;> simp_all [valuesOf]

theorem valuesOf_of_missing {name : String} {members : List (String × Json)}
    (missing : ∀ member ∈ members, member.1 ≠ name) : valuesOf name members = [] := by
  induction members with
  | nil => rfl
  | cons member rest ih =>
    obtain ⟨first, later⟩ := List.forall_mem_cons.mp missing
    rw [valuesOf_cons, if_neg first, ih later]

/-- No member of what is kept has another name than before. -/
theorem exists_of_mem_kept {gone : List String → Bool} {members : List (String × Json)}
    {member : String × Json} (listed : member ∈ kept gone members) :
    ∃ given ∈ members, given.1 = member.1 ∧ gone [given.1] = false := by
  obtain ⟨given, there, rfl⟩ := List.mem_map.mp listed
  obtain ⟨there, stays⟩ := List.mem_filter.mp there
  exact ⟨given, there, rfl, by simpa using stays⟩

/-- Of the members with a name of its own, each that is not gone is looked up as what is left of its
value. -/
theorem lookUp_kept {gone : List String → Bool} {members : List (String × Json)}
    (distinct : (members.map (·.1)).Nodup) {member : String × Json} (listed : member ∈ members) :
    lookUp (kept gone members) member.1 = some (if gone [member.1] then none
      else some (member.2.without fun path => gone (member.1 :: path))) := by
  have values : valuesOf member.1 (kept gone members) = if gone [member.1] then []
      else [member.2.without fun path => gone (member.1 :: path)] := by
    induction members with
    | nil => cases listed
    | cons first rest ih =>
      obtain ⟨apart, distinctRest⟩ := List.nodup_cons.mp distinct
      rw [kept_cons]
      rcases List.mem_cons.mp listed with rfl | later
      · have missing : valuesOf member.1 (kept gone rest) = [] := by
          apply valuesOf_of_missing
          intro other kept same
          obtain ⟨given, there, named, _⟩ := exists_of_mem_kept kept
          exact apart (List.mem_map.mpr ⟨given, there, named.trans same⟩)
        split
        · exact missing
        · rw [valuesOf_cons, if_pos rfl, missing]
      · have other : first.1 ≠ member.1 := fun same =>
          apart (List.mem_map.mpr ⟨member, later, same.symm⟩)
        have found := ih distinctRest later
        split
        · exact found
        · rw [valuesOf_cons, if_neg other, found]
  rw [lookUp, values]
  cases gone [member.1] <;> rfl

/-- The fields of a record are what is left of the members, and missing where they are gone. -/
theorem fields?_without (gone : List String → Bool) (members : List (String × Json))
    (distinct : (members.map (·.1)).Nodup) :
    ((ofMembers members).without gone).fields? (members.map (·.1)) =
      some (members.map fun member => if gone [member.1] then none
        else some (member.2.without fun path => gone (member.1 :: path))) := by
  rw [without_ofMembers]
  show (ofMembers (kept gone members)).members?.bind _ = _
  rw [members?_ofMembers, Option.bind_some]
  apply mapM_map
  intro member listed
  exact lookUp_kept distinct listed

/-- A field that is missing has its default. -/
theorem orDefault_ite {α : Type} {default value : α} {read : Json → Option α} {j : Json}
    (missing : Bool) (reads : read j = some value) :
    orDefault default read (if missing then none else some j) =
      some (if missing then default else value) := by
  cases missing
  · exact reads
  · rfl

/-! Choices -/

theorem ofString_readable (depth : Nat) (s : String) : (ofString s).readable depth = true := by
  rw [ofString, readable, unescape_escape]
  rfl

theorem ofNat_readable (depth : Nat) {n : Nat} (fits : n < 2 ^ 64) :
    (ofNat n).readable depth = true := by
  have read := nat?_ofNat fits
  rw [ofNat, nat?] at read
  rw [ofNat, readable]
  split at read
  · rename_i whole
    show ((NumberParts.ofLiteral _).exact || _) = true
    rw [whole.1, Bool.true_or]
  · cases read

theorem ofMembers_readable {depth : Nat} {members : List (String × Json)}
    (each : ∀ member ∈ members, member.2.readable depth = true) :
    (ofMembers members).readable (depth + 1) = true := by
  rw [ofMembers, readable]
  simp only [Nat.add_sub_cancel]
  induction members with
  | nil => rfl
  | cons member rest ih =>
    obtain ⟨first, later⟩ := List.forall_mem_cons.mp each
    have others := ih later
    simp only [List.map_cons, readableMembers, unescape_escape, first] at others ⊢
    simpa using others

/-- An object with one member `kind` names that kind, and the rest is the other members. -/
theorem kind?_object {depth : Nat} {members : List (List Char × Json)}
    {named : List (String × Json)} {kind : String} (readable : (object members).readable depth = true)
    (names : (object members).members? = some named)
    (only : valuesOf "kind" named = [ofString kind]) :
    (object members).kind? depth = some (kind, .object (members.filter fun member =>
      (unescape member.1).map String.ofList ≠ some "kind")) := by
  rw [kind?, if_pos readable]
  simp only [names, only, Option.bind_eq_bind, Option.bind_some, string?_ofString]
  rfl

theorem kind?_ofMembers {depth : Nat} {kind : String} {members : List (String × Json)}
    (others : ∀ member ∈ members, member.1 ≠ "kind")
    (each : ∀ member ∈ members, member.2.readable depth = true) :
    (ofMembers (("kind", ofString kind) :: members)).kind? (depth + 1) =
      some (kind, ofMembers members) := by
  have readable : (ofMembers (("kind", ofString kind) :: members)).readable (depth + 1) = true :=
    ofMembers_readable (List.forall_mem_cons.mpr ⟨ofString_readable depth kind, each⟩)
  have only : valuesOf "kind" (("kind", ofString kind) :: members) = [ofString kind] := by
    rw [valuesOf_cons, if_pos rfl, valuesOf_of_missing others]
  refine (kind?_object readable (members?_ofMembers _) only).trans ?_
  rw [List.map_cons, List.filter_cons_of_neg (by simp), ofMembers]
  congr 3
  refine List.filter_eq_self.mpr fun member listed => ?_
  obtain ⟨given, there, rfl⟩ := List.mem_map.mp listed
  simpa using others given there

/-- The rest of a choice with one field gives that field. -/
theorem allFields?_single (name : String) (value : Json) :
    (ofMembers [(name, value)]).allFields? [name] = some [some value] := by
  show (ofMembers [(name, value)]).members?.bind _ = _
  rw [members?_ofMembers, Option.bind_some, List.mapM_cons, lookUp, valuesOf_cons, if_pos rfl]
  rfl

end Retrieval.Json
