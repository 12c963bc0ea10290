import Retrieval.Hasher.Document
import Retrieval.Proofs.Json.Doubles
import Retrieval.Proofs.Json.Fields

/-!
Documents of hyperplanes. What is written is read as it was, whether or not it fits together:
reading looks at each table by itself (`Hyperplanes.ofJson?_parse?_compact`).
-/
namespace Retrieval.Hyperplanes
variable {dimensions : List Nat} {entries : List Single} {h : Hyperplanes}

/-- Numbers that are read from their texts as they were. -/
def Legible (entries : List Single) : Prop := ∀ x ∈ entries, (Json.ofSingle x).single? = some x

/-- Dimensions that fit into words and call for a number of entries that does. -/
structure Addressed (dimensions : List Nat) : Prop where
  each : ∀ n ∈ dimensions, n < 2 ^ 64
  all : (dimensions.filter (· ≠ 0)).foldl (· * ·) 1 < 2 ^ 63

theorem readDimensions_array (each : ∀ n ∈ dimensions, n < 2 ^ 64) :
    readDimensions dimensions.length (.array (dimensions.map .ofNat)) = some dimensions := by
  have read : (Json.array (dimensions.map .ofNat)).listOf Json.nat? = some dimensions := by
    apply Json.listOf_array
    intro n listed
    exact Json.nat?_ofNat (each n listed)
  rw [readDimensions, read]
  simp

theorem isVersion_one : isVersion (.ofNat 1) = true := by
  rw [isVersion, Json.nat?_ofNat (by decide)]
  rfl

theorem readTable_tableJson (addressed : Addressed dimensions) (legible : Legible entries) :
    readTable dimensions.length (tableJson dimensions entries) = some (dimensions, entries) := by
  have numbers : (Json.array (entries.map .ofSingle)).listOf Json.single? = some entries :=
    Json.listOf_array legible
  have members := Json.members?_ofMembers [("v", .ofNat 1), ("dim", .array (dimensions.map .ofNat)),
    ("data", .array (entries.map .ofSingle))]
  have all := addressed.all
  unfold readTable
  rw [tableJson]
  rw [Json.ofMembers] at members ⊢
  simp only [members, Json.valuesOf_cons, Option.bind_eq_bind, Option.bind_some]
  simpa [readDimensions_array addressed.each, numbers, isVersion_one, Json.valuesOf] using all

theorem readNormals_tableJson {m : Matrix} (addressed : Addressed [m.rows, m.columns])
    (legible : Legible m.entries) :
    readNormals (tableJson [m.rows, m.columns] m.entries) = some m := by
  have table := readTable_tableJson addressed legible
  rw [List.length_cons, List.length_singleton] at table
  rw [readNormals, table]
  show Matrix.of? m.rows m.columns m.entries = some m
  rw [Matrix.of?, dif_pos m.shaped]

theorem readMean_tableJson {mean : Descriptor} (addressed : Addressed [mean.length])
    (legible : Legible mean) : readMean (tableJson [mean.length] mean) = some mean := by
  have table := readTable_tableJson addressed legible
  rw [List.length_singleton] at table
  rw [readMean, table]
  exact if_pos rfl

/-- Planes whose numbers fit into a document. -/
structure Writable (h : Hyperplanes) : Prop where
  normals : Addressed [h.bits, h.dimension] ∧ Legible h.normals.entries
  mean : ∀ mean, h.mean = some mean → Addressed [mean.length] ∧ Legible mean

/-- The document of planes is read as these planes, whether or not they fit together. -/
theorem ofJson?_toJson (writable : h.Writable) : ofJson? h.toJson = some h := by
  obtain ⟨addressed, legible⟩ := writable.normals
  have normals := readNormals_tableJson addressed legible
  have mean : (h.mean.elim .null fun mean => tableJson [mean.length] mean).optional readMean =
      some h.mean := by
    cases given : h.mean with
    | none => rfl
    | some mean =>
      obtain ⟨addressed, legible⟩ := writable.mean mean given
      have read := readMean_tableJson addressed legible
      exact congrArg (Option.map some) read
  have fields : h.toJson.allFields? ["projections", "mean"] =
      some [some (tableJson [h.bits, h.dimension] h.normals.entries),
        some (h.mean.elim .null fun mean => tableJson [mean.length] mean)] := by
    show (Json.members? (.ofMembers _)).bind _ = _
    rw [Json.members?_ofMembers]
    rfl
  rw [ofJson?, fields]
  show (readNormals (tableJson [h.normals.rows, h.normals.columns] h.normals.entries)).bind _ = _
  rw [normals]
  simp only [Option.bind_some, Option.getD_some, Option.bind_eq_bind, mean]
  rfl

theorem tableJson_printable (dimensions : List Nat) (entries : List Single) :
    (tableJson dimensions entries).Printable := by
  apply Json.ofMembers_printable
  simp only [List.forall_mem_cons, List.not_mem_nil, false_imp_iff, implies_true, and_true]
  refine ⟨Json.ofNat_printable 1, .array ?_, .array ?_⟩
  · rintro _ listed
    obtain ⟨n, _, rfl⟩ := List.mem_map.mp listed
    exact Json.ofNat_printable n
  · rintro _ listed
    obtain ⟨x, _, rfl⟩ := List.mem_map.mp listed
    exact Json.ofSingle_printable x

theorem toJson_printable (h : Hyperplanes) : h.toJson.Printable := by
  apply Json.ofMembers_printable
  simp only [List.forall_mem_cons, List.not_mem_nil, false_imp_iff, implies_true, and_true]
  refine ⟨tableJson_printable _ _, ?_⟩
  cases h.mean with
  | none => exact .null
  | some mean => exact tableJson_printable _ _

/-- Planes whose numbers survive writing come from a document. -/
theorem ofJson?_parse?_compact (writable : h.Writable) :
    (Json.parse? h.toJson.compact).bind ofJson? = some h := by
  rw [Json.parse?_compact h.toJson_printable]
  exact ofJson?_toJson writable

end Retrieval.Hyperplanes
