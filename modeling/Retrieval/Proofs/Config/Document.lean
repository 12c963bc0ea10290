import Retrieval.Config.Document
import Retrieval.Proofs.Json.Doubles
import Retrieval.Proofs.Json.Fields
import Retrieval.Proofs.Traversal

/-!
Documents of configurations. The document of a configuration is read as that configuration, and
after deleting any members as the one in which these have their defaults, which is valid if the
first one was (`Config.ofDocument_leaving`).
-/
namespace Retrieval

/-- The members of a document that may be left out. -/
inductive Member where
  | index
  | search
  | overfetch
  | ranker
  | kernel
  | gain
  | registry
  | session
  | timeToLive
  | poolSize
  | expires
  | reapInterval
  | remembered
  | descriptors
  | results
  | resultLabel
deriving DecidableEq

/-- The names on the way to a member. -/
def Member.path : Member → List String
  | index => ["index"]
  | search => ["index", "hash_index"]
  | overfetch => ["index", "overfetch_factor"]
  | ranker => ["ranker"]
  | kernel => ["ranker", "kernel"]
  | gain => ["ranker", "gain"]
  | registry => ["manager"]
  | session => ["manager", "session"]
  | timeToLive => ["manager", "session", "ttl_seconds"]
  | poolSize => ["manager", "session", "pool_size"]
  | expires => ["manager", "expiration_enabled"]
  | reapInterval => ["manager", "reap_interval_seconds"]
  | remembered => ["manager", "retired_capacity"]
  | descriptors => ["descriptor_store"]
  | results => ["classification_store"]
  | resultLabel => ["result_label"]

theorem Member.path_injective {a b : Member} (same : a.path = b.path) : a = b := by
  cases a <;> cases b <;> first | rfl | exact absurd same (by decide)

/-- Whether a path leads to one of these members. -/
def leadsTo (deleted : List Member) (path : List String) : Bool :=
  deleted.any fun member => member.path = path

theorem leadsTo_path (deleted : List Member) (member : Member) :
    leadsTo deleted member.path = true ↔ member ∈ deleted := by
  rw [leadsTo, List.any_eq_true]
  constructor
  · rintro ⟨other, listed, same⟩
    rwa [← Member.path_injective (of_decide_eq_true same)]
  · exact fun listed => ⟨member, listed, decide_eq_true rfl⟩

/-- No member that may be left out is in a choice. -/
theorem leadsTo_choice (deleted : List Member) {choice : List String}
    (choices : choice = ["index", "hash_index"] ∨ choice = ["descriptor_store"] ∨
      choice = ["classification_store"]) (name : String) (path : List String) :
    leadsTo deleted (choice ++ name :: path) = false := by
  rw [leadsTo, List.any_eq_false]
  intro member _
  rcases choices with rfl | rfl | rfl <;> cases member <;> simp [Member.path]

namespace CodeSearch

theorem toJson_without {gone : List String → Bool} (s : CodeSearch)
    (nothing : ∀ name path, gone (name :: path) = false) : s.toJson.without gone = s.toJson := by
  cases s with
  | ballTree leafSize =>
    refine Json.without_ofMembers_self nothing ?_
    simp [Json.ofString, Json.ofNat, Json.without]
  | linear =>
    refine Json.without_ofMembers_self nothing ?_
    simp [Json.ofString, Json.without]

theorem ofJson?_toJson {s : CodeSearch} (depth : Nat)
    (fits : ∀ leafSize, s = .ballTree leafSize → leafSize < 2 ^ 64) :
    ofJson? (depth + 1) s.toJson = some s := by
  cases s with
  | ballTree leafSize =>
    have fits := fits leafSize rfl
    rw [ofJson?, toJson, Json.kind?_ofMembers (by simp) (by simp [Json.ofNat_readable depth fits])]
    simp only [Option.bind_eq_bind, Option.bind_some, Json.allFields?_single, Json.nat?_ofNat fits]
    rfl
  | linear =>
    rw [ofJson?, toJson, Json.kind?_ofMembers (by simp) (by simp)]
    rfl

end CodeSearch

namespace Backend

theorem toJson_without {gone : List String → Bool} (b : Backend)
    (nothing : ∀ name path, gone (name :: path) = false) : b.toJson.without gone = b.toJson := by
  cases b <;> refine Json.without_ofMembers_self nothing ?_ <;> simp [Json.ofString, Json.without]

theorem ofJson?_toJson (depth : Nat) (b : Backend) : ofJson? (depth + 1) b.toJson = some b := by
  cases b with
  | memory =>
    rw [ofJson?, toJson, Json.kind?_ofMembers (by simp) (by simp)]
    rfl
  | folder root =>
    rw [ofJson?, toJson, Json.kind?_ofMembers (by simp) (by simp [Json.ofString_readable])]
    simp only [Option.bind_eq_bind, Option.bind_some, Json.allFields?_single, Json.string?_ofString]
    rfl
  | database path =>
    rw [ofJson?, toJson, Json.kind?_ofMembers (by simp) (by simp [Json.ofString_readable])]
    simp only [Option.bind_eq_bind, Option.bind_some, Json.allFields?_single, Json.string?_ofString]
    rfl

end Backend

/-! Records whose members are left out -/

theorem Kernel.ofJson?_toJson (k : Kernel) : ofJson? k.toJson = some k := by
  have named (s : String) : (Json.ofString s).name? = some s := Json.string?_ofString s
  cases k with
  | angular =>
    rw [ofJson?, toJson, named]
    rfl
  | histogramIntersection =>
    rw [ofJson?, toJson, named]
    rfl

variable {gone : List String → Bool}

/-- A number has no members to leave out. -/
theorem nat?_without (gone : List String → Bool) {n : Nat} (fits : n < 2 ^ 64) :
    ((Json.ofNat n).without gone).nat? = some n := Json.nat?_ofNat fits

namespace IndexSettings

theorem ofJson?_without {s : IndexSettings}
    (nothing : ∀ name path, gone ("hash_index" :: name :: path) = false)
    (leafSize : ∀ n, s.search = .ballTree n → n < 2 ^ 64) (overfetch : s.overfetch < 2 ^ 64) :
    ofJson? (s.toJson.without gone) = some {
      search := if gone ["hash_index"] then (default : IndexSettings).search else s.search
      overfetch := if gone ["overfetch_factor"] then (default : IndexSettings).overfetch
        else s.overfetch } := by
  have fields : (s.toJson.without gone).fields? ["hash_index", "overfetch_factor"] = _ :=
    Json.fields?_without gone [("hash_index", s.search.toJson),
      ("overfetch_factor", .ofNat s.overfetch)] (by simp)
  have search : CodeSearch.ofJson? 125 (s.search.toJson.without
      fun path => gone ("hash_index" :: path)) = some s.search := by
    rw [CodeSearch.toJson_without s.search nothing]
    exact CodeSearch.ofJson?_toJson 124 leafSize
  rw [ofJson?, fields]
  simp only [List.map_cons, List.map_nil, Option.bind_eq_bind, Option.bind_some,
    Json.orDefault_ite _ search, Json.orDefault_ite _ (nat?_without _ overfetch)]
  rfl

end IndexSettings

namespace KernelRanker

theorem ofJson?_without {r : KernelRanker} (legible : Json.Legible r.gain) :
    ofJson? (r.toJson.without gone) = some {
      kernel := if gone ["kernel"] then (default : KernelRanker).kernel else r.kernel
      gain := if gone ["gain"] then (default : KernelRanker).gain else r.gain } := by
  have fields : (r.toJson.without gone).fields? ["kernel", "gain"] = _ :=
    Json.fields?_without gone [("kernel", r.kernel.toJson), ("gain", .ofDouble r.gain)] (by simp)
  have kernel : Kernel.ofJson? (r.kernel.toJson.without fun path => gone ("kernel" :: path)) =
      some r.kernel := by
    rw [← Kernel.ofJson?_toJson r.kernel]
    cases r.kernel <;> rfl
  have gain : ((Json.ofDouble r.gain).without fun path => gone ("gain" :: path)).double? =
      some r.gain := by
    rw [Json.ofDouble_without]
    exact legible
  rw [ofJson?, fields]
  simp only [List.map_cons, List.map_nil, Option.bind_eq_bind, Option.bind_some,
    Json.orDefault_ite _ kernel, Json.orDefault_ite _ gain]
  rfl

end KernelRanker

namespace SessionSettings

theorem ofJson?_without {s : SessionSettings} (timeToLive : s.timeToLive < 2 ^ 64)
    (poolSize : s.poolSize < 2 ^ 64) :
    ofJson? (s.toJson.without gone) = some {
      timeToLive := if gone ["ttl_seconds"] then (default : SessionSettings).timeToLive
        else s.timeToLive
      poolSize := if gone ["pool_size"] then (default : SessionSettings).poolSize
        else s.poolSize } := by
  have fields : (s.toJson.without gone).fields? ["ttl_seconds", "pool_size"] = _ :=
    Json.fields?_without gone [("ttl_seconds", .ofNat s.timeToLive),
      ("pool_size", .ofNat s.poolSize)] (by simp)
  rw [ofJson?, fields]
  simp only [List.map_cons, List.map_nil, Option.bind_eq_bind, Option.bind_some,
    Json.orDefault_ite _ (nat?_without _ timeToLive), Json.orDefault_ite _ (nat?_without _ poolSize)]
  rfl

end SessionSettings

namespace RegistrySettings

theorem ofJson?_without {s : RegistrySettings} (timeToLive : s.session.timeToLive < 2 ^ 64)
    (poolSize : s.session.poolSize < 2 ^ 64) (reapInterval : s.reapInterval < 2 ^ 64)
    (remembered : s.remembered < 2 ^ 64) :
    ofJson? (s.toJson.without gone) = some {
      session := if gone ["session"] then (default : RegistrySettings).session else {
        timeToLive := if gone ["session", "ttl_seconds"] then (default : SessionSettings).timeToLive
          else s.session.timeToLive
        poolSize := if gone ["session", "pool_size"] then (default : SessionSettings).poolSize
          else s.session.poolSize }
      expires := if gone ["expiration_enabled"] then (default : RegistrySettings).expires
        else s.expires
      reapInterval := if gone ["reap_interval_seconds"]
        then (default : RegistrySettings).reapInterval else s.reapInterval
      remembered := if gone ["retired_capacity"] then (default : RegistrySettings).remembered
        else s.remembered } := by
  have fields : (s.toJson.without gone).fields? ["session", "expiration_enabled",
      "reap_interval_seconds", "retired_capacity"] = _ :=
    Json.fields?_without gone [("session", s.session.toJson), ("expiration_enabled", .bool s.expires),
      ("reap_interval_seconds", .ofNat s.reapInterval), ("retired_capacity", .ofNat s.remembered)]
      (by simp)
  have expires (gone : List String → Bool) :
      ((Json.bool s.expires).without gone).bool? = some s.expires := rfl
  rw [ofJson?, fields]
  simp only [List.map_cons, List.map_nil, Option.bind_eq_bind, Option.bind_some,
    Json.orDefault_ite _ (SessionSettings.ofJson?_without timeToLive poolSize),
    Json.orDefault_ite _ (expires _), Json.orDefault_ite _ (nat?_without _ reapInterval),
    Json.orDefault_ite _ (nat?_without _ remembered)]
  rfl

end RegistrySettings

namespace Config

/-- The numbers of a configuration fit the 64 bits that they are kept in. -/
structure Sized (c : Config) : Prop where
  leafSize : ∀ n, c.index.search = .ballTree n → n < 2 ^ 64
  overfetch : c.index.overfetch < 2 ^ 64
  timeToLive : c.registry.session.timeToLive < 2 ^ 64
  poolSize : c.registry.session.poolSize < 2 ^ 64
  reapInterval : c.registry.reapInterval < 2 ^ 64
  remembered : c.registry.remembered < 2 ^ 64

/-- The configuration in which the deleted members have the defaults of their records. -/
def leaving (c : Config) (deleted : List Member) : Config where
  index := if .index ∈ deleted then (default : Config).index else {
    search := if .search ∈ deleted then (default : IndexSettings).search else c.index.search
    overfetch := if .overfetch ∈ deleted then (default : IndexSettings).overfetch
      else c.index.overfetch }
  ranker := if .ranker ∈ deleted then (default : Config).ranker else {
    kernel := if .kernel ∈ deleted then (default : KernelRanker).kernel else c.ranker.kernel
    gain := if .gain ∈ deleted then (default : KernelRanker).gain else c.ranker.gain }
  registry := if .registry ∈ deleted then (default : Config).registry else {
    session := if .session ∈ deleted then (default : RegistrySettings).session else {
      timeToLive := if .timeToLive ∈ deleted then (default : SessionSettings).timeToLive
        else c.registry.session.timeToLive
      poolSize := if .poolSize ∈ deleted then (default : SessionSettings).poolSize
        else c.registry.session.poolSize }
    expires := if .expires ∈ deleted then (default : RegistrySettings).expires
      else c.registry.expires
    reapInterval := if .reapInterval ∈ deleted then (default : RegistrySettings).reapInterval
      else c.registry.reapInterval
    remembered := if .remembered ∈ deleted then (default : RegistrySettings).remembered
      else c.registry.remembered }
  descriptors := if .descriptors ∈ deleted then (default : Config).descriptors else c.descriptors
  results := if .results ∈ deleted then (default : Config).results else c.results
  resultLabel := if .resultLabel ∈ deleted then (default : Config).resultLabel else c.resultLabel

theorem ofJson?_without {c : Config} (sized : c.Sized) (legible : Json.Legible c.ranker.gain)
    (deleted : List Member) :
    ofJson? (c.toJson.without (leadsTo deleted)) = some (c.leaving deleted) := by
  have fields : (c.toJson.without (leadsTo deleted)).fields? ["index", "ranker", "manager",
      "descriptor_store", "classification_store", "result_label"] = _ :=
    Json.fields?_without (leadsTo deleted) [("index", c.index.toJson), ("ranker", c.ranker.toJson),
      ("manager", c.registry.toJson), ("descriptor_store", c.descriptors.toJson),
      ("classification_store", c.results.toJson),
      ("result_label", c.resultLabel.elim .null .ofString)] (by simp)
  have index : IndexSettings.ofJson? (c.index.toJson.without
      fun path => leadsTo deleted ("index" :: path)) = _ :=
    IndexSettings.ofJson?_without (leadsTo_choice deleted (.inl rfl)) sized.leafSize sized.overfetch
  have registry : RegistrySettings.ofJson? (c.registry.toJson.without
      fun path => leadsTo deleted ("manager" :: path)) = _ :=
    RegistrySettings.ofJson?_without sized.timeToLive sized.poolSize sized.reapInterval
      sized.remembered
  have descriptors : Backend.ofJson? 126 (c.descriptors.toJson.without
      fun path => leadsTo deleted ("descriptor_store" :: path)) = some c.descriptors := by
    rw [Backend.toJson_without _ (leadsTo_choice deleted (.inr (.inl rfl)))]
    exact Backend.ofJson?_toJson 125 c.descriptors
  have results : Backend.ofJson? 126 (c.results.toJson.without
      fun path => leadsTo deleted ("classification_store" :: path)) = some c.results := by
    rw [Backend.toJson_without _ (leadsTo_choice deleted (.inr (.inr rfl)))]
    exact Backend.ofJson?_toJson 125 c.results
  have resultLabel (gone : List String → Bool) : Json.optional Json.string?
      ((c.resultLabel.elim Json.null Json.ofString).without gone) = some c.resultLabel := by
    cases c.resultLabel with
    | none => rfl
    | some label => exact congrArg (Option.map some) (Json.string?_ofString label)
  rw [ofJson?, fields]
  simp only [List.map_cons, List.map_nil, Option.bind_eq_bind, Option.bind_some,
    Json.orDefault_ite _ index, Json.orDefault_ite _ (KernelRanker.ofJson?_without legible),
    Json.orDefault_ite _ registry, Json.orDefault_ite _ descriptors,
    Json.orDefault_ite _ results, Json.orDefault_ite _ (resultLabel _)]
  simp only [leaving, ← leadsTo_path]
  rfl

theorem toJson_printable (c : Config) : c.toJson.Printable := by
  have backend (b : Backend) : b.toJson.Printable := by
    cases b <;> refine Json.ofMembers_printable ?_ <;> simp [Json.ofString_printable]
  have search : c.index.search.toJson.Printable := by
    cases c.index.search <;> refine Json.ofMembers_printable ?_ <;>
      simp [Json.ofString_printable, Json.ofNat_printable]
  have kernel : c.ranker.kernel.toJson.Printable := by
    cases c.ranker.kernel <;> exact Json.ofString_printable _
  have label : (c.resultLabel.elim Json.null Json.ofString).Printable := by
    cases c.resultLabel with
    | none => exact .null
    | some label => exact Json.ofString_printable label
  have index : c.index.toJson.Printable := by
    refine Json.ofMembers_printable ?_
    simp [search, Json.ofNat_printable]
  have ranker : c.ranker.toJson.Printable := by
    refine Json.ofMembers_printable ?_
    simp [kernel, Json.ofDouble_printable]
  have session : c.registry.session.toJson.Printable := by
    refine Json.ofMembers_printable ?_
    simp [Json.ofNat_printable]
  have registry : c.registry.toJson.Printable := by
    refine Json.ofMembers_printable ?_
    simp [session, Json.ofNat_printable, Json.Printable.bool]
  refine Json.ofMembers_printable ?_
  simp [index, ranker, registry, backend, label]

/-! Validity -/

theorem validate_ok_iff {c : Config} :
    c.validate = .ok () ↔ (c.index.overfetch ≠ 0 ∧ c.index.search ≠ .ballTree 0) ∧
      (c.ranker.gain.isFinite = true ∧ 0 < c.ranker.gain.value) ∧
      (c.registry.session.poolSize ≠ 0 ∧ c.registry.reapInterval ≠ 0) ∧
      c.resultLabel ≠ some "" ∧ checkDatabases c.descriptors c.results = .ok () := by
  have index : c.index.validate = .ok () ↔
      c.index.overfetch ≠ 0 ∧ c.index.search ≠ .ballTree 0 := by
    rw [IndexSettings.validate]
    split
    · simp [*]
    · split <;> simp [*]
  have ranker : c.ranker.validate = .ok () ↔
      c.ranker.gain.isFinite = true ∧ 0 < c.ranker.gain.value := by
    rw [KernelRanker.validate]
    split <;> simp [*]
  have registry : c.registry.validate = .ok () ↔
      c.registry.session.poolSize ≠ 0 ∧ c.registry.reapInterval ≠ 0 := by
    rw [RegistrySettings.validate, check_ok_iff, SessionSettings.validate]
    refine and_congr ?_ ?_
    · split <;> simp [*]
    · split <;> simp [*, throw, throwThe, MonadExceptOf.throw, pure, Except.pure]
  rw [validate, check_ok_iff, check_ok_iff, check_ok_iff, index, ranker, registry]
  refine and_congr_right fun _ => and_congr_right fun _ => and_congr_right fun _ => ?_
  by_cases unnamed : c.resultLabel = some ""
  · simp [unnamed, throw, throwThe, MonadExceptOf.throw, bind, Except.bind]
  · simp [unnamed]

/-- No default makes a valid configuration invalid. -/
theorem validate_leaving {c : Config} (valid : c.validate = .ok ()) (deleted : List Member) :
    (c.leaving deleted).validate = .ok () := by
  obtain ⟨⟨overfetch, search⟩, gain, ⟨poolSize, reapInterval⟩, label, databases⟩ :=
    validate_ok_iff.mp valid
  have defaultGain : (default : KernelRanker).gain.isFinite = true ∧
      0 < (default : KernelRanker).gain.value := by decide +kernel
  refine validate_ok_iff.mpr ⟨⟨?_, ?_⟩, ?_, ⟨?_, ?_⟩, ?_, ?_⟩
  all_goals simp only [leaving]
  · split
    · decide
    · dsimp only
      split
      · decide
      · exact overfetch
  · split
    · decide
    · dsimp only
      split
      · decide
      · exact search
  · split
    · exact defaultGain
    · dsimp only
      split
      · exact defaultGain
      · exact gain
  · split
    · decide
    · dsimp only
      split
      · decide
      · dsimp only
        split
        · decide
        · exact poolSize
  · split
    · decide
    · dsimp only
      split
      · decide
      · exact reapInterval
  · split
    · decide
    · exact label
  · split
    · rfl
    · split
      · cases c.descriptors <;> rfl
      · exact databases

/-! Documents -/

/-- A text that says what a document says, but for the members that are deleted. -/
def LeavesOut (document text : String) (deleted : List Member) : Prop :=
  ∃ j, Json.parse? document.toList = some j ∧
    Json.parse? text.toList = some (j.without (leadsTo deleted))

theorem parse?_document (c : Config) : Json.parse? c.document.toList = some c.toJson := by
  rw [document, String.toList_ofList, Json.parse?_pretty c.toJson_printable]

theorem leavesOut_nothing (c : Config) : LeavesOut c.document c.document [] := by
  refine ⟨c.toJson, c.parse?_document, ?_⟩
  have nothing : leadsTo [] = fun _ => false := rfl
  rw [nothing, Json.without_nothing, c.parse?_document]

/-- The document of a valid configuration can be left without any of its members, and is then read
as the configuration with the defaults of these members; as it is, it is read as the configuration
itself. -/
theorem ofDocument_leaving {c : Config} (valid : c.validate = .ok ()) (sized : c.Sized)
    (legible : Json.Legible c.ranker.gain) (deleted : List Member) :
    (∃ text, LeavesOut c.document text deleted) ∧
      (∀ text, LeavesOut c.document text deleted → ofDocument text = .ok (c.leaving deleted)) ∧
      ofDocument c.document = .ok c := by
  have reads (deleted : List Member) (text : String) (left : LeavesOut c.document text deleted) :
      ofDocument text = .ok (c.leaving deleted) := by
    obtain ⟨j, whole, rest⟩ := left
    rw [c.parse?_document] at whole
    cases whole
    rw [ofDocument, rest, Option.bind_some, ofJson?_without sized legible deleted]
    exact check_ok_iff.mpr ⟨validate_leaving valid deleted, rfl⟩
  refine ⟨?_, reads deleted, reads [] c.document c.leavesOut_nothing⟩
  refine ⟨String.ofList (c.toJson.without (leadsTo deleted)).pretty, c.toJson, c.parse?_document, ?_⟩
  rw [String.toList_ofList, Json.parse?_pretty (c.toJson_printable.without _)]

/-- Settings with names that have to be quoted. -/
def quotedConfig : Config where
  index := ⟨.linear, 3⟩
  ranker := ⟨.histogramIntersection, ⟨0x3fe0000000000000⟩⟩
  registry := ⟨⟨5, 7⟩, true, 2, 0⟩
  descriptors := .folder "a\"\n"
  results := .database "b"
  resultLabel := some "\\"

theorem ofDocument_leaving_quoted :
    ∃ text, LeavesOut quotedConfig.document text [.search, .session, .results] ∧
      ofDocument text = .ok { quotedConfig with
        index := ⟨.ballTree 40, 3⟩
        registry := ⟨⟨1800, 200⟩, true, 2, 0⟩
        results := .memory } := by
  have valid : quotedConfig.validate = .ok () := by decide +kernel
  have sized : quotedConfig.Sized := by
    constructor
    · nofun
    all_goals decide
  obtain ⟨⟨text, left⟩, reads, _⟩ :=
    ofDocument_leaving valid sized (by decide +kernel) [.search, .session, .results]
  exact ⟨text, left, reads text left⟩

end Config

end Retrieval
