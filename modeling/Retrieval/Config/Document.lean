import Retrieval.Config.Basic
import Retrieval.Json.Printer
import Retrieval.Json.Reader
import Retrieval.Json.Record

/-!
Configurations as JSON documents. Every member may be left out, at each level, and takes its default
then; what a backend or a search needs to know may not.
-/
namespace Retrieval

namespace CodeSearch

def toJson : CodeSearch → Json
  | ballTree leafSize =>
    .ofMembers [("kind", .ofString "ball_tree"), ("leaf_size", .ofNat leafSize)]
  | linear => .ofMembers [("kind", .ofString "linear")]

def ofJson? (depth : Nat) (value : Json) : Option CodeSearch := do
  match ← value.kind? depth with
  | ("ball_tree", rest) =>
    let [some leafSize] ← rest.allFields? ["leaf_size"] | none
    return ballTree (← leafSize.nat?)
  | ("linear", rest) => if rest.hasNoFields then some linear else none
  | _ => none

end CodeSearch

namespace IndexSettings

def toJson (s : IndexSettings) : Json :=
  .ofMembers [("hash_index", s.search.toJson), ("overfetch_factor", .ofNat s.overfetch)]

def ofJson? (value : Json) : Option IndexSettings := do
  let [search, overfetch] ← value.fields? ["hash_index", "overfetch_factor"] | none
  let d : IndexSettings := default
  return {
    search := ← Json.orDefault d.search (CodeSearch.ofJson? 125) search
    overfetch := ← Json.orDefault d.overfetch Json.nat? overfetch }

end IndexSettings

namespace Kernel

def toJson : Kernel → Json
  | angular => .ofString "angular"
  | histogramIntersection => .ofString "histogram_intersection"

def ofJson? (value : Json) : Option Kernel := do
  match ← value.name? with
  | "angular" => return angular
  | "histogram_intersection" => return histogramIntersection
  | _ => none

end Kernel

namespace KernelRanker

def toJson (r : KernelRanker) : Json :=
  .ofMembers [("kernel", r.kernel.toJson), ("gain", .ofDouble r.gain)]

def ofJson? (value : Json) : Option KernelRanker := do
  let [kernel, gain] ← value.fields? ["kernel", "gain"] | none
  let d : KernelRanker := default
  return {
    kernel := ← Json.orDefault d.kernel Kernel.ofJson? kernel
    gain := ← Json.orDefault d.gain Json.double? gain }

end KernelRanker

namespace SessionSettings

def toJson (s : SessionSettings) : Json :=
  .ofMembers [("ttl_seconds", .ofNat s.timeToLive), ("pool_size", .ofNat s.poolSize)]

def ofJson? (value : Json) : Option SessionSettings := do
  let [timeToLive, poolSize] ← value.fields? ["ttl_seconds", "pool_size"] | none
  let d : SessionSettings := default
  return {
    timeToLive := ← Json.orDefault d.timeToLive Json.nat? timeToLive
    poolSize := ← Json.orDefault d.poolSize Json.nat? poolSize }

end SessionSettings

namespace RegistrySettings

def toJson (s : RegistrySettings) : Json :=
  .ofMembers [("session", s.session.toJson), ("expiration_enabled", .bool s.expires),
    ("reap_interval_seconds", .ofNat s.reapInterval), ("retired_capacity", .ofNat s.remembered)]

def ofJson? (value : Json) : Option RegistrySettings := do
  let [session, expires, reapInterval, remembered] ← value.fields?
    ["session", "expiration_enabled", "reap_interval_seconds", "retired_capacity"] | none
  let d : RegistrySettings := default
  return {
    session := ← Json.orDefault d.session SessionSettings.ofJson? session
    expires := ← Json.orDefault d.expires Json.bool? expires
    reapInterval := ← Json.orDefault d.reapInterval Json.nat? reapInterval
    remembered := ← Json.orDefault d.remembered Json.nat? remembered }

end RegistrySettings

namespace Backend

def toJson : Backend → Json
  | memory => .ofMembers [("kind", .ofString "memory")]
  | folder root => .ofMembers [("kind", .ofString "file"), ("root", .ofString root)]
  | database path => .ofMembers [("kind", .ofString "rocksdb"), ("path", .ofString path)]

def ofJson? (depth : Nat) (value : Json) : Option Backend := do
  match ← value.kind? depth with
  | ("memory", rest) => if rest.hasNoFields then some memory else none
  | ("file", rest) =>
    let [some root] ← rest.allFields? ["root"] | none
    return folder (← root.string?)
  | ("rocksdb", rest) =>
    let [some path] ← rest.allFields? ["path"] | none
    return database (← path.string?)
  | _ => none

end Backend

namespace Config

def toJson (c : Config) : Json :=
  .ofMembers [("index", c.index.toJson), ("ranker", c.ranker.toJson),
    ("manager", c.registry.toJson), ("descriptor_store", c.descriptors.toJson),
    ("classification_store", c.results.toJson),
    ("result_label", c.resultLabel.elim .null .ofString)]

def ofJson? (value : Json) : Option Config := do
  let [index, ranker, registry, descriptors, results, resultLabel] ← value.fields?
    ["index", "ranker", "manager", "descriptor_store", "classification_store", "result_label"] | none
  let d : Config := default
  return {
    index := ← Json.orDefault d.index IndexSettings.ofJson? index
    ranker := ← Json.orDefault d.ranker KernelRanker.ofJson? ranker
    registry := ← Json.orDefault d.registry RegistrySettings.ofJson? registry
    descriptors := ← Json.orDefault d.descriptors (Backend.ofJson? 126) descriptors
    results := ← Json.orDefault d.results (Backend.ofJson? 126) results
    resultLabel := ← Json.orDefault d.resultLabel (Json.optional Json.string?) resultLabel }

/-- The document, indented for people. -/
def document (c : Config) : String := String.ofList c.toJson.pretty

/-- Read a document and check what it says. -/
def ofDocument (text : String) : Except Error Config := do
  match (Json.parse? text.toList).bind ofJson? with
  | none => throw (.invalidConfig .documentMalformed)
  | some c => c.validate; return c

/-- Read the document in a file. -/
def ofFile (files : FileTree) (path : Path) : Except Error Config :=
  match (files.read path).toOption.bind ofTextBytes? with
  | none => .error (.invalidConfig .documentUnreadable)
  | some text => ofDocument text

end Config
end Retrieval
