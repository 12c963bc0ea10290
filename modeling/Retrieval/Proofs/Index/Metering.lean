import Mathlib.Algebra.GroupWithZero.Nat
import Mathlib.Data.Finset.Card
import Retrieval.Proofs.Index.Run

/-!
What the metrics of an index count. Along any requests the counters are the totals of what was
answered since they were last put back to zero, modulo their range (`Index.metrics_of_run`); a
request that fails is not counted, nor is resetting or loading the index.
-/
namespace Retrieval

/-- What can be asked of an index that keeps metrics. -/
inductive IndexRequest where
  | change (call : IndexCall)
  | query (read : ReadVector) (v : Descriptor) (n : Nat)
  | resetMetrics

/-- What came of a request. -/
inductive IndexEvent where
  | changed (call : IndexCall) (answer : Except Error Unit)
  | queried (n : Nat) (answer : Except Error (List Neighbor))
  | metricsReset

namespace IndexEvent

/-- A query was answered. -/
def isAnswer : IndexEvent → Bool
  | .queried _ (.ok _) => true
  | _ => false

/-- A query was answered with fewer neighbours than it asked for. -/
def isShort : IndexEvent → Bool
  | .queried n (.ok found) => found.length < n
  | _ => false

/-- How many keys were indexed, those that repeat an id included. -/
def indexed : IndexEvent → Nat
  | .changed (.build _ keys) (.ok ()) => keys.length
  | .changed (.update _ keys) (.ok ()) => keys.length
  | _ => 0

/-- How many ids were removed. -/
def removed : IndexEvent → Nat
  | .changed (.remove ids) (.ok ()) => ids.toFinset.card
  | _ => 0

/-- Events that no counter is about. -/
inductive IsIdle : IndexEvent → Prop
  | refused (call : IndexCall) (e : Error) : IsIdle (.changed call (.error e))
  | unanswered (n : Nat) (e : Error) : IsIdle (.queried n (.error e))
  | reset (answer : Except Error Unit) : IsIdle (.changed .reset answer)
  | load (artifact : Artifact) (label : String) (answer : Except Error Unit) :
    IsIdle (.changed (.load artifact label) answer)

/-- Events to remember after one more: a reset of the metrics forgets those before it. -/
def note (events : List IndexEvent) : IndexEvent → List IndexEvent
  | .metricsReset => []
  | event => events ++ [event]

end IndexEvent

/-- The events since the metrics were last reset. -/
def sinceReset (events : List IndexEvent) : List IndexEvent := events.foldl IndexEvent.note []

namespace Metrics
variable {m after : Metrics} {events : List IndexEvent} {event : IndexEvent}

/-- The counters are the totals over events. -/
structure Counts (m : Metrics) (events : List IndexEvent) : Prop where
  queries : m.queries.toNat = events.countP (·.isAnswer) % 2 ^ 64
  short : m.short.toNat = events.countP (·.isShort) % 2 ^ 64
  indexed : m.indexed.toNat = (events.map (·.indexed)).sum % 2 ^ 64
  removed : m.removed.toNat = (events.map (·.removed)).sum % 2 ^ 64

/-- What an event makes of the counters. -/
structure Charged (event : IndexEvent) (m after : Metrics) : Prop where
  queries : after.queries = m.queries + event.isAnswer.toNat.toUInt64
  short : after.short = m.short + event.isShort.toNat.toUInt64
  indexed : after.indexed = m.indexed + event.indexed.toUInt64
  removed : after.removed = m.removed + event.removed.toUInt64
  idle : event.IsIdle → after = m

theorem Charged.unchanged (answer : event.isAnswer = false) (short : event.isShort = false)
    (indexed : event.indexed = 0) (removed : event.removed = 0) : Charged event m m := by
  constructor <;> simp_all

theorem countIndexed_charged (m : Metrics) (answer : event.isAnswer = false)
    (short : event.isShort = false) (removed : event.removed = 0) (busy : ¬ event.IsIdle) :
    Charged event m (m.countIndexed event.indexed.toUInt64) := by
  constructor <;> simp_all [countIndexed]

theorem countRemoved_charged (m : Metrics) (answer : event.isAnswer = false)
    (short : event.isShort = false) (indexed : event.indexed = 0) (busy : ¬ event.IsIdle) :
    Charged event m (m.countRemoved event.removed.toUInt64) := by
  constructor <;> simp_all [countRemoved]

theorem countQuery_charged (m : Metrics) (codes candidates : UInt64) (n : Nat)
    (found : List Neighbor) : Charged (.queried n (.ok found)) m
      (m.countQuery codes candidates 0 (found.length < n)) where
  queries := rfl
  short := by
    by_cases short : found.length < n <;> simp [countQuery, IndexEvent.isShort, short]
  indexed := (UInt64.add_zero _).symm
  removed := (UInt64.add_zero _).symm
  idle := nofun

theorem counts_nothing : ({} : Metrics).Counts [] := ⟨rfl, rfl, rfl, rfl⟩

/-- A counter that wraps around stays a total modulo its range. -/
theorem toNat_add_toUInt64 {x : UInt64} {total : Nat} (counted : x.toNat = total % 2 ^ 64)
    (n : Nat) : (x + n.toUInt64).toNat = (total + n) % 2 ^ 64 := by
  rw [UInt64.toNat_add, counted]
  simp [Nat.toUInt64]

theorem Counts.concat (counts : m.Counts events) (charged : Charged event m after) :
    after.Counts (events ++ [event]) := by
  have one (p : IndexEvent → Bool) :
      (events ++ [event]).countP p = events.countP p + (p event).toNat := by
    rw [List.countP_append, List.countP_singleton]
    cases p event <;> rfl
  constructor
  · rw [charged.queries, toNat_add_toUInt64 counts.queries, one]
  · rw [charged.short, toNat_add_toUInt64 counts.short, one]
  · rw [charged.indexed, toNat_add_toUInt64 counts.indexed]
    simp
  · rw [charged.removed, toNat_add_toUInt64 counts.removed]
    simp

end Metrics

namespace Contents

/-- Only ids that are still there are counted, so none is counted twice. -/
theorem count_removeAll (c : Contents) (ids : List String) :
    (c.removeAll ids).2.2 = (ids.toFinset.filter fun id => c.codes.contains id = true).card := by
  induction ids generalizing c with
  | nil => rfl
  | cons id rest ih =>
    unfold removeAll
    rw [List.toFinset_cons, Finset.filter_insert]
    cases found : c.codes.get? id with
    | none =>
      have missing : ¬ c.codes.contains id = true := by simp [SortedMap.contains, found]
      rw [if_neg missing]
      exact ih c
    | some code =>
      have held : c.codes.contains id = true := by simp [SortedMap.contains, found]
      have left : (rest.toFinset.filter fun x => (c.strike id).codes.contains x = true) =
          (rest.toFinset.filter fun x => c.codes.contains x = true).erase id := by
        ext x
        rw [Finset.mem_erase, Finset.mem_filter, Finset.mem_filter]
        by_cases same : x = id
        · simp [same, strike, SortedMap.contains, SortedMap.get?_erase_self]
        · simp [same, strike, SortedMap.contains, SortedMap.get?_erase_of_ne]
      rw [if_pos held]
      dsimp only
      rw [ih, leave_codes, left, ← Finset.erase_insert_eq_erase,
        Finset.card_erase_add_one (Finset.mem_insert_self ..)]

end Contents

/-- What a call counts if it succeeds. -/
def IndexCall.count : IndexCall → Metrics → Metrics
  | .build _ keys | .update _ keys => (·.countIndexed keys.length.toUInt64)
  | .remove ids => (·.countRemoved ids.toFinset.card.toUInt64)
  | .reset | .load _ _ => id

namespace Index
variable {ix after : Index}

def serve (ix : Index) : IndexRequest → Index × IndexEvent
  | .change call => ((ix.step call).1, .changed call (ix.step call).2)
  | .query read v n =>
    match ix.nearest read v n with
    | .ok (found, after) => (after, .queried n (.ok found))
    | .error e => (ix, .queried n (.error e))
  | .resetMetrics => (ix.resetMetrics, .metricsReset)

/-- Serve requests one after the other and note what came of each. -/
def serveAll (ix : Index) : List IndexRequest → Index × List IndexEvent
  | [] => (ix, [])
  | request :: rest =>
    let served := ix.serve request
    let later := served.1.serveAll rest
    (later.1, served.2 :: later.2)

/-! What requests count -/

/-- The metrics are counted on if the call succeeded, and are the same if not. -/
def Metered (ix : Index) (count : Metrics → Metrics) (served : Index × Except Error Unit) : Prop :=
  match served.2 with
  | .ok () => served.1.metrics = ix.metrics.map count
  | .error _ => served.1.metrics = ix.metrics

theorem settle_metered {count : Metrics → Metrics} {change : Except Error Index}
    (changed : ∀ after, change = .ok after → after.metrics = ix.metrics.map count) :
    ix.Metered count (ix.settle change) := by
  cases change with
  | error e => rfl
  | ok after => exact changed after rfl

theorem length_hashAll {hasher : Hasher} {read : ReadVector} {keys : List Key}
    {hashed : List (Key × Code)} (done : hasher.hashAll read keys = .ok hashed) :
    hashed.length = keys.length := by
  have lengths := congrArg List.length (mapM_ok_iff.mp done)
  rw [List.length_map, List.length_map] at lengths
  exact lengths.symm

theorem build_metrics {read : ReadVector} {keys : List Key}
    (done : ix.build read keys = .ok after) :
    after.metrics = ix.metrics.map (·.countIndexed keys.length.toUInt64) := by
  unfold build at done
  dsimp only at done
  split at done
  · cases done
  · obtain ⟨hashed, hashes, done⟩ := exists_of_bind_ok done
    obtain ⟨staged, _, done⟩ := exists_of_bind_ok done
    obtain ⟨contents, _, done⟩ := exists_of_bind_ok done
    cases done
    rw [← length_hashAll hashes]
    rfl

theorem update_metered (ix : Index) (read : ReadVector) (keys : List Key) :
    ix.Metered (·.countIndexed keys.length.toUInt64) (ix.update read keys) := by
  unfold update
  cases hashes : ix.hasher.hashAll read keys with
  | error e => rfl
  | ok hashed =>
    rw [← length_hashAll hashes]
    dsimp only
    split <;> rfl

theorem remove_metered (ix : Index) (ids : List String) :
    ix.Metered (·.countRemoved ids.toFinset.card.toUInt64) (ix.remove ids) := by
  unfold remove
  cases missing : ids.find? fun id => !ix.contents.codes.contains id with
  | some id => rfl
  | none =>
    have all : (ids.toFinset.filter fun id => ix.contents.codes.contains id = true) =
        ids.toFinset := by
      refine Finset.filter_true_of_mem fun id member => ?_
      have held := List.find?_eq_none.mp missing id (List.mem_toFinset.mp member)
      simpa using held
    have counted := Contents.count_removeAll ix.contents ids
    rw [all] at counted
    rw [← counted]
    dsimp only
    split <;> rfl

theorem reset_metrics (done : ix.reset = .ok after) : after.metrics = ix.metrics := by
  obtain ⟨contents, _, rfl⟩ := exists_of_map_ok done
  rfl

theorem load_metrics {artifact : Artifact} {label : String}
    (loaded : ix.load artifact label = .ok after) : after.metrics = ix.metrics := by
  unfold load at loaded
  obtain ⟨_, _, loaded⟩ := exists_of_bind_ok loaded
  dsimp only at loaded
  split at loaded
  · cases loaded
  · obtain ⟨empty, _, loaded⟩ := exists_of_bind_ok loaded
    obtain ⟨contents, _, loaded⟩ := exists_of_bind_ok loaded
    split at loaded
    · cases loaded
    · cases loaded
      rfl

theorem step_metered (ix : Index) (call : IndexCall) :
    ix.Metered call.count (ix.step call) := by
  cases call with
  | build read keys => exact settle_metered fun after done => build_metrics done
  | update read keys => exact update_metered ix read keys
  | remove ids => exact remove_metered ix ids
  | reset =>
    refine settle_metered fun after done => ?_
    rw [reset_metrics done]
    exact Option.map_id_apply.symm
  | load artifact label =>
    refine settle_metered fun after done => ?_
    rw [load_metrics done]
    exact Option.map_id_apply.symm

theorem nearest_metrics {read : ReadVector} {v : Descriptor} {n : Nat} {found : List Neighbor}
    (done : ix.nearest read v n = .ok (found, after)) : ∃ codes candidates,
      after.metrics = ix.metrics.map (·.countQuery codes candidates 0 (found.length < n)) := by
  unfold nearest at done
  obtain ⟨code, _, done⟩ := exists_of_bind_ok done
  dsimp only at done
  split at done
  · obtain ⟨measured, _, done⟩ := exists_of_bind_ok done
    cases done
    exact ⟨_, _, rfl⟩
  · cases done
    exact ⟨_, _, rfl⟩

/-- A call counts what came of it. -/
theorem step_charged {m : Metrics} (kept : ix.metrics = some m) (call : IndexCall) :
    ∃ m', (ix.step call).1.metrics = some m' ∧
      Metrics.Charged (.changed call (ix.step call).2) m m' := by
  have metered := step_metered ix call
  cases answer : (ix.step call).2 with
  | error e =>
    rw [Metered, answer, kept] at metered
    exact ⟨m, metered, .unchanged rfl rfl (by cases call <;> rfl) (by cases call <;> rfl)⟩
  | ok done =>
    rw [Metered, answer, kept] at metered
    refine ⟨_, metered, ?_⟩
    cases call with
    | build read keys => exact m.countIndexed_charged rfl rfl rfl nofun
    | update read keys => exact m.countIndexed_charged rfl rfl rfl nofun
    | remove ids => exact m.countRemoved_charged rfl rfl rfl nofun
    | reset => exact .unchanged rfl rfl rfl rfl
    | load artifact label => exact .unchanged rfl rfl rfl rfl

theorem query_charged {m : Metrics} (kept : ix.metrics = some m) (read : ReadVector)
    (v : Descriptor) (n : Nat) : ∃ m', (ix.serve (.query read v n)).1.metrics = some m' ∧
      Metrics.Charged (ix.serve (.query read v n)).2 m m' := by
  simp only [serve]
  cases near : ix.nearest read v n with
  | error e => exact ⟨m, kept, .unchanged rfl rfl rfl rfl⟩
  | ok answered =>
    obtain ⟨found, after⟩ := answered
    obtain ⟨codes, candidates, counted⟩ := nearest_metrics near
    rw [kept] at counted
    exact ⟨_, counted, m.countQuery_charged codes candidates n found⟩

/-- What is served after some events is counted with them, and what is idle is not counted. -/
theorem serve_counts {m : Metrics} {events : List IndexEvent} (kept : ix.metrics = some m)
    (counts : m.Counts events) (request : IndexRequest) :
    ∃ m', (ix.serve request).1.metrics = some m' ∧
      m'.Counts (IndexEvent.note events (ix.serve request).2) ∧
        ((ix.serve request).2.IsIdle → m' = m) := by
  cases request with
  | change call =>
    obtain ⟨m', kept', charged⟩ := step_charged kept call
    exact ⟨m', kept', counts.concat charged, charged.idle⟩
  | query read v n =>
    obtain ⟨m', kept', charged⟩ := query_charged kept read v n
    refine ⟨m', kept', ?_, charged.idle⟩
    have noted := counts.concat charged
    simp only [serve] at noted ⊢
    split at noted <;> exact noted
  | resetMetrics =>
    refine ⟨{}, ?_, Metrics.counts_nothing, nofun⟩
    simp [serve, resetMetrics, tally, kept]

theorem serveAll_counts {m : Metrics} {events : List IndexEvent} (kept : ix.metrics = some m)
    (counts : m.Counts events) (requests : List IndexRequest) :
    ∃ m', (ix.serveAll requests).1.metrics = some m' ∧
      m'.Counts ((ix.serveAll requests).2.foldl IndexEvent.note events) := by
  induction requests generalizing ix m events with
  | nil => exact ⟨m, kept, counts⟩
  | cons request rest ih =>
    obtain ⟨m', kept', counts', _⟩ := serve_counts kept counts request
    exact ih kept' counts'

theorem create_metrics {hasher : Hasher} {settings : IndexSettings}
    (created : Index.create hasher settings true = .ok ix) : ix.metrics = some {} := by
  unfold create at created
  obtain ⟨_, _, created⟩ := exists_of_bind_ok created
  dsimp only at created
  split at created
  · cases created
  · obtain ⟨contents, _, created⟩ := exists_of_bind_ok created
    cases created
    rfl

/-- After any requests the counters of an index are the totals over what came of them since the
metrics were last reset, and one more request leaves them all if it fails, or resets or loads the
index. -/
theorem metrics_of_run {hasher : Hasher} {settings : IndexSettings}
    (created : Index.create hasher settings true = .ok ix) (requests : List IndexRequest) :
    let served := ix.serveAll requests
    ∃ m, served.1.metrics = some m ∧ m.Counts (sinceReset served.2) ∧
      ∀ request, (served.1.serve request).2.IsIdle →
        (served.1.serve request).1.metrics = some m := by
  have fresh := create_metrics created
  obtain ⟨m, kept, counts⟩ := serveAll_counts fresh Metrics.counts_nothing requests
  refine ⟨m, kept, counts, fun request idle => ?_⟩
  obtain ⟨m', kept', _, unchanged⟩ := serve_counts kept counts request
  rw [kept', unchanged idle]

/-- A vector is indexed twice in one batch, looked for with room to spare, and removed; then a call
fails. -/
theorem metrics_of_run_sign :
    let ix : Index := { unbuilt Hasher.sign 1 with metrics := some {} }
    let read : ReadVector := fun _ => .ok [⟨0x3f800000⟩]
    let requests := [.change (.build read [⟨"kind", "a"⟩, ⟨"kind", "a"⟩]),
      .query read [⟨0x3f800000⟩] 2, .change (.remove ["a", "a"]), .change (.remove ["b"])]
    let served := ix.serveAll requests
    ∃ m, served.1.metrics = some m ∧ m.Counts (sinceReset served.2) ∧
      ∀ request, (served.1.serve request).2.IsIdle →
        (served.1.serve request).1.metrics = some m := by
  intro ix read requests
  have created : create Hasher.sign ⟨.linear, 1⟩ true = .ok ix := rfl
  exact metrics_of_run created requests

end Index
end Retrieval
