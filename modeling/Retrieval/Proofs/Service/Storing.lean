import Retrieval.Proofs.Service.Interleaving

/-!
What a refinement stores. Its entries are written one by one, in the order of the ranking, before
the session changes. The end of a refinement that fails has stored nothing, unless the store refused
an entry: the entries before that one are stored then (`World.shelf_of_refused`).
-/
namespace Retrieval

/-- The confidences that are stored for a ranked id. -/
def Scored.confidences (scored : Scored) : Classification :=
  SortedMap.ofList [(Service.positiveLabel, scored.score),
    (Service.negativeLabel, Double.ofFloat (1 - scored.score.value))]

/-- A shelf takes each entry of a ranking in turn. -/
inductive Stored (label : String) : Shelf Classification → List Scored → Shelf Classification → Prop
  | nil {shelf : Shelf Classification} : Stored label shelf [] shelf
  | cons {shelf between after : Shelf Classification} {scored : Scored} {rest : List Scored}
      (taken : shelf.setClassification ⟨label, scored.id⟩ scored.confidences = (between, .ok ()))
      (later : Stored label between rest after) : Stored label shelf (scored :: rest) after

/-- A shelf takes some entries and refuses the one behind them. -/
inductive BrokenOff (label : String) (shelf : Shelf Classification) (stored : List Scored) :
    List Scored → Shelf Classification → Error → Prop
  | refused {between after : Shelf Classification} {scored : Scored} {rest : List Scored}
      {e : Error}
      (taken : Stored label shelf stored between)
      (refused : between.setClassification ⟨label, scored.id⟩ scored.confidences =
        (after, .error e)) :
    BrokenOff label shelf stored (stored ++ scored :: rest) after e

/-- What a map holds that has taken each entry of a ranking. -/
def fileRanking (label : String) (held : SortedMap Key Classification) (ranking : List Scored) :
    SortedMap Key Classification :=
  ranking.foldl (fun held scored => held.insert ⟨label, scored.id⟩ scored.confidences) held

theorem Scored.confidences_nonempty (scored : Scored) : scored.confidences.isEmpty = false := by
  have held : scored.confidences.get? Service.negativeLabel =
      some (Double.ofFloat (1 - scored.score.value)) := SortedMap.get?_insert_self _ _ _
  cases empty : scored.confidences.isEmpty with
  | false => rfl
  | true =>
    rw [SortedMap.isEmpty_iff.mp empty] at held
    cases held

/-- Confidences that are finite are set like any value, others are refused and the shelf is left as
it is. -/
theorem setConfidences_cases (shelf : Shelf Classification) (key : Key) (scored : Scored) :
    (∀ entry ∈ scored.confidences.entries, entry.2.isFinite = true) ∧
        shelf.setClassification key scored.confidences = shelf.set key scored.confidences ∨
      ∃ entry ∈ scored.confidences.entries, entry.2.isFinite = false ∧
        shelf.setClassification key scored.confidences =
          (shelf, .error (.invalidState (.nonFiniteConfidence entry.1 entry.2))) := by
  unfold Shelf.setClassification
  rw [scored.confidences_nonempty]
  cases found : scored.confidences.entries.find? (!·.2.isFinite) with
  | none =>
    refine .inl ⟨?_, rfl⟩
    intro entry member
    simpa using List.find?_eq_none.mp found entry member
  | some entry =>
    refine .inr ⟨entry, List.mem_of_find?_eq_some found, ?_, rfl⟩
    simpa using List.find?_some found

section
variable {label : String} {held : SortedMap Key Classification} {files : FileTree}

theorem Stored.memory {ranking : List Scored} {after : Shelf Classification}
    (stored : Stored label ⟨.memory held, files⟩ ranking after) :
    after = ⟨.memory (fileRanking label held ranking), files⟩ := by
  generalize start : (⟨.memory held, files⟩ : Shelf Classification) = shelf at stored
  induction stored generalizing held with
  | nil => exact start.symm
  | @cons shelf between after scored rest taken later ih =>
    subst start
    apply ih
    rcases setConfidences_cases ⟨.memory held, files⟩ ⟨label, scored.id⟩ scored with
      ⟨_, set⟩ | ⟨_, _, _, refused⟩
    · cases set.symm.trans taken
      rfl
    · cases refused.symm.trans taken

/-- A shelf in memory only refuses an entry for a confidence that is not finite. -/
theorem BrokenOff.memory {stored ranking : List Scored} {after : Shelf Classification} {e : Error}
    (broken : BrokenOff label ⟨.memory held, files⟩ stored ranking after e) :
    after = ⟨.memory (fileRanking label held stored), files⟩ ∧
      ∃ scored ∈ ranking, ∃ entry ∈ scored.confidences.entries, entry.2.isFinite = false := by
  cases broken with
  | @refused between after scored rest e taken refused =>
    cases taken.memory
    rcases setConfidences_cases ⟨.memory (fileRanking label held stored), files⟩
      ⟨label, scored.id⟩ scored with ⟨_, set⟩ | ⟨entry, member, infinite, same⟩
    · cases set.symm.trans refused
    · cases same.symm.trans refused
      exact ⟨rfl, scored, List.mem_append_right _ List.mem_cons_self, entry, member, infinite⟩

end

namespace Service
variable {s after : Service} {label : String} {ranking : List Scored} {e : Error}

/-- A ranking that is written back is taken entry by entry. -/
theorem writeBack_stored (written : s.writeBack label ranking = (after, .ok ())) :
    Stored label s.resultShelf ranking after.resultShelf := by
  induction ranking generalizing s with
  | nil =>
    cases written
    exact .nil
  | cons scored rest ih =>
    unfold writeBack at written
    dsimp only at written
    split at written
    · cases written
    · rename_i shelf taken
      exact .cons taken (ih written)

theorem writeBack_brokenOff (failed : s.writeBack label ranking = (after, .error e)) :
    ∃ stored, BrokenOff label s.resultShelf stored ranking after.resultShelf e := by
  induction ranking generalizing s with
  | nil => cases failed
  | cons scored rest ih =>
    unfold writeBack at failed
    dsimp only at failed
    split at failed
    · rename_i shelf refused
      cases failed
      exact ⟨[], .refused .nil refused⟩
    · rename_i shelf taken
      obtain ⟨stored, broken⟩ := ih failed
      cases broken with
      | refused later refused => exact ⟨scored :: stored, .refused (.cons taken later) refused⟩

/-- An entry that the shelf takes is written, and the rest after it. -/
theorem writeBack_taken {shelf between : Shelf Classification} {scored : Scored}
    (taken : shelf.setClassification ⟨label, scored.id⟩ scored.confidences = (between, .ok ()))
    (s : Service) (rest : List Scored) :
    (s.putResultShelf shelf).writeBack label (scored :: rest) =
      (s.putResultShelf between).writeBack label rest := by
  simp only [Scored.confidences] at taken
  have same : (s.putResultShelf shelf).resultShelf = shelf := rfl
  simp only [writeBack, same, taken]
  rfl

theorem writeBack_append {shelf between : Shelf Classification}
    (stored : Stored label shelf ranking between) (s : Service) (rest : List Scored) :
    (s.putResultShelf shelf).writeBack label (ranking ++ rest) =
      (s.putResultShelf between).writeBack label rest := by
  induction stored with
  | nil => rfl
  | cons taken _ ih => exact (writeBack_taken taken s _).trans ih

/-- Storing stops at the entry that the shelf refuses. -/
theorem writeBack_of_brokenOff {stored : List Scored} {shelf : Shelf Classification}
    (broken : BrokenOff label s.resultShelf stored ranking shelf e) :
    s.writeBack label ranking = (s.putResultShelf shelf, .error e) := by
  cases broken with
  | @refused between _ scored rest _ taken refused =>
    simp only [Scored.confidences] at refused
    have same : (s.putResultShelf between).resultShelf = between := rfl
    refine (writeBack_append taken s (scored :: rest)).trans ?_
    simp only [writeBack, same, refused]
    rfl

theorem record_brokenOff {label : Option String}
    (failed : s.record label ranking = (after, .error e)) :
    ∃ target stored, label = some target ∧
      BrokenOff target s.resultShelf stored ranking after.resultShelf e := by
  cases label with
  | none => cases failed
  | some target =>
    obtain ⟨stored, broken⟩ := writeBack_brokenOff failed
    exact ⟨target, stored, rfl, broken⟩

/-- A ranking that is not taken over leaves the results as they are, unless storing it breaks off.
-/
theorem commitRanking_shelf {r : Refinement} {scores : List Scored}
    (failed : s.commitRanking r scores = (after, .error e)) :
    after.resultShelf = s.resultShelf ∨
      ∃ x label stored, s.sessions.get? r.session = some x ∧ x.resultLabel = some label ∧
        BrokenOff label s.resultShelf stored (Scored.ranked scores) after.resultShelf e := by
  unfold commitRanking at failed
  cases found : s.sessions.get? r.session with
  | none =>
    rw [found] at failed
    cases failed
    exact .inl rfl
  | some x =>
    simp only [found] at failed
    split at failed
    · cases failed
      exact .inl rfl
    · split at failed
      · cases failed
        exact .inl rfl
      · cases recorded : s.record x.resultLabel (Scored.ranked scores) with
        | mk between answer =>
          rw [recorded] at failed
          cases answer with
          | ok _ => cases failed
          | error e' =>
            cases failed
            obtain ⟨label, stored, labelled, broken⟩ := record_brokenOff recorded
            exact .inr ⟨x, label, stored, rfl, labelled, broken⟩

/-- Whenever storing breaks off, the ranking is not taken over. -/
theorem commitRanking_of_brokenOff {r : Refinement} {x : Session} {scores stored : List Scored}
    {shelf : Shelf Classification} (found : s.sessions.get? r.session = some x)
    (live : x.phase.isTerminal = false) (same : x.resets = r.resets)
    (labelled : x.resultLabel = some label)
    (broken : BrokenOff label s.resultShelf stored (Scored.ranked scores) shelf e) :
    s.commitRanking r scores = (s.putResultShelf shelf, .error e) := by
  simp only [commitRanking, found, live, Bool.false_eq_true, if_false, same, ne_eq,
    not_true_eq_false, labelled, record, writeBack_of_brokenOff broken]

theorem leave_shelf (s : Service) (ref : Ref) : (s.leave ref).resultShelf = s.resultShelf := by
  obtain ⟨results, files⟩ := leave_stores s ref
  rw [resultShelf, resultShelf, results, files]

end Service

namespace World
open Service

theorem beginRefine_shelf (w : World) (ref : Ref) (budget : Budget) :
    (w.perform (.beginRefine ref budget)).1.service.resultShelf = w.service.resultShelf := by
  have alike := beginRefine_alike w.service ref budget
  have same : (w.perform (.beginRefine ref budget)).1.service =
      (w.service.beginRefine ref budget).1 := by
    cases outcome : w.service.beginRefine ref budget with
    | mk s answer =>
      cases answer with
      | error e => rw [perform_beginRefine_error outcome]
      | ok r => rw [perform_beginRefine_ok outcome]
  rw [same, resultShelf, resultShelf, alike.results, alike.files]

/-- Beginning a refinement stores nothing. Where its end fails nothing has been stored either,
unless the store refused an entry of the ranking: then the entries before that one are stored, and
if they are kept in memory, they are all that changed and the refused entry has a confidence that is
not finite. -/
theorem shelf_of_refused (w : World) :
    (∀ ref budget,
      (w.perform (.beginRefine ref budget)).1.service.resultShelf = w.service.resultShelf) ∧
    ∀ place answer e, (w.perform (.endRefine place answer)).2 = .error e →
      let after := (w.perform (.endRefine place answer)).1.service
      after.resultShelf = w.service.resultShelf ∨
      ∃ r x label scores stored, w.pending[place]? = some r ∧
        w.service.sessions.get? r.session = some x ∧ x.resultLabel = some label ∧
        answer = .ok scores ∧
        BrokenOff label w.service.resultShelf stored (Scored.ranked scores) after.resultShelf e ∧
        ∀ held, w.service.results = .memory held →
          after.resultShelf = ⟨.memory (fileRanking label held stored), w.service.files⟩ ∧
          ∃ scored ∈ scores, ∃ entry ∈ scored.confidences.entries, entry.2.isFinite = false := by
  refine ⟨w.beginRefine_shelf, ?_⟩
  intro place answer e failed after
  dsimp only [after]
  cases here : w.pending[place]? with
  | none =>
    simp only [perform, here] at failed
    cases failed
  | some r =>
    rw [perform_endRefine here] at failed ⊢
    dsimp only at failed ⊢
    cases answer with
    | error e' => exact .inl (leave_shelf _ _)
    | ok scores =>
      cases outcome : w.service.commitRanking r scores with
      | mk between result =>
        simp only [endRefine, outcome] at failed ⊢
        rw [leave_shelf]
        cases result with
        | ok _ => cases failed
        | error e' =>
          cases failed
          rcases commitRanking_shelf outcome with same | ⟨x, label, stored, found, labelled, broken⟩
          · exact .inl same
          · refine .inr ⟨r, x, label, scores, stored, rfl, found, labelled, rfl, broken, ?_⟩
            intro held kept
            rw [resultShelf, kept] at broken
            obtain ⟨same, scored, member, infinite⟩ := broken.memory
            exact ⟨same, scored, List.mem_mergeSort.mp member, infinite⟩

/-- Whenever the store refuses an entry of the ranking of a session that could take it over, the
refinement fails for that, with the entries before it stored. -/
theorem shelf_of_brokenOff {w : World} {place : Nat} {r : Refinement} {x : Session} {label : String}
    {scores stored : List Scored} {shelf : Shelf Classification} {e : Error}
    (here : w.pending[place]? = some r) (found : w.service.sessions.get? r.session = some x)
    (live : x.phase.isTerminal = false) (same : x.resets = r.resets)
    (labelled : x.resultLabel = some label)
    (broken : BrokenOff label w.service.resultShelf stored (Scored.ranked scores) shelf e) :
    (w.perform (.endRefine place (.ok scores))).2 = .error e ∧
      (w.perform (.endRefine place (.ok scores))).1.service.resultShelf = shelf := by
  rw [perform_endRefine here]
  simp only [endRefine, commitRanking_of_brokenOff found live same labelled broken]
  exact ⟨rfl, leave_shelf _ _⟩

/-- A score of three quarters. -/
def finite : Scored := ⟨"a", ⟨0x3fe8000000000000⟩⟩

/-- A score of minus infinity. -/
def infinite : Scored := ⟨"b", ⟨0xfff0000000000000⟩⟩

/-- A shelf in memory takes the first of two scores and refuses the other. -/
theorem infinite_brokenOff (held : SortedMap Key Classification) (files : FileTree) :
    BrokenOff "found" ⟨.memory held, files⟩ [finite] (Scored.ranked [finite, infinite])
      ⟨.memory (fileRanking "found" held [finite]), files⟩
      (.invalidState (.nonFiniteConfidence "negative" ⟨0x7ff0000000000000⟩)) := by
  have sorted : Scored.ranked [finite, infinite] = [finite, infinite] :=
    List.mergeSort_of_pairwise (by decide +kernel)
  have taken : Shelf.setClassification ⟨.memory held, files⟩ ⟨"found", "a"⟩ finite.confidences =
      (⟨.memory (fileRanking "found" held [finite]), files⟩, .ok ()) := by
    rfl
  have refused : Shelf.setClassification ⟨.memory (fileRanking "found" held [finite]), files⟩
      ⟨"found", "b"⟩ infinite.confidences =
      (⟨.memory (fileRanking "found" held [finite]), files⟩,
        .error (.invalidState (.nonFiniteConfidence "negative" ⟨0x7ff0000000000000⟩))) := by
    rfl
  rw [sorted]
  exact .refused (.cons taken .nil) refused

/-- The better of two ids is stored although the refinement fails for the other. -/
theorem not_shelf_of_refused :
    ¬ ∀ (files : FileTree) (descriptors : Store Descriptor) (results : Store Classification)
      (settings : RegistrySettings) (label : Option String) (earlier : List Operation) (place : Nat)
      (answer : Except Error (List Scored)) (e : Error),
      let w := (fresh files descriptors results settings label).run earlier
      (w.perform (.endRefine place answer)).2 = .error e →
        (w.perform (.endRefine place answer)).1.service.resultShelf = w.service.resultShelf := by
  intro kept
  let key : Key := ⟨"kind", "a"⟩
  let descriptors : Store Descriptor := .memory (SortedMap.ofList [(key, [⟨0x3f800000⟩])])
  let indexes := SortedMap.ofList [(0, Index.unbuilt Hasher.sign 1)]
  let earlier : List Operation := [.elsewhere default descriptors (.memory ∅) indexes,
    .startAlone "s" ⟨1800, 200⟩ 0 ⟨fun _ _ _ => .ok []⟩ (some "found"), .seed 0 key 1,
    .beginRefine 0 .unlimited]
  let w := (fresh default descriptors (.memory ∅) default none).run earlier
  have pending : w.pending.map (fun r => (r.session, r.resets)) = [(0, 0)] := by decide +kernel
  have session : (w.service.sessions.get? 0).map (fun x => (x.phase, x.resets, x.resultLabel)) =
      some (.initialized, 0, some "found") := by decide +kernel
  have absent : w.service.resultShelf.has ⟨"found", "a"⟩ = false := by decide +kernel
  have inMemory : w.service.results.size?.isSome = true := by decide +kernel
  obtain ⟨r, waiting, of_session⟩ := List.map_eq_singleton_iff.mp pending
  obtain ⟨x, found, of_x⟩ := Option.map_eq_some_iff.mp session
  simp only [Prod.mk.injEq] at of_session of_x
  obtain ⟨held, kind⟩ : ∃ held, w.service.results = .memory held := by
    cases kind : w.service.results with
    | memory held => exact ⟨held, rfl⟩
    | folder root =>
      rw [kind] at inMemory
      cases inMemory
  have shelf : w.service.resultShelf = ⟨.memory held, w.service.files⟩ := by
    rw [resultShelf, kind]
  have broken := infinite_brokenOff held w.service.files
  rw [← shelf] at broken
  have here : w.pending[0]? = some r := by rw [waiting]; rfl
  obtain ⟨failed, stored⟩ := shelf_of_brokenOff here (of_session.1 ▸ found) (of_x.1 ▸ rfl)
    (of_x.2.1.trans of_session.2.symm) of_x.2.2 broken
  have same := kept default descriptors (.memory ∅) default none earlier 0 (.ok [finite, infinite])
    _ failed
  have there : w.service.resultShelf.has ⟨"found", "a"⟩ = true := by
    rw [← same, show (w.perform _).1.service.resultShelf = _ from stored]
    exact SortedMap.contains_iff.mpr ⟨_, SortedMap.get?_insert_self _ _ _⟩
  rw [absent] at there
  cases there

end World
end Retrieval
