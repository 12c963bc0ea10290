import Retrieval.Proofs.Service.Candidates
import Retrieval.Proofs.Service.Storing
import Retrieval.Proofs.Store.Classification

/-!
What a refinement that succeeds leaves in the store of results (`World.records_of_run`): both
confidences of each ranked id, and all else as it was. The ids of a ranking are distinct, so no
entry that is written is written over by another one of the same ranking.
-/
namespace Retrieval

namespace Shelf
variable {label : String} {ranking : List Scored} {before between after : Shelf Classification}
  {scored : Scored} {key : Key}

/-- A shelf records a ranking under a label: it keeps both confidences of each ranked id, which are
finite, and nothing else is changed. What is kept is read back, from files if it is legible. -/
structure Records (label : String) (ranking : List Scored) (before after : Shelf Classification) :
    Prop where
  opened : after.Opened
  kept : ∀ scored ∈ ranking,
    after.kept? ⟨label, scored.id⟩ = some (before.store.form scored.confidences)
  read : ∀ scored ∈ ranking, (∀ root, before.store = .folder root →
      ∀ entry ∈ scored.confidences.entries, Json.Legible entry.2) →
    after.get ⟨label, scored.id⟩ = .ok scored.confidences
  finite : ∀ scored ∈ ranking, ∀ entry ∈ scored.confidences.entries, entry.2.isFinite = true
  elsewhere : ∀ key, (∀ scored ∈ ranking, key ≠ ⟨label, scored.id⟩) → SameAt key before after

/-- Confidences that are taken are finite, and kept as they are set. -/
theorem keeps_of_taken (opened : before.Opened)
    (taken : before.setClassification key scored.confidences = (after, .ok ())) :
    (∀ entry ∈ scored.confidences.entries, entry.2.isFinite = true) ∧
      Keeps key (before.store.form scored.confidences) before after := by
  rcases setConfidences_cases before key scored with ⟨finite, set⟩ | ⟨_, _, _, refused⟩
  · exact ⟨finite, keeps_of_set opened (set.symm.trans taken)⟩
  · cases refused.symm.trans taken

end Shelf

namespace Stored
variable {label : String} {ranking : List Scored} {before after : Shelf Classification}
  (stored : Stored label before ranking after)
include stored

theorem opened (opened : before.Opened) : after.Opened := by
  induction stored with
  | nil => exact opened
  | cons taken _ ih => exact ih (Shelf.keeps_of_taken opened taken).2.opened

theorem finite (opened : before.Opened) :
    ∀ scored ∈ ranking, ∀ entry ∈ scored.confidences.entries, entry.2.isFinite = true := by
  induction stored with
  | nil => exact List.forall_mem_nil _
  | cons taken _ ih =>
    obtain ⟨finite, keeps⟩ := Shelf.keeps_of_taken opened taken
    exact List.forall_mem_cons.mpr ⟨finite, ih keeps.opened⟩

theorem elsewhere (opened : before.Opened) {key : Key}
    (apart : ∀ scored ∈ ranking, key ≠ ⟨label, scored.id⟩) :
    after.kept? key = before.kept? key := by
  induction stored with
  | nil => rfl
  | cons taken _ ih =>
    obtain ⟨differs, apart⟩ := List.forall_mem_cons.mp apart
    have keeps := (Shelf.keeps_of_taken opened taken).2
    rw [ih keeps.opened apart, keeps.elsewhere key differs]

/-- No id is ranked twice, so what is kept for one stays. -/
theorem kept (opened : before.Opened) (distinct : (ranking.map Scored.id).Nodup) :
    ∀ scored ∈ ranking,
      after.kept? ⟨label, scored.id⟩ = some (before.store.form scored.confidences) := by
  induction stored with
  | nil => exact List.forall_mem_nil _
  | @cons _ _ _ scored rest taken later ih =>
    have keeps := (Shelf.keeps_of_taken opened taken).2
    obtain ⟨once, distinct⟩ := List.nodup_cons.mp distinct
    refine List.forall_mem_cons.mpr ⟨?_, ?_⟩
    · rw [later.elsewhere keeps.opened, keeps.here]
      intro other member same
      rw [Key.mk.injEq] at same
      exact once (same.2 ▸ List.mem_map_of_mem member)
    · rw [← keeps.form]
      exact ih keeps.opened distinct

theorem records (opened : before.Opened) (distinct : (ranking.map Scored.id).Nodup) :
    before.Records label ranking after where
  opened := stored.opened opened
  kept := stored.kept opened distinct
  read scored member legible := by
    refine Shelf.get_ok_iff.mpr ⟨_, stored.kept opened distinct scored member, ?_⟩
    cases kind : before.store with
    | memory held => rfl
    | folder root => exact Classification.decode_encode (legible root kind)
  finite := stored.finite opened
  elsewhere key apart := Shelf.sameAt_of_kept (stored.elsewhere opened apart)

end Stored

namespace Service
variable {s after : Service} {r : Refinement} {y : Session} {scores ranking : List Scored}
  {label : String}

/-- A ranking that is taken over has been stored. -/
theorem commitRanking_stored (found : s.sessions.get? r.session = some y)
    (labelled : y.resultLabel = some label)
    (done : s.commitRanking r scores = (after, .ok ranking)) :
    Stored label s.resultShelf ranking after.resultShelf := by
  simp only [commitRanking, found, labelled] at done
  split at done
  · cases done
  split at done
  · cases done
  split at done
  · cases done
  · rename_i between recorded
    have written : s.writeBack label (Scored.ranked scores) = (between, .ok ()) := recorded
    have stored := writeBack_stored written
    cases done
    exact stored

theorem endRefine_stored (found : s.sessions.get? r.session = some y)
    (labelled : y.resultLabel = some label)
    (ended : s.endRefine r (.ok scores) = (after, .ok ranking)) :
    Stored label s.resultShelf ranking after.resultShelf := by
  cases outcome : s.commitRanking r scores with
  | mk between answer =>
    simp only [endRefine, outcome] at ended
    cases ended
    rw [leave_shelf]
    exact commitRanking_stored found labelled outcome

/-- A refinement that ends with one score for each candidate has recorded the ranking it gave. -/
theorem endRefine_records (found : s.sessions.get? r.session = some y)
    (labelled : y.resultLabel = some label)
    (ascending : (r.request.pool.map Key.id).Pairwise fun a b => compare a b = .lt)
    (scored : (scores.map Scored.id).Perm (r.request.pool.map Key.id))
    (opened : s.resultShelf.Opened)
    (ended : s.endRefine r (.ok scores) = (after, .ok ranking)) :
    ranking.Perm scores ∧
      (∃ z, after.sessions.get? r.session = some z ∧ z.feedback.ranking = ranking) ∧
      s.resultShelf.Records label ranking after.resultShelf := by
  obtain ⟨z, found', takes⟩ := endRefine_takesOver found ascending scored ended
  have distinct : (ranking.map Scored.id).Nodup := by
    refine (takes.perm.map Scored.id).nodup_iff.mpr (scored.nodup_iff.mpr ?_)
    exact SortedMap.nodup_of_ascending ascending
  refine ⟨takes.perm, ⟨z, found', takes.stored⟩, ?_⟩
  exact (endRefine_stored found labelled ended).records opened distinct

end Service

namespace World
open Service

/-- Whatever is performed while a refinement is under way, its session is there and is for the same
index, ranker and results. -/
theorem profile_of_begun {w : World} {ref : Ref} {budget : Budget} {x : Session} {begun : Service}
    {r : Refinement} (sound : w.Sound) (found : w.service.sessions.get? ref = some x)
    (begins : w.service.beginRefine ref budget = (begun, .ok r)) (between : List Operation) :
    ∃ y, ((w.perform (.beginRefine ref budget)).1.run between).service.sessions.get? r.session =
      some y ∧ y.profile = x.profile := by
  obtain ⟨rfl, visit, _⟩ := beginRefine_ok begins
  obtain ⟨_, noted, rfl, _⟩ := visit.toTouch.exists_after found
  have here : (w.perform (.beginRefine r.session budget)).1.service.sessions.get? r.session =
      some (x.begun w.service.now) := by
    rw [perform_beginRefine_ok begins]
    exact noted
  exact run_profile (perform_sound sound _) here between

/-- A refinement of a session that stores its results, whatever was performed before. Beginning it
stores nothing. Whatever is performed until the ranker has answered, if it has scored each candidate
once and the refinement succeeds, then the store records the ranking that the session has from then
on, and keeps all else as it was: other labels and other ids, those of earlier rankings included. A
store in files has a folder for its root. -/
theorem records_of_run (files : FileTree) (descriptors : Store Descriptor)
    (results : Store Classification) (settings : RegistrySettings) (label : Option String)
    (earlier : List Operation) (ref : Ref) (budget : Budget) (x : Session) (target : String)
    (ix : Index) (begun : Service) (r : Refinement) :
    let w := (fresh files descriptors results settings label).run earlier
    w.service.sessions.get? ref = some x → x.resultLabel = some target →
    w.service.indexes.get? x.index = some ix → ix.Reached →
    w.service.beginRefine ref budget = (begun, .ok r) →
    begun.resultShelf = w.service.resultShelf ∧
      ∀ between : List Operation,
        let amid := ((w.perform (.beginRefine ref budget)).1.run between).service
        amid.resultShelf.Opened →
        ∀ scores after ranking, (scores.map Scored.id).Perm (r.request.pool.map Key.id) →
          amid.endRefine r (.ok scores) = (after, .ok ranking) →
          ranking.Perm scores ∧
            (∃ z, after.sessions.get? ref = some z ∧ z.feedback.ranking = ranking) ∧
            amid.resultShelf.Records target ranking after.resultShelf := by
  intro w found labelled held reached begins
  have start : (fresh files descriptors results settings label).Sound := fresh_sound _ _ _ _ _
  have sound : w.Sound := run_sound start earlier
  have gathered := beginRefine_gathers begins found (sound.consistent ref x found) held
    reached.tabled
  constructor
  · have same := w.beginRefine_shelf ref budget
    rwa [perform_beginRefine_ok begins] at same
  · intro between amid opened scores after ranking scored ended
    obtain ⟨y, found', profile⟩ := profile_of_begun sound found begins between
    have labelled' : y.resultLabel = some target :=
      (congrArg Session.Profile.resultLabel profile).trans labelled
    obtain ⟨rfl, _⟩ := beginRefine_ok begins
    exact endRefine_records found' labelled' gathered.ascending scored opened ended

/-- A score goes to a file beside that of an id which is no longer ranked. -/
theorem records_of_run_files :
    let old : Folder := .folder "found" (.file "b.json" [] .empty) .empty
    let files : FileTree := ⟨.folder "data" old .empty, 0⟩
    let one : Descriptor := [⟨0x3f800000⟩]
    let a : Key := ⟨"kind", "a"⟩
    let b : Key := ⟨"kind", "b"⟩
    let descriptors : Store Descriptor := .memory (.ofList [(a, one), (b, [⟨0xbf800000⟩])])
    let results : Store Classification := .folder ["data"]
    let made := Index.unbuilt Hasher.sign 1
    let calls : List IndexCall := [.update (Shelf.computed ⟨descriptors, files⟩) [a, b]]
    let earlier : List Operation :=
      [.elsewhere files descriptors results (.ofList [(0, (made.run calls).1)]),
        .startAlone "s" ⟨1800, 1⟩ 0 ⟨fun _ _ _ => .ok []⟩ (some "found"), .seed 0 a 1]
    let w := (fresh files descriptors results default none).run earlier
    let scores : List Scored := [⟨"a", ⟨0x3fe8000000000000⟩⟩]
    ∃ x begun r, w.service.sessions.get? 0 = some x ∧ x.resultLabel = some "found" ∧
      w.service.beginRefine 0 .unlimited = (begun, .ok r) ∧ begun.resultShelf.Opened ∧
      r.request.pool = [a] ∧
      ∃ after ranking, begun.endRefine r (.ok scores) = (after, .ok ranking) ∧
        begun.resultShelf.Records "found" ranking after.resultShelf := by
  intro old files one a b descriptors results made calls earlier w scores
  have there : (w.service.sessions.get? 0).map (fun x => (x.index, x.resultLabel)) =
      some (0, some "found") := by decide +kernel
  obtain ⟨x, found, told⟩ := Option.map_eq_some_iff.mp there
  rw [Prod.mk.injEq] at told
  have kept : (w.service.indexes.get? 0).map Index.contents = some (made.run calls).1.contents := by
    decide +kernel
  obtain ⟨ix, held, same⟩ := Option.map_eq_some_iff.mp kept
  have reached : ix.Reached :=
    ⟨Hasher.sign, ⟨.linear, 1⟩, false, made, _, rfl, same⟩
  have asked : (w.service.beginRefine 0 .unlimited).2.map (fun r =>
      (r.session, r.request, r.budget, r.resets)) =
      .ok (0, ⟨[one], [], [a]⟩, .unlimited, 0) := by decide +kernel
  have answered : ((w.service.beginRefine 0 .unlimited).1.endRefine
      ⟨0, ⟨[one], [], [a]⟩, .unlimited, 0⟩ (.ok scores)).2.map (fun _ => ()) = .ok () := by
    decide +kernel
  have stands : w.service.resultShelf.Opened := by decide +kernel
  cases begins : w.service.beginRefine 0 .unlimited with
  | mk begun answer =>
    rw [begins] at asked answered
    cases answer with
    | error e => cases asked
    | ok r =>
      obtain ⟨session, request, budget, resets⟩ := r
      cases asked
      cases ends : begun.endRefine ⟨0, ⟨[one], [], [a]⟩, .unlimited, 0⟩ (.ok scores) with
      | mk after answer =>
        rw [ends] at answered
        cases answer with
        | error e => cases answered
        | ok ranking =>
          obtain ⟨shelf, goesOn⟩ := records_of_run files descriptors results default none earlier 0
            .unlimited x "found" ix begun _ found told.2 (told.1 ▸ held) reached begins
          have opened : begun.resultShelf.Opened := shelf ▸ stands
          have amid := perform_beginRefine_ok begins
          obtain ⟨_, _, records⟩ := goesOn [] (by rw [amid]; exact opened) scores after ranking
            (.refl _) (by rw [amid]; exact ends)
          rw [amid] at records
          exact ⟨x, begun, _, found, told.2, rfl, opened, rfl, after, ranking, ends, records⟩

end World
end Retrieval
