import Retrieval.Hasher.Hyperplanes
import Retrieval.Proofs.Index.Loading

/-!
What a whole run of calls leaves: the index follows its catalog call by call, so whatever holds of
the tables of a catalog holds after any calls (`run_refines_catalog`).
-/
namespace Retrieval

theorem Hyperplanes.hasher_faithful (dot : InnerProduct) (h : Hyperplanes) (fits : h.Broadcasts) :
    (h.hasher dot fits).Faithful := by
  intro v code hashed
  have ended : h.hash dot v = .answered (.ok code) := Ending.answer_eq_iff.mp hashed
  unfold hash at ended
  split at ended
  · cases ended
  · split at ended
    · cases ended
      exact (List.length_map _).trans List.length_range
    · cases ended

/-- Numbers hashed to their signs. -/
def Hyperplanes.sign : Hyperplanes := ⟨⟨1, 1, [⟨0x3f800000⟩], rfl⟩, none⟩

def Hasher.sign : Hasher := Hyperplanes.sign.hasher projection (by decide)

theorem Hasher.sign_faithful : sign.Faithful := Hyperplanes.hasher_faithful _ _ _

namespace Index
variable {ix : Index} {catalog : Catalog}

/-- An index without any entries that scans its codes. -/
def unbuilt (hasher : Hasher) (overfetch : Nat) : Index :=
  ⟨hasher, ⟨.linear, overfetch⟩, ⟨false, ∅, ∅, ∅, .scan .empty⟩, none⟩

theorem step_follows (faithful : ix.hasher.Faithful) (represents : ix.Represents catalog)
    (call : IndexCall) : ix.Follows (ix.step call) (catalog.attempt ix.hasher call) := by
  cases call with
  | build read keys => exact build_follows faithful represents read keys
  | update read keys => exact update_follows faithful represents read keys
  | remove ids => exact remove_follows represents ids
  | reset => exact reset_follows represents
  | load artifact label => exact load_follows represents artifact label

/-- A call that fails leaves the whole index as it was. -/
theorem step_unchanged (faithful : ix.hasher.Faithful) (represents : ix.Represents catalog)
    {call : IndexCall} {e : Error} (failed : (ix.step call).2 = .error e) :
    (ix.step call).1 = ix := by
  have follows := step_follows faithful represents call
  cases attempt : catalog.attempt ix.hasher call with
  | ok after =>
    rw [attempt] at follows
    rw [follows.1] at failed
    cases failed
  | error e' =>
    rw [attempt] at follows
    exact congrArg Prod.fst follows

/-- After a call the index represents its catalog again, and both have answered alike. -/
theorem step_represents (faithful : ix.hasher.Faithful) (represents : ix.Represents catalog)
    (call : IndexCall) :
    (ix.step call).2 = (catalog.step ix.hasher call).2 ∧
      (ix.step call).1.Represents (catalog.step ix.hasher call).1 ∧
      (ix.step call).1.hasher = ix.hasher ∧ (ix.step call).1.settings = ix.settings := by
  have follows := step_follows faithful represents call
  unfold Catalog.step
  cases attempt : catalog.attempt ix.hasher call with
  | ok after =>
    rw [attempt] at follows
    exact follows
  | error e =>
    rw [attempt] at follows
    rw [show ix.step call = (ix, .error e) from follows]
    exact ⟨rfl, represents, rfl, rfl⟩

theorem run_represents (faithful : ix.hasher.Faithful) (represents : ix.Represents catalog)
    (calls : List IndexCall) :
    (ix.run calls).2 = (catalog.run ix.hasher calls).2 ∧
      (ix.run calls).1.Represents (catalog.run ix.hasher calls).1 ∧
      (ix.run calls).1.hasher = ix.hasher ∧ (ix.run calls).1.settings = ix.settings := by
  induction calls generalizing ix catalog with
  | nil => exact ⟨rfl, represents, rfl, rfl⟩
  | cons call rest ih =>
    obtain ⟨answer, after, hasher, settings⟩ := step_represents faithful represents call
    obtain ⟨answers, later, hasher', settings'⟩ := ih (by rwa [hasher]) after
    rw [hasher] at answers later
    refine ⟨?_, later, hasher'.trans hasher, settings'.trans settings⟩
    simp only [run, Catalog.run, answer, answers]

/-- A new index represents the empty catalog. -/
theorem create_represents {hasher : Hasher} {settings : IndexSettings} {metrics : Bool}
    (created : Index.create hasher settings metrics = .ok ix) :
    ix.Represents .empty ∧ ix.hasher = hasher ∧ ix.settings = settings := by
  unfold create at created
  cases valid : settings.validate with
  | error e =>
    rw [valid] at created
    cases created
  | ok _ =>
    obtain ⟨contents, empty, unbuilt, filed, searchable⟩ := exists_empty valid hasher.bits
    rw [valid, empty] at created
    simp only [bind, Except.bind] at created
    split at created
    · cases created
    · cases created
      exact ⟨⟨unbuilt, filed, Entries.none_proper _, searchable, valid⟩, rfl, rfl⟩

end Index
end Retrieval
