import Mathlib.Data.List.Forall2
import Retrieval.Proofs.Traversal
import Retrieval.Ranking.Kernel

/-!
Ranking by a kernel. Scoring in blocks comes to scoring candidate by candidate
(`KernelRanker.rank_of_grounded`), so an answer of a ranker is one of a few kinds: a spent budget,
examples that are no ground to rank from, the first candidate that cannot be scored, or a score for
each candidate by itself (`KernelRanker.rank_iff`).
-/
namespace Retrieval
variable {α β : Type}

/-- Cutting a list into blocks loses nothing. -/
theorem flatten_blocks (size : Nat) (xs : List α) : (blocks size xs).flatten = xs := by
  induction xs using blocks.induct size with
  | case1 => simp [blocks]
  | case2 x rest ih => rw [blocks, List.flatten_cons, ih, List.cons_append, List.take_append_drop]

/-- Going through parts of a list one after the other is going through the list. -/
theorem mapM_flatten (f : α → Except Error β) (parts : List (List α)) :
    (parts.mapM (List.mapM f)).map List.flatten = parts.flatten.mapM f := by
  induction parts with
  | nil => rfl
  | cons part parts ih =>
    rw [mapM_cons, List.flatten_cons, List.mapM_append, ← ih]
    cases part.mapM f with
    | error e => rfl
    | ok ys =>
      cases parts.mapM (List.mapM f) with
      | error e => rfl
      | ok yss => rfl

namespace Budget

/-- Neither called off nor late. -/
def Unspent (b : Budget) : Prop := b.cancelled ≠ some true ∧ b.overdue = false

theorem check_of_cancelled {b : Budget} (cancelled : b.cancelled = some true) :
    b.check = .error .cancelled := by
  rw [check, if_pos cancelled]

theorem check_of_overdue {b : Budget} (going : b.cancelled ≠ some true)
    (overdue : b.overdue = true) : b.check = .error .timedOut := by
  rw [check, if_neg going, if_pos overdue]

theorem Unspent.check {b : Budget} (unspent : b.Unspent) : b.check = .ok () := by
  obtain ⟨going, timely⟩ := unspent
  rw [Budget.check, if_neg going, timely]
  rfl

/-- A budget is spent in one of two ways, or it is not. -/
theorem spent_cases (b : Budget) :
    b.cancelled = some true ∨ b.cancelled ≠ some true ∧ b.overdue = true ∨ b.Unspent := by
  by_cases cancelled : b.cancelled = some true
  · exact .inl cancelled
  · cases overdue : b.overdue with
    | true => exact .inr (.inl ⟨cancelled, rfl⟩)
    | false => exact .inr (.inr ⟨cancelled, overdue⟩)

end Budget

/-- All vectors have the same length. -/
def OfDimension (dimension : Nat) (vectors : List Descriptor) : Prop :=
  ∀ v ∈ vectors, v.length = dimension

namespace KernelRanker
variable {r : KernelRanker} {read : Key → Except Error Descriptor} {request : RankRequest}
  {budget : Budget} {answer : Except Error (List Scored)} {dimension : Nat} {e : Error}

/-! Candidates -/

section
variable {positives negatives : List Descriptor} {key : Key}

/-- A candidate has a vector of the dimension. -/
def Fits (read : Key → Except Error Descriptor) (dimension : Nat) (key : Key) : Prop :=
  ∃ v, read key = .ok v ∧ v.length = dimension

/-- A candidate has no vector, or one of another dimension. -/
def Fails (read : Key → Except Error Descriptor) (dimension : Nat) (key : Key) (e : Error) : Prop :=
  read key = .error e ∨
    ∃ v, read key = .ok v ∧ v.length ≠ dimension ∧ e = .dimensionMismatch dimension v.length

/-- A candidate's score is the relevance of its own vector to the examples. -/
def Scores (r : KernelRanker) (read : Key → Except Error Descriptor) (dimension : Nat)
    (positives negatives : List Descriptor) (key : Key) (scored : Scored) : Prop :=
  ∃ v, read key = .ok v ∧ v.length = dimension ∧
    scored = ⟨key.id, r.relevance positives negatives v⟩

theorem scoreOf_eq :
    r.scoreOf read dimension positives negatives key = (read key).bind fun v =>
      if v.length = dimension then .ok ⟨key.id, r.relevance positives negatives v⟩
      else .error (.dimensionMismatch dimension v.length) := by
  unfold scoreOf
  cases read key with
  | error e => rfl
  | ok v =>
    by_cases same : v.length = dimension
    · simp [same, bind, Except.bind, pure, Except.pure]
    · simp [same, bind, Except.bind, throw, throwThe, MonadExceptOf.throw]

theorem scoreOf_ok_iff {scored : Scored} :
    r.scoreOf read dimension positives negatives key = .ok scored ↔
      r.Scores read dimension positives negatives key scored := by
  rw [scoreOf_eq, Scores]
  cases read key with
  | error e => simp [Except.bind]
  | ok v =>
    by_cases same : v.length = dimension
    · simp [Except.bind, same, eq_comm]
    · simp [Except.bind, same]

theorem scoreOf_error_iff :
    r.scoreOf read dimension positives negatives key = .error e ↔ Fails read dimension key e := by
  rw [scoreOf_eq, Fails]
  cases read key with
  | error e => simp [Except.bind]
  | ok v =>
    by_cases same : v.length = dimension
    · simp [Except.bind, same]
    · simp [Except.bind, same, eq_comm (a := e)]

theorem exists_scoreOf_iff :
    (∃ scored, r.scoreOf read dimension positives negatives key = .ok scored) ↔
      Fits read dimension key := by
  simp only [scoreOf_ok_iff, Scores, Fits]
  constructor
  · rintro ⟨_, v, held, same, _⟩
    exact ⟨v, held, same⟩
  · rintro ⟨v, held, same⟩
    exact ⟨_, v, held, same, rfl⟩

end

/-! Pools -/

/-- The examples have the dimension of the first positive one. -/
structure Grounded (request : RankRequest) (dimension : Nat) : Prop where
  leads : ∃ first rest, request.positives = first :: rest ∧ first.length = dimension
  same : OfDimension dimension (request.positives ++ request.negatives)

/-- Score every candidate by itself, in the order of the pool. -/
def scoreAll (r : KernelRanker) (read : Key → Except Error Descriptor) (dimension : Nat)
    (request : RankRequest) : Except Error (List Scored) :=
  request.pool.mapM (r.scoreOf read dimension (request.positives.map r.kernel.prepare)
    (request.negatives.map r.kernel.prepare))

theorem rank_of_spent (spent : budget.check = .error e) :
    r.rank read request budget = .error e := by
  rw [rank, spent]
  rfl

theorem rank_of_unfounded (unspent : budget.Unspent) (none : request.positives = []) :
    r.rank read request budget = .error (.invalidState .nothingToRankFrom) := by
  rw [rank, unspent.check, none]
  rfl

theorem rank_of_uneven {first odd : Descriptor} {rest : List Descriptor}
    (unspent : budget.Unspent) (leads : request.positives = first :: rest)
    (found : (request.positives ++ request.negatives).find? (·.length ≠ first.length) = some odd) :
    r.rank read request budget = .error (.dimensionMismatch first.length odd.length) := by
  rw [leads] at found
  unfold rank
  rw [unspent.check]
  simp only [leads, found]
  rfl

/-- Blocks and looks at a budget that lasts make no difference. -/
theorem rank_of_grounded (unspent : budget.Unspent)
    (grounded : Grounded request dimension) :
    r.rank read request budget = r.scoreAll read dimension request := by
  obtain ⟨⟨first, rest, leads, rfl⟩, same⟩ := grounded
  have fits : (request.positives ++ request.negatives).find? (·.length ≠ first.length) = none := by
    simpa [OfDimension, or_imp, forall_and] using same
  -- Cut into blocks, the pool is what the ranker goes through.
  rw [scoreAll, ← flatten_blocks blockSize request.pool, ← mapM_flatten]
  rw [leads] at fits
  unfold rank
  rw [unspent.check]
  simp only [leads, fits]
  rfl

/-- The answers of a ranking whose budget lasts. -/
inductive Answers (r : KernelRanker) (read : Key → Except Error Descriptor)
    (request : RankRequest) : Except Error (List Scored) → Prop where
  | unfounded (none : request.positives = []) :
      Answers r read request (.error (.invalidState .nothingToRankFrom))
  | uneven {first odd : Descriptor} {rest before after : List Descriptor}
      (leads : request.positives = first :: rest)
      (examples : request.positives ++ request.negatives = before ++ odd :: after)
      (fit : OfDimension first.length before) (unfit : odd.length ≠ first.length) :
      Answers r read request (.error (.dimensionMismatch first.length odd.length))
  | unscored {dimension : Nat} {before after : List Key} {key : Key} {e : Error}
      (grounded : Grounded request dimension) (pool : request.pool = before ++ key :: after)
      (fit : ∀ earlier ∈ before, Fits read dimension earlier)
      (unfit : Fails read dimension key e) : Answers r read request (.error e)
  | scored {dimension : Nat} {scores : List Scored} (grounded : Grounded request dimension)
      (each : List.Forall₂ (r.Scores read dimension (request.positives.map r.kernel.prepare)
        (request.negatives.map r.kernel.prepare)) request.pool scores) :
      Answers r read request (.ok scores)

theorem scoreAll_ok_iff {scores : List Scored} :
    r.scoreAll read dimension request = .ok scores ↔
      List.Forall₂ (r.Scores read dimension (request.positives.map r.kernel.prepare)
        (request.negatives.map r.kernel.prepare)) request.pool scores := by
  rw [scoreAll, mapM_ok_iff, ← List.forall₂_eq_eq_eq, List.forall₂_map_left_iff,
    List.forall₂_map_right_iff]
  simp only [scoreOf_ok_iff]

theorem scoreAll_error_iff :
    r.scoreAll read dimension request = .error e ↔ ∃ before key after,
      request.pool = before ++ key :: after ∧ (∀ earlier ∈ before, Fits read dimension earlier) ∧
        Fails read dimension key e := by
  rw [scoreAll, mapM_error_iff]
  simp only [exists_scoreOf_iff, scoreOf_error_iff]

/-- Every ranking whose budget lasts has such an answer. -/
theorem answers_rank (unspent : budget.Unspent) :
    r.Answers read request (r.rank read request budget) := by
  cases leads : request.positives with
  | nil =>
    rw [rank_of_unfounded unspent leads]
    exact .unfounded leads
  | cons first rest =>
    cases found : (request.positives ++ request.negatives).find? (·.length ≠ first.length) with
    | some odd =>
      rw [rank_of_uneven unspent leads found]
      obtain ⟨unfit, before, after, examples, fit⟩ := List.find?_eq_some_iff_append.mp found
      refine .uneven leads examples ?_ (by simpa using unfit)
      intro v earlier
      simpa using fit v earlier
    | none =>
      have grounded : Grounded request first.length := by
        refine ⟨⟨first, rest, leads, rfl⟩, ?_⟩
        intro v member
        simpa using List.find?_eq_none.mp found v member
      rw [rank_of_grounded unspent grounded]
      cases scored : r.scoreAll read first.length request with
      | ok scores => exact .scored grounded (scoreAll_ok_iff.mp scored)
      | error e =>
        obtain ⟨before, key, after, pool, fit, unfit⟩ := scoreAll_error_iff.mp scored
        exact .unscored grounded pool fit unfit

/-- There is one such answer only. -/
theorem Answers.rank_eq (answers : r.Answers read request answer) (unspent : budget.Unspent) :
    r.rank read request budget = answer := by
  cases answers with
  | unfounded none => exact rank_of_unfounded unspent none
  | @uneven first odd rest before after leads examples fit unfit =>
    apply rank_of_uneven unspent leads
    refine List.find?_eq_some_iff_append.mpr ⟨by simpa using unfit, before, after, examples, ?_⟩
    intro v earlier
    simpa using fit v earlier
  | unscored grounded pool fit unfit =>
    rw [rank_of_grounded unspent grounded]
    exact scoreAll_error_iff.mpr ⟨_, _, _, pool, fit, unfit⟩
  | scored grounded each =>
    rw [rank_of_grounded unspent grounded]
    exact scoreAll_ok_iff.mpr each

/-- A ranker that is called off or late answers that, whatever it was to rank. While its budget
lasts, it tells what is wrong with the examples or the first candidate that cannot be scored, or
scores each candidate by itself in the order of the pool. -/
theorem rank_iff (r : KernelRanker) (read : Key → Except Error Descriptor) (request : RankRequest)
    (budget : Budget) (answer : Except Error (List Scored)) :
    r.rank read request budget = answer ↔
      budget.cancelled = some true ∧ answer = .error .cancelled ∨
      budget.cancelled ≠ some true ∧ budget.overdue = true ∧ answer = .error .timedOut ∨
      budget.Unspent ∧ r.Answers read request answer := by
  constructor
  · rintro rfl
    rcases budget.spent_cases with cancelled | ⟨going, overdue⟩ | unspent
    · exact .inl ⟨cancelled, rank_of_spent (Budget.check_of_cancelled cancelled)⟩
    · exact .inr (.inl ⟨going, overdue, rank_of_spent (Budget.check_of_overdue going overdue)⟩)
    · exact .inr (.inr ⟨unspent, answers_rank unspent⟩)
  · rintro (⟨cancelled, rfl⟩ | ⟨going, overdue, rfl⟩ | ⟨unspent, answers⟩)
    · exact rank_of_spent (Budget.check_of_cancelled cancelled)
    · exact rank_of_spent (Budget.check_of_overdue going overdue)
    · exact answers.rank_eq unspent

end KernelRanker
end Retrieval
