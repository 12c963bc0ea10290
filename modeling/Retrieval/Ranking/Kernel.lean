import Retrieval.Distance
import Retrieval.Ranking.Ranker

/-!
Ranking by mean similarity to the examples. The margin between the positive and the negative mean
goes through a logistic curve; positives weigh more when negatives outnumber them. The pool is
scored in blocks, and the budget is looked at before each.
-/
namespace Retrieval

/-- How alike two descriptors are. -/
inductive Kernel where
  | angular
  | histogramIntersection
deriving DecidableEq, Inhabited

namespace Kernel

/-- Histograms are compared after scaling them to sum one. -/
def prepare : Kernel → Descriptor → Descriptor
  | angular, v => v
  | histogramIntersection, v => Descriptor.normalized v

def distance : Kernel → Descriptor → Descriptor → Distance
  | angular => Distance.angular
  | histogramIntersection => Distance.histogram

def similarity (k : Kernel) (a b : Descriptor) : Float := 1 - (k.distance a b).size.widen

/-- The mean similarity to the examples, or `otherwise` without any. -/
def meanSimilarity (k : Kernel) (x : Descriptor) (otherwise : Float) (examples : List Descriptor) :
    Float :=
  if examples.isEmpty then otherwise
  else Descriptor.total (examples.map (k.similarity x)) / examples.length.toFloat

end Kernel

/-- A kernel and the steepness of the curve. -/
structure KernelRanker where
  kernel : Kernel
  gain : Double
deriving DecidableEq

/-- Cut a list into blocks of `size`, the last of them as long as what is left. -/
def blocks {α : Type} (size : Nat) : List α → List (List α)
  | [] => []
  | x :: rest => (x :: rest.take (size - 1)) :: blocks size (rest.drop (size - 1))
termination_by list => list.length
decreasing_by simp only [List.length_drop, List.length_cons]; omega

namespace KernelRanker

/-- Angular, with a gain of eight. -/
instance : Inhabited KernelRanker := ⟨.angular, ⟨0x4020000000000000⟩⟩

/-- How many candidates are scored between two looks at the budget. -/
def blockSize : Nat := 256

def validate (r : KernelRanker) : Except Error Unit :=
  if r.gain.isFinite ∧ 0 < r.gain.value then .ok ()
  else .error (.invalidConfig (.gainNotPositive r.gain))

/-- The weight of the positive mean: never below one. -/
def positiveWeight (positives negatives : Nat) : Float :=
  let ratio := negatives.toFloat / positives.toFloat
  if ratio < 1 then 1 else ratio

/-- The relevance of `x` to prepared examples, between zero and one. -/
def relevance (r : KernelRanker) (positives negatives : List Descriptor) (x : Descriptor) :
    Double :=
  let x := r.kernel.prepare x
  let weight := positiveWeight positives.length negatives.length
  let towards := r.kernel.meanSimilarity x 0 positives
  let away := r.kernel.meanSimilarity x 0.5 negatives
  let margin := (weight * towards - away) / ((weight + 1) / 2)
  let score := 1 / (1 + (-r.gain.value * margin).exp)
  if score.isNaN then .invalid else .ofFloat score

/-- Score one candidate, whose vector has to have the dimension of the examples. -/
def scoreOf (r : KernelRanker) (read : Key → Except Error Descriptor) (dimension : Nat)
    (positives negatives : List Descriptor) (key : Key) : Except Error Scored := do
  let v ← read key
  if v.length ≠ dimension then throw (.dimensionMismatch dimension v.length)
  return ⟨key.id, r.relevance positives negatives v⟩

def rank (r : KernelRanker) (read : Key → Except Error Descriptor) (request : RankRequest)
    (budget : Budget) : Except Error (List Scored) := do
  budget.check
  match request.positives with
  | [] => throw (.invalidState .nothingToRankFrom)
  | first :: _ =>
    match (request.positives ++ request.negatives).find? (·.length ≠ first.length) with
    | some odd => throw (.dimensionMismatch first.length odd.length)
    | none =>
      let positives := request.positives.map r.kernel.prepare
      let negatives := request.negatives.map r.kernel.prepare
      let scored ← (blocks blockSize request.pool).mapM fun block => do
        budget.check
        block.mapM (r.scoreOf read first.length positives negatives)
      return scored.flatten

def ranker (r : KernelRanker) : Ranker := ⟨r.rank⟩

end KernelRanker
end Retrieval
