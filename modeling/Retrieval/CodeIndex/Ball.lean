import Retrieval.CodeIndex.Nearest
import Retrieval.Sorted.Set

/-!
Balls over codes: every code of a ball lies within its radius of its pivot. A large ball is split
into two, so that a search can pass over a ball whose nearest possible code is already too far.
Distances are counted in 32 bits, so this goes well for codes of fewer than `2 ^ 32` bits.
-/
namespace Retrieval

inductive Ball where
  | leaf (pivot : Code) (radius : UInt32) (codes : List Code)
  | node (pivot : Code) (radius : UInt32) (left right : Ball)
deriving DecidableEq

/-- The bitwise majority of `codes`; a bit that half of them set is clear. -/
def majority (codes : List Code) : Code :=
  Code.ofBools ((List.range (codes.head?.elim 0 Code.length)).map fun i =>
    codes.length < 2 * codes.countP (·.bit i))

/-- How far the farthest of the codes is from their majority. -/
def reach (codes : List Code) : UInt32 := (codes.map (·.hamming (majority codes))).foldl max 0

theorem majority_singleton (code : Code) : majority [code] = code := by
  have counted (i : Nat) : decide (1 < 2 * [code].countP (·.bit i)) = code.bit i := by
    cases bit : code.bit i <;> simp [bit]
  simp only [majority, List.head?_cons, Option.elim_some, List.length_singleton, counted,
    ← Code.toBools_eq, Code.ofBools_toBools]

/-- Codes that are some way apart are more than one. -/
theorem one_lt_length_of_reach {codes : List Code} (spread : reach codes ≠ 0) :
    1 < codes.length := by
  match codes with
  | [] => exact absurd rfl spread
  | [code] =>
    refine absurd ?_ spread
    rw [reach, majority_singleton, List.map_singleton, Code.hamming_self]
    rfl
  | _ :: _ :: _ => simp

/-- The first of the codes, starting with `best`, that is farthest from `origin`. -/
def farthest (origin best : Code) : List Code → Code
  | [] => best
  | code :: rest =>
    farthest origin (if best.hamming origin < code.hamming origin then code else best) rest

/-- Deal codes to the nearer of two seeds; a code between them goes to the smaller side. -/
def deal (left right : Code) : (toLeft toRight : Nat) → List Code → List Code × List Code
  | _, _, [] => ([], [])
  | toLeft, toRight, code :: rest =>
    let nearLeft := code.hamming left
    let nearRight := code.hamming right
    if nearLeft < nearRight ∨ (nearLeft = nearRight ∧ toLeft ≤ toRight) then
      let sides := deal left right (toLeft + 1) toRight rest
      (code :: sides.1, sides.2)
    else
      let sides := deal left right toLeft (toRight + 1) rest
      (sides.1, code :: sides.2)

/-- Split codes between two far-apart seeds, or in the middle if one side would stay empty. -/
def divide (pivot first : Code) (codes : List Code) : List Code × List Code :=
  let left := farthest pivot first codes
  let sides := deal left (farthest left first codes) 0 0 codes
  if sides.1.isEmpty || sides.2.isEmpty then
    let all := sides.1 ++ sides.2
    (all.take (all.length / 2), all.drop (all.length / 2))
  else sides

private theorem length_deal (left right : Code) (toLeft toRight : Nat) (codes : List Code) :
    (deal left right toLeft toRight codes).1.length +
      (deal left right toLeft toRight codes).2.length = codes.length := by
  induction codes generalizing toLeft toRight with
  | nil => rfl
  | cons code rest ih =>
    unfold deal
    dsimp only
    split
    · simp only [List.length_cons]; have := ih (toLeft + 1) toRight; omega
    · simp only [List.length_cons]; have := ih toLeft (toRight + 1); omega

/-- Both sides of a split of two or more codes are smaller than the whole. -/
theorem length_divide_lt (pivot first : Code) (codes : List Code) (many : 1 < codes.length) :
    (divide pivot first codes).1.length < codes.length ∧
      (divide pivot first codes).2.length < codes.length := by
  have total := length_deal (farthest pivot first codes)
    (farthest (farthest pivot first codes) first codes) 0 0 codes
  unfold divide
  dsimp only
  split
  · simp only [List.length_take, List.length_drop, List.length_append]; omega
  · rename_i both
    simp only [Bool.or_eq_true, List.isEmpty_iff_length_eq_zero, not_or] at both
    omega

namespace Ball

def pivot : Ball → Code
  | leaf pivot _ _ | node pivot _ _ _ => pivot

def radius : Ball → UInt32
  | leaf _ radius _ | node _ radius _ _ => radius

def isEmpty : Ball → Bool
  | leaf _ _ codes => codes.isEmpty
  | node .. => false

/-- No code of the ball is nearer to `query` than this. -/
def lowerBound (b : Ball) (query : Code) : UInt32 :=
  let distance := query.hamming b.pivot
  if distance ≤ b.radius then 0 else distance - b.radius

def depth : Ball → Nat
  | leaf .. => 1
  | node _ _ left right => 1 + max left.depth right.depth

/-- The codes of the ball, leaf by leaf. -/
def codes : Ball → List Code
  | leaf _ _ codes => codes
  | node _ _ left right => left.codes ++ right.codes

/-- The tightest ball around the majority, split until each of its leaves holds at most `leafSize`
codes or codes at no distance from their majority. -/
def grow (leafSize : Nat) (codes : List Code) : Ball :=
  if codes.length ≤ leafSize ∨ reach codes = 0 then leaf (majority codes) (reach codes) codes
  else
    let sides := divide (majority codes) (codes.headD (majority codes)) codes
    node (majority codes) (reach codes) (grow leafSize sides.1) (grow leafSize sides.2)
termination_by codes.length
decreasing_by
  · exact (length_divide_lt _ _ _ (one_lt_length_of_reach (not_or.mp ‹_›).2)).1
  · exact (length_divide_lt _ _ _ (one_lt_length_of_reach (not_or.mp ‹_›).2)).2

/-- How many codes a leaf may hold between two growths: twice `leafSize`, doubled in 64 bits. -/
def capacity (leafSize : Nat) : Nat := 2 * leafSize % UInt64.size

/-- Add a code: radii widen on the way down, and a leaf that holds more codes than it may is grown
anew from its codes in order. -/
def insert (leafSize : Nat) (code : Code) : Ball → Ball
  | leaf pivot radius codes =>
    let held := codes ++ [code]
    if capacity leafSize < held.length then
      grow leafSize (held.mergeSort fun a b => (compare a b).isLE)
    else if codes.isEmpty then leaf code 0 held
    else leaf pivot (max radius (code.hamming pivot)) held
  | node pivot radius left right =>
    let radius := max radius (code.hamming pivot)
    if code.hamming left.pivot ≤ code.hamming right.pivot then
      node pivot radius (left.insert leafSize code) right
    else node pivot radius left (right.insert leafSize code)

/-- Put the sides of a split ball together again; an empty side is left out. -/
def join (pivot : Code) (radius : UInt32) (left right : Ball) : Ball :=
  if left.isEmpty then right else if right.isEmpty then left else node pivot radius left right

/-- Take a code out, or answer `none` if the ball does not hold it. An emptied side leaves its
sibling in place of both; radii stay as they are. -/
def remove (code : Code) : Ball → Option Ball
  | leaf pivot radius codes =>
    if radius < code.hamming pivot then none
    else if code ∈ codes then some (leaf pivot radius (codes.erase code))
    else none
  | node pivot radius left right =>
    if radius < code.hamming pivot then none
    else
      match left.remove code with
      | some left => some (join pivot radius left right)
      | none => (right.remove code).map (join pivot radius left ·)

/-- Whether `k` hits are at hand and none of them can give way to a code of the ball. A code at the
distance of the worst hit still can, so the bound is strict. -/
def hopeless (b : Ball) (query : Code) (k : Nat) (best : List Hit) : Bool :=
  best.length = k && best.getLast?.any (·.distance < b.lowerBound query)

/-- Offer the codes of the ball, the side with the smaller bound first. -/
def search (query : Code) (k : Nat) : Ball → List Hit → List Hit
  | b@(leaf _ _ codes), best =>
    if b.hopeless query k best then best else offerAll query k best codes
  | b@(node _ _ left right), best =>
    if b.hopeless query k best then best
    else if left.lowerBound query ≤ right.lowerBound query then
      right.search query k (left.search query k best)
    else left.search query k (right.search query k best)

end Ball
end Retrieval
