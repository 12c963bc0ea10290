import Retrieval.Hasher.Hyperplanes

/-!
Hyperplanes in random directions. Where the numbers come from is up to the caller, whose generator
is taken on by each draw.
-/
namespace Retrieval
variable {G : Type}

/-- Draw numbers one after the other, and answer the generator that is left. -/
def drawAll (draw : G → Single × G) : Nat → G → List Single × G
  | 0, g => ([], g)
  | n + 1, g =>
    let (x, g) := draw g
    let (rest, g) := drawAll draw n g
    (x :: rest, g)

@[simp] theorem length_drawAll (draw : G → Single × G) (n : Nat) (g : G) :
    (drawAll draw n g).1.length = n := by
  induction n generalizing g with
  | zero => rfl
  | succ n ih => exact congrArg (· + 1) (ih _)

/-- Planes through the origin, one for each bit, drawn row after row. -/
def Hyperplanes.random (draw : G → Single × G) (dimension bits : Nat) (g : G) :
    Except Error (Hyperplanes × G) :=
  if dimension = 0 then .error (.invalidConfig .dimensionZero)
  else if bits = 0 then .error (.invalidConfig .bitLengthZero)
  else
    let drawn := drawAll draw (bits * dimension) g
    .ok (⟨⟨bits, dimension, drawn.1, length_drawAll draw _ g⟩, none⟩, drawn.2)

end Retrieval
