/-!
Floating-point numbers known by their bit patterns. Equality and order are those of the patterns, so
a stored number is kept exactly, whatever it stands for: negative numbers come before positive ones,
negative zero just before zero, and a NaN lies beyond the infinity of its sign.
-/
namespace Retrieval

/-- A 32-bit floating-point number. -/
structure Single where
  bits : UInt32
deriving DecidableEq, Inhabited

/-- A 64-bit floating-point number. -/
structure Double where
  bits : UInt64
deriving DecidableEq, Inhabited

namespace Single

def value (x : Single) : Float32 := Float32.ofBits x.bits

def ofFloat32 (x : Float32) : Single := ⟨x.toBits⟩

/-- The same number in double precision. -/
def widen (x : Single) : Float := x.value.toFloat

def isNaN (x : Single) : Bool := x.bits &&& 0x7fffffff > 0x7f800000

def isFinite (x : Single) : Bool := x.bits &&& 0x7f800000 ≠ 0x7f800000

/-- The place of a number in the total order of bit patterns. -/
def rank (x : Single) : Nat :=
  if x.bits.toNat < 0x80000000 then 0x80000000 + x.bits.toNat else 0xffffffff - x.bits.toNat

private theorem rank_injective {x y : Single} (same : x.rank = y.rank) : x = y := by
  obtain ⟨x⟩ := x
  obtain ⟨y⟩ := y
  simp only [rank] at same
  have := x.toNat_lt
  have := y.toNat_lt
  exact congrArg mk (UInt32.toNat_inj.1 (by split at same <;> split at same <;> omega))

instance : Ord Single := ⟨compareOn rank⟩

instance : Std.TransOrd Single := inferInstanceAs (Std.TransCmp (compareOn rank))

instance : Std.LawfulEqOrd Single where
  eq_of_compare same := rank_injective (Std.LawfulEqOrd.eq_of_compare same)

end Single

namespace Double

def value (x : Double) : Float := Float.ofBits x.bits

def ofFloat (x : Float) : Double := ⟨x.toBits⟩

/-- The NaN that arithmetic on invalid operands leaves: quiet, with the sign bit set. -/
def invalid : Double := ⟨0xfff8000000000000⟩

def isNaN (x : Double) : Bool := x.bits &&& 0x7fffffffffffffff > 0x7ff0000000000000

def isFinite (x : Double) : Bool := x.bits &&& 0x7ff0000000000000 ≠ 0x7ff0000000000000

/-- The place of a number in the total order of bit patterns. -/
def rank (x : Double) : Nat :=
  if x.bits.toNat < 0x8000000000000000 then 0x8000000000000000 + x.bits.toNat
  else 0xffffffffffffffff - x.bits.toNat

private theorem rank_injective {x y : Double} (same : x.rank = y.rank) : x = y := by
  obtain ⟨x⟩ := x
  obtain ⟨y⟩ := y
  simp only [rank] at same
  have := x.toNat_lt
  have := y.toNat_lt
  exact congrArg mk (UInt64.toNat_inj.1 (by split at same <;> split at same <;> omega))

instance : Ord Double := ⟨compareOn rank⟩

instance : Std.TransOrd Double := inferInstanceAs (Std.TransCmp (compareOn rank))

instance : Std.LawfulEqOrd Double where
  eq_of_compare same := rank_injective (Std.LawfulEqOrd.eq_of_compare same)

end Double
end Retrieval
