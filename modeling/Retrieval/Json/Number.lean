import Retrieval.Json.Basic
import Retrieval.Number.Decimal

/-!
What number tokens stand for. The leading digits that fit 64 bits are scaled by a power of ten in
double precision; digits past them only move the point. A number that overflows stands for nothing.
-/
namespace Retrieval

/-- A number token taken apart: `significand * 10 ^ exponent`. It is `exact` if it was written with
digits alone and all of them fit. -/
structure NumberParts where
  negative : Bool
  significand : Nat
  exponent : Int
  exact : Bool
deriving DecidableEq

namespace NumberParts

/-- Append digits to a number while it fits 64 bits; the digits left over come with it. -/
def absorb (n : Nat) : List Char → Nat × List Char
  | [] => (n, [])
  | digit :: rest =>
    let next := n * 10 + (digit.toNat - '0'.toNat)
    if next < 0x10000000000000000 then absorb next rest else (n, digit :: rest)

/-- The number that digits spell. -/
def digitsValue (digits : List Char) : Nat :=
  digits.foldl (fun n digit => n * 10 + (digit.toNat - '0'.toNat)) 0

/-- The number that the text of an exponent spells; no text spells zero. -/
def exponentOf : List Char → Int
  | _ :: '-' :: digits => -digitsValue digits
  | _ :: '+' :: digits => digitsValue digits
  | _ :: digits => digitsValue digits
  | [] => 0

/-- The parts of a token that follows the grammar of numbers. -/
def ofLiteral (literal : List Char) : NumberParts :=
  let negative := literal.head? = some '-'
  let unsigned := if negative then literal.drop 1 else literal
  let whole := absorb 0 (unsigned.takeWhile Char.isDigit)
  let rest := unsigned.dropWhile Char.isDigit
  let fraction := if rest.head? = some '.' then (rest.drop 1).takeWhile Char.isDigit else []
  let all := absorb whole.1 fraction
  let raised := exponentOf (rest.dropWhile fun c => c = '.' || c.isDigit)
  { negative := negative
    significand := all.1
    exponent := raised + whole.2.length - (fraction.length - all.2.length : Nat)
    exact := rest.isEmpty && whole.2.isEmpty }

private def tenTo (n : Nat) : Float := Float.ofScientific 1 false n

/-- Scale by a power of ten, at most `10 ^ 308` at a time. -/
def scale (x : Float) (exponent : Int) : Option Float :=
  if exponent < -308 then
    if x == 0 then some x else scale (x / tenTo 308) (exponent + 308)
  else if exponent < 0 then some (x / tenTo exponent.natAbs)
  else if exponent ≤ 308 then
    let scaled := x * tenTo exponent.natAbs
    if scaled.isInf then none else some scaled
  else if x == 0 then some x else none
termination_by exponent.natAbs

def double? (p : NumberParts) : Option Double :=
  (scale p.significand.toUInt64.toFloat p.exponent).map fun x =>
    Double.ofFloat (if p.negative then -x else x)

/-- A whole number goes to single precision in one step, any other through double precision. -/
def single? (p : NumberParts) : Option Single :=
  if p.exact ∧ (p.negative → 0 < p.significand ∧ p.significand ≤ 0x8000000000000000) then
    let x := p.significand.toUInt64.toFloat32
    some (Single.ofFloat32 (if p.negative then -x else x))
  else p.double?.map fun x => Single.ofFloat32 x.value.toFloat32

end NumberParts

namespace Json

/-- A whole number below `2 ^ 64`, written with digits alone. -/
def nat? : Json → Option Nat
  | .number literal =>
    let parts := NumberParts.ofLiteral literal
    if parts.exact ∧ ¬ parts.negative then some parts.significand else none
  | _ => none

def double? : Json → Option Double
  | .number literal => (NumberParts.ofLiteral literal).double?
  | _ => none

def single? : Json → Option Single
  | .number literal => (NumberParts.ofLiteral literal).single?
  | _ => none

/-- A number in the fewest digits; one that is not finite has no number token and becomes null. -/
def ofDouble (x : Double) : Json :=
  if x.isFinite then .number (DecimalStyle.documentDouble.write x.reading).toList else .null

/-- A number in the fewest digits; one that is not finite has no number token and becomes null. -/
def ofSingle (x : Single) : Json :=
  if x.isFinite then .number (DecimalStyle.documentSingle.write x.reading).toList else .null

end Json
end Retrieval
