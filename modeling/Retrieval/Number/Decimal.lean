import Retrieval.Number.Binary

/-!
Decimal text of floating-point numbers: to a fixed number of places, rounded from the exact binary
value, and as the shortest digits that read back as the same number. All arithmetic is on natural
numbers, so nothing is rounded twice.
-/
namespace Retrieval

/-- The finite number of magnitude `mantissa * 2 ^ exponent`. Its neighbour above is one unit away;
the one below is half a unit away when `narrowBelow` is set. -/
structure Dyadic where
  negative : Bool
  mantissa : Nat
  exponent : Int
  narrowBelow : Bool

/-- What a bit pattern stands for. -/
inductive Reading where
  | finite (number : Dyadic)
  | infinite (negative : Bool)
  | nan

private def readPattern (fractionBits exponentBits bias : Nat) (pattern : Nat) : Reading :=
  let negative := pattern / Nat.pow 2 (fractionBits + exponentBits) % 2 = 1
  let exponent := pattern / Nat.pow 2 fractionBits % Nat.pow 2 exponentBits
  let fraction := pattern % Nat.pow 2 fractionBits
  if exponent = Nat.pow 2 exponentBits - 1 then
    if fraction = 0 then .infinite negative else .nan
  else if exponent = 0 then
    .finite ⟨negative, fraction, 1 - (bias + fractionBits : Int), false⟩
  else
    .finite ⟨negative, Nat.pow 2 fractionBits + fraction, exponent - (bias + fractionBits : Int),
      fraction = 0 ∧ 1 < exponent⟩

def Single.reading (x : Single) : Reading := readPattern 23 8 127 x.bits.toNat

def Double.reading (x : Double) : Reading := readPattern 52 11 1023 x.bits.toNat

/-- Which of two decimals is taken that are equally close to a number. -/
inductive TieRule where
  | even
  | away
deriving DecidableEq

/-- Choose between `below` and its successor. -/
def TieRule.choose (rule : TieRule) (below : Nat) : Nat :=
  if rule = .even ∧ below % 2 = 0 then below else below + 1

/-- The whole number nearest to `num / den`; a tie goes to the even neighbour. -/
def roundHalfEven (num den : Nat) : Nat :=
  let quotient := num / den
  let rest := num % den
  if 2 * rest < den then quotient
  else if den < 2 * rest then quotient + 1
  else TieRule.even.choose quotient

private def padLeft (width : Nat) (digits : List Char) : List Char :=
  List.replicate (width - digits.length) '0' ++ digits

private def signed (negative : Bool) (digits : List Char) : String :=
  String.ofList (if negative then '-' :: digits else digits)

private def special : Reading → String
  | .infinite true => "-inf"
  | .infinite false => "inf"
  | _ => "NaN"

namespace Dyadic

/-- The magnitude in units of the last of `places` decimal places. -/
def scaled (d : Dyadic) (places : Nat) : Nat :=
  roundHalfEven (d.mantissa * Nat.pow 10 places * Nat.pow 2 d.exponent.toNat)
    (Nat.pow 2 (-d.exponent).toNat)

/-- The sign stays on a number that rounds to zero. -/
def fixed (d : Dyadic) (places : Nat) : String :=
  let units := d.scaled places
  let whole := (toString (units / Nat.pow 10 places)).toList
  let rest := padLeft places (toString (units % Nat.pow 10 places)).toList
  signed d.negative (if places = 0 then whole else whole ++ '.' :: rest)

/-- The grid of multiples of `10 ^ place`, beside the number's own grid of quarter units. -/
private structure Grids where
  step : Nat
  quarter : Nat

private def grids (d : Dyadic) (place : Int) : Grids where
  step := Nat.pow 10 place.toNat * Nat.pow 2 (2 - d.exponent).toNat
  quarter := Nat.pow 2 (d.exponent - 2).toNat * Nat.pow 10 (-place).toNat

/-- The multiple of `10 ^ place` closest to the number among those that read back as it. -/
def nearestAt (d : Dyadic) (ties : TieRule) (place : Int) : Option Nat :=
  let g := d.grids place
  let middle := 4 * d.mantissa * g.quarter
  let low := (4 * d.mantissa - if d.narrowBelow then 1 else 2) * g.quarter
  let high := (4 * d.mantissa + 2) * g.quarter
  let closed := d.mantissa % 2 = 0
  let readsBack (c : Nat) : Bool :=
    if closed then low ≤ c * g.step ∧ c * g.step ≤ high
    else low < c * g.step ∧ c * g.step < high
  let below := middle / g.step
  let above := below + 1
  match readsBack below, readsBack above with
  | true, true =>
    let twice := (below + above) * g.step
    if 2 * middle < twice then some below
    else if twice < 2 * middle then some above
    else some (ties.choose below)
  | true, false => some below
  | false, true => some above
  | false, false => none

private def searchDown (d : Dyadic) (ties : TieRule) : Nat → Int → Nat × Int
  | 0, place => (d.mantissa, place)
  | fuel + 1, place =>
    match d.nearestAt ties place with
    | some digits => (digits, place)
    | none => searchDown d ties fuel (place - 1)

/-- The shortest decimal `digits * 10 ^ place` that reads back as the number: the search starts on a
grid too coarse to hit and refines it one decimal place at a time. -/
def shortest (d : Dyadic) (ties : TieRule) : Nat × Int :=
  if d.mantissa = 0 then (0, 0)
  else
    let magnitude : Int := Nat.log2 d.mantissa + d.exponent + 1
    searchDown d ties 40 (magnitude * 30103 / 100000 + 2)

end Dyadic

/-- How a decimal is laid out: with a plain point while the point stands within the bounds, and in
exponent form beyond them, where the exponent has a sign; `wholeEnd` follows a whole number. -/
structure DecimalStyle where
  lowest : Option Int
  highest : Option Int
  wholeEnd : String
  ties : TieRule

namespace DecimalStyle

/-- Positional at every size. -/
def plain : DecimalStyle := ⟨none, none, "", .away⟩

/-- Double-precision numbers of a document: positional from `1e-5` up to `1e16`. -/
def documentDouble : DecimalStyle := ⟨some (-5), some 16, ".0", .even⟩

/-- Single-precision numbers of a document: positional from `1e-6` up to `1e13`. -/
def documentSingle : DecimalStyle := ⟨some (-6), some 13, ".0", .even⟩

private def within (style : DecimalStyle) (point : Int) : Bool :=
  style.lowest.all (· < point) && style.highest.all (point ≤ ·)

/-- Lay out the magnitude `digits * 10 ^ place`. -/
def layOut (style : DecimalStyle) (digits : Nat) (place : Int) : List Char :=
  let text := (toString digits).toList
  if digits = 0 then '0' :: style.wholeEnd.toList
  else
    let point : Int := text.length + place
    if style.within point then
      if 0 ≤ place then text ++ List.replicate place.toNat '0' ++ style.wholeEnd.toList
      else if 0 < point then text.take point.toNat ++ '.' :: text.drop point.toNat
      else '0' :: '.' :: (List.replicate (-point).toNat '0' ++ text)
    else
      let fraction := text.drop 1
      let exponent := (toString (point - 1)).toList
      text.take 1 ++ (if fraction.isEmpty then [] else '.' :: fraction) ++
        'e' :: (if 0 < point then '+' :: exponent else exponent)

/-- The shortest text in this style. -/
def write (style : DecimalStyle) : Reading → String
  | .finite d =>
    let digits := d.shortest style.ties
    signed d.negative (style.layOut digits.1 digits.2)
  | other => special other

end DecimalStyle

namespace Reading

def fixed (places : Nat) : Reading → String
  | .finite d => d.fixed places
  | other => special other

end Reading

/-- The number to a fixed number of decimal places. -/
def Single.fixed (x : Single) (places : Nat) : String := x.reading.fixed places

/-- The number to a fixed number of decimal places. -/
def Double.fixed (x : Double) (places : Nat) : String := x.reading.fixed places

/-- The number in the fewest digits, always positional. -/
def Double.plain (x : Double) : String := DecimalStyle.plain.write x.reading

end Retrieval
