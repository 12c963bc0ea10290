import Retrieval.Binary.Wire

/-!
Names of files for arbitrary texts. Letters, digits, `-` and `_` of ASCII stand for themselves and
every other byte is written as two hexadecimal digits behind a percent sign, so an escaped text is
one harmless name and different texts get different names.
-/
namespace Retrieval

/-- The upper-case hexadecimal digit for a number below sixteen. -/
def upperDigit (n : Nat) : Char := Char.ofNat (if n < 10 then 0x30 + n else 0x37 + n)

/-- Whether a byte is a character that needs no escape. -/
def isPlainByte (b : UInt8) : Bool :=
  (0x30 ≤ b && b ≤ 0x39) || (0x41 ≤ b && b ≤ 0x5a) || (0x61 ≤ b && b ≤ 0x7a) || b = 0x2d || b = 0x5f

/-- The characters that a byte is written as. -/
def escapeByte (b : UInt8) : List Char :=
  if isPlainByte b then [Char.ofNat b.toNat]
  else ['%', upperDigit (b.toNat / 16), upperDigit (b.toNat % 16)]

/-- The name for a text; the empty text gets a bare percent sign. -/
def escapeName (s : String) : String :=
  if s.isEmpty then "%" else String.ofList ((textBytes s).flatMap escapeByte)

end Retrieval
