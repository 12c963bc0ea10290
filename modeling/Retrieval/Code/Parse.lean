import Retrieval.Error

/-! Codes read from texts that may spell anything. -/
namespace Retrieval.Code

/-- The code that a text spells; the first character that is no bit is the error. -/
def parse (s : String) : Except Error Code :=
  (ofText s).mapError fun found => .invalidConfig (.notABit found)

end Retrieval.Code
