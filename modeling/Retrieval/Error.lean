import Retrieval.Code.Basic
import Retrieval.Key
import Retrieval.Number.Decimal
import Retrieval.Session.Phase
import Retrieval.Text.Quoted

/-!
What can go wrong, as causes; `Error.message` has the wording. Getting fewer neighbours than asked
for is not an error.
-/
namespace Retrieval

/-- A session call that only some phases allow. -/
inductive PhasedCall where
  | seed
  | refine
deriving DecidableEq

/-- A call that the present state does not allow. -/
inductive StateFault where
  | alreadyBuilt
  | loadIntoBuilt
  | handleMissing (id : String)
  | emptyVector (key : Key)
  | emptyClassification (key : Key)
  | nonFiniteConfidence (label : String) (confidence : Double)
  | wrongPhase (call : PhasedCall) (session : String) (phase : Phase)
  | noPositives (session : String)
  | resetMeanwhile (session : String)
  | idInUse (session : String)
  | nothingToRankFrom
deriving DecidableEq

/-- Settings or stored parameters that no index or session can work with. -/
inductive SettingFault where
  | notABit (found : Char)
  | mixedLengths (got held : Nat)
  | leafSizeZero
  | overfetchZero
  | poolSizeZero
  | reapIntervalZero
  | resultLabelEmpty
  | sharedDatabase (path : String)
  | databaseUnavailable (path : String)
  | gainNotPositive (gain : Double)
  | functorMissing
  | functorEmpty
  | dimensionZero
  | bitLengthZero
  | projectionEmpty (bits dimension : Nat)
  | artifactCodeLength (code : Code) (expected : Nat)
  | artifactCodeUnused (code : Code)
  | artifactIdRepeated (id : String)
  | artifactForOtherFunctor (held produced : Nat)
  | documentUnreadable
  | documentMalformed
deriving DecidableEq

inductive Error where
  | notFound (space id : String)
  | notComputed (key : Key)
  | invalidState (fault : StateFault)
  | conflict (id : String)
  | sessionUnavailable (session : String) (phase : Phase)
  | dimensionMismatch (expected got : Nat)
  | invalidConfig (fault : SettingFault)
  | unknownCode (code : Code)
  | cancelled
  | timedOut
  | malformed
  | io
deriving DecidableEq

/-- The space that ids missing from an index are reported in. -/
def indexSpace : String := "lsh-index"

/-- The space that unknown session ids are reported in. -/
def sessionSpace : String := "iqr-session"

namespace PhasedCall

def text : PhasedCall → String
  | .seed => "initialize"
  | .refine => "refine"

end PhasedCall

namespace StateFault

def message : StateFault → String
  | .alreadyBuilt => "index is already built; reset it or use update_index"
  | .loadIntoBuilt => "cannot load a hash map into a built index; reset it first"
  | .handleMissing id => "indexed id " ++ id ++ " has no descriptor handle"
  | .emptyVector key => "refusing to store an empty vector for " ++ key.label ++ "/" ++ key.id
  | .emptyClassification key =>
    "refusing to store an empty classification for " ++ key.label ++ "/" ++ key.id
  | .nonFiniteConfidence label confidence =>
    "label " ++ label ++ " has non-finite confidence " ++ confidence.plain
  | .wrongPhase call session phase =>
    "cannot " ++ call.text ++ " session " ++ session ++ " in state " ++ phase.text
  | .noPositives session => "session " ++ session ++ " has no positive examples to refine from"
  | .resetMeanwhile session => "session " ++ session ++ " was reset during refine"
  | .idInUse session => "session id " ++ session ++ " is already in use"
  | .nothingToRankFrom => "ranking needs at least one positive example"

end StateFault

namespace SettingFault

def message : SettingFault → String
  | .notABit found => "hash code strings may only contain 0 and 1, found " ++ Text.quoteChar found
  | .mixedLengths got held =>
    "hash code has " ++ toString got ++ " bits, index holds " ++ toString held ++ "-bit codes"
  | .leafSizeZero => "leaf_size must be > 0"
  | .overfetchZero => "overfetch_factor must be > 0"
  | .poolSizeZero => "pool_size must be > 0"
  | .reapIntervalZero => "reap_interval_seconds must be > 0"
  | .resultLabelEmpty => "result_label must not be empty"
  | .sharedDatabase path =>
    "descriptor and classification stores share rocksdb path " ++ path
  | .databaseUnavailable path =>
    "rocksdb store at " ++ path ++ " requires the \x60rocksdb\x60 feature"
  | .gainNotPositive gain => "ranker gain must be positive and finite, got " ++ gain.plain
  | .functorMissing => "an LSH functor is required"
  | .functorEmpty => "functor must have non-zero dimension and bit length"
  | .dimensionZero => "dimension must be greater than 0"
  | .bitLengthZero => "bit length must be greater than 0"
  | .projectionEmpty bits dimension =>
    "projection matrix must be non-empty, got " ++ toString bits ++ "x" ++ toString dimension
  | .artifactCodeLength code expected =>
    "artifact code " ++ code.text ++ " has " ++ toString code.length ++ " bits, expected " ++
      toString expected
  | .artifactCodeUnused code => "artifact code " ++ code.text ++ " has no member ids"
  | .artifactIdRepeated id => "id " ++ id ++ " appears under more than one hash code"
  | .artifactForOtherFunctor held produced =>
    "artifact holds " ++ toString held ++ "-bit codes, functor produces " ++ toString produced ++
      " bits"
  | .documentUnreadable => "failed to read config"
  | .documentMalformed => "failed to parse config"

end SettingFault

namespace Error

def message : Error → String
  | .notFound space id => space ++ "/" ++ id ++ " not found"
  | .notComputed key => "descriptor " ++ key.label ++ "/" ++ key.id ++ " has no vector"
  | .invalidState fault => "invalid state: " ++ fault.message
  | .conflict id => id ++ " is already an example of the opposite polarity"
  | .sessionUnavailable session phase =>
    "session " ++ session ++ " is unavailable (" ++ phase.text ++ ")"
  | .dimensionMismatch expected got =>
    "dimension mismatch: expected " ++ toString expected ++ ", got " ++ toString got
  | .invalidConfig fault => "invalid configuration: " ++ fault.message
  | .unknownCode code => "hash code " ++ code.text ++ " is not in the hash index"
  | .cancelled => "refine was cancelled"
  | .timedOut => "refine exceeded its deadline"
  | .malformed => "serialization error"
  | .io => "io error"

end Error
end Retrieval
