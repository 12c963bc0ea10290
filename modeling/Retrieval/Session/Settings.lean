import Retrieval.Error

/-! What sessions and their registry are told when they are set up. -/
namespace Retrieval

/-- A session may expire when it has been idle for longer than `timeToLive` seconds, and a
refinement looks for `poolSize` neighbours of each positive example. -/
structure SessionSettings where
  timeToLive : Nat
  poolSize : Nat
deriving DecidableEq

namespace SessionSettings

/-- Half an hour and two hundred neighbours. -/
instance : Inhabited SessionSettings := ⟨1800, 200⟩

def validate (s : SessionSettings) : Except Error Unit :=
  if s.poolSize = 0 then .error (.invalidConfig .poolSizeZero) else .ok ()

def describe (s : SessionSettings) : String :=
  "SessionConfig \x7b ttl_seconds: " ++ toString s.timeToLive ++ ", pool_size: " ++
    toString s.poolSize ++ " \x7d"

end SessionSettings

/-- Idle sessions expire only if `expires` is set, and the ids of the last `remembered` sessions
that ended are kept in mind. -/
structure RegistrySettings where
  session : SessionSettings
  expires : Bool
  reapInterval : Nat
  remembered : Nat
deriving DecidableEq

namespace RegistrySettings

instance : Inhabited RegistrySettings := ⟨default, false, 30, 4096⟩

def validate (s : RegistrySettings) : Except Error Unit := do
  s.session.validate
  if s.reapInterval = 0 then throw (.invalidConfig .reapIntervalZero)

def describe (s : RegistrySettings) : String :=
  "ManagerConfig \x7b session: " ++ s.session.describe ++ ", expiration_enabled: " ++
    toString s.expires ++ ", reap_interval_seconds: " ++ toString s.reapInterval ++
    ", retired_capacity: " ++ toString s.remembered ++ " \x7d"

end RegistrySettings
end Retrieval
