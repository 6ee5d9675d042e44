import TenantQueue.Failure

/-! Settings of a queue engine: where its keys lie, how large a payload may be, and how
long a task waits before it is delivered again. -/
namespace TenantQueue

structure Config where
  keyPrefix : String
  payloadLimit : Nat
  backoffBase : Duration
  backoffMax : Duration
  deriving DecidableEq

namespace Config

def standardPrefix : String := "fairq"

def standard : Config :=
  ⟨standardPrefix, 512 * 1024, Duration.ofSeconds 1, Duration.ofSeconds (5 * 60)⟩

instance : Inhabited Config := ⟨standard⟩

def validate (config : Config) : Except Failure Unit :=
  if config.keyPrefix.isEmpty then .error (.config .emptyKeyPrefix)
  else if config.payloadLimit = 0 then .error (.config .zeroPayloadLimit)
  else if config.backoffBase.isZero then .error (.config .zeroBackoffBase)
  else if config.backoffMax < config.backoffBase then
    .error (.config (.backoffBelowBase config.backoffMax config.backoffBase))
  else .ok ()

/-- The wait doubles with each error after the first, up to the greatest. A factor beyond 32 bits
and a product beyond the longest span count as the greatest too. -/
def backoff (config : Config) (errorCount : UInt32) : Duration :=
  let exponent := errorCount.toNat - 1
  if 32 ≤ exponent then config.backoffMax
  else
    match config.backoffBase.times? (Nat.pow 2 exponent) with
    | some span => span.min config.backoffMax
    | none => config.backoffMax

def shown (config : Config) : String :=
  "QueueConfig \x7b key_prefix: " ++ Text.quoted config.keyPrefix ++
    ", max_payload_size: " ++ Nat.repr config.payloadLimit ++
    ", backoff_base: " ++ config.backoffBase.text ++
    ", backoff_max: " ++ config.backoffMax.text ++ " \x7d"

end Config
end TenantQueue
