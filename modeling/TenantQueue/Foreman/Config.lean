import TenantQueue.Failure

/-! Settings of a foreman: the queue it serves, how many workers it has, how long it waits
before it pops again, and from when on a task counts as slow. -/
namespace TenantQueue

structure ForemanConfig where
  queue : String
  poolSize : Nat
  pollInterval : Duration
  slowThreshold : Duration
  deriving DecidableEq, Inhabited

namespace ForemanConfig

def ofQueue (queue : String) : ForemanConfig :=
  ⟨queue, 10, Duration.ofMilliseconds 250, Duration.ofSeconds 60⟩

def standard : ForemanConfig := ofQueue "default"

def validate (config : ForemanConfig) : Except Failure Unit :=
  if config.queue.isEmpty then .error (.config .emptyQueueName)
  else if config.poolSize = 0 then .error (.config .emptyPool)
  else if config.pollInterval.isZero then .error (.config .zeroPollInterval)
  else .ok ()

def shown (config : ForemanConfig) : String :=
  "ForemanConfig \x7b queue_name: " ++ Text.quoted config.queue ++
    ", pool_size: " ++ Nat.repr config.poolSize ++
    ", poll_interval: " ++ config.pollInterval.text ++
    ", slow_task_threshold: " ++ config.slowThreshold.text ++ " \x7d"

end ForemanConfig
end TenantQueue
