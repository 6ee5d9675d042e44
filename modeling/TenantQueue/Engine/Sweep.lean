import TenantQueue.Engine.Durable

/-! Sweeps over several queues. A failure on one queue is logged and does not stop the others. -/
namespace TenantQueue.Engine

def sweepQueue (engine : Engine) (measured : Bool) (queue : String) (now : Instant) :
    Program Nat := do
  let count ← engine.requeueExpired queue now
  if measured then
    .observe (.requeued queue count)
    let depth ← size queue
    .observe (.depth queue depth)
  return count

def sweep (engine : Engine) (measured : Bool) (queues : List (String × Instant)) : Program Nat :=
  total (fun queue => do
    match ← (engine.sweepQueue measured queue.1 queue.2).attempt with
    | .ok count => return count
    | .error failure =>
      .log .error ("Sweep of " ++ queue.1 ++ " failed: " ++ failure.message)
      return 0) queues

end TenantQueue.Engine
