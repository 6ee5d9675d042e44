import TenantQueue.Notice
import TenantQueue.Store.Backend

/-! Programs over a store: what is done next for each outcome of a call. The same text runs
to its end on one store, and advances call by call among others. -/
namespace TenantQueue

inductive Program (α : Type) where
  | done (value : α)
  | failed (failure : Failure)
  | crashed (crash : Crash)
  | call (call : Call) (next : Except Failure call.Reply → Program α)
  /-- Pops until a record is found or the registry is empty. -/
  | serve (queue : String) (next : Except Failure (Option (Tenant × Bytes)) → Program α)
  | note (notice : Notice) (next : Program α)

namespace Program
variable {α β σ : Type}

def bind : Program α → (α → Program β) → Program β
  | done value, next => next value
  | failed failure, _ => failed failure
  | crashed crash, _ => crashed crash
  | call request after, next => call request fun reply => (after reply).bind next
  | serve queue after, next => serve queue fun reply => (after reply).bind next
  | note notice rest, next => note notice (rest.bind next)

instance : Monad Program where
  pure := done
  bind := bind

/-- Failures become values. A crash stays one. -/
def attempt : Program α → Program (Except Failure α)
  | done value => done (.ok value)
  | failed failure => done (.error failure)
  | crashed crash => crashed crash
  | call request after => call request fun reply => (after reply).attempt
  | serve queue after => serve queue fun reply => (after reply).attempt
  | note notice rest => note notice rest.attempt

def ofExcept : Except Failure α → Program α
  | .ok value => done value
  | .error failure => failed failure

def perform (request : Call) : Program request.Reply := call request ofExcept

def log (severity : Severity) (text : String) : Program Unit := note (.log severity text) (done ())

def observe (observation : Observation) : Program Unit := note (.observed observation) (done ())

def drainedNotice (queue : String) (tenant : Tenant) : Notice :=
  .log .trace ("Tenant " ++ tenant.name ++ " drained from " ++ queue ++ ", retrying pop")

/-- At most one call. A finished program stays as it is. -/
def step (backend : Backend σ) : Program α → σ → Program α × List Notice × σ
  | call request next, state =>
    match backend.perform request state with
    | (.ok reply, state) => (next (.ok reply), [], state)
    | (.failed failure, state) => (next (.error failure), [], state)
    | (.crashed crash, state) => (crashed crash, [], state)
  | serve queue next, state =>
    match backend.perform (.pop queue) state with
    | (.ok .empty, state) => (next (.ok none), [], state)
    | (.ok (.popped tenant record), state) => (next (.ok (some (tenant, record))), [], state)
    | (.ok (.drained tenant), state) => (serve queue next, [drainedNotice queue tenant], state)
    | (.failed failure, state) => (next (.error failure), [], state)
    | (.crashed crash, state) => (crashed crash, [], state)
  | note notice rest, state => (rest, [notice], state)
  | done value, state => (done value, [], state)
  | failed failure, state => (failed failure, [], state)
  | crashed crash, state => (crashed crash, [], state)

def outcome? : Program α → Option (Outcome α)
  | done value => some (.ok value)
  | failed failure => some (.failed failure)
  | crashed crash => some (.crashed crash)
  | _ => none

def popUntil (backend : Backend σ) (queue : String) (state : σ) :
    Outcome (Option (Tenant × Bytes)) × List Notice × σ :=
  match _ : backend.perform (.pop queue) state with
  | (.ok .empty, next) => (.ok none, [], next)
  | (.ok (.popped tenant record), next) => (.ok (some (tenant, record)), [], next)
  | (.ok (.drained tenant), next) =>
    let (outcome, notices, last) := popUntil backend queue next
    (outcome, drainedNotice queue tenant :: notices, last)
  | (.failed failure, next) => (.failed failure, [], next)
  | (.crashed crash, next) => (.crashed crash, [], next)
termination_by backend.patience queue state
decreasing_by exact backend.patience_lt queue state tenant next (by assumption)

def run (backend : Backend σ) : Program α → σ → Outcome α × List Notice × σ
  | done value, state => (.ok value, [], state)
  | failed failure, state => (.failed failure, [], state)
  | crashed crash, state => (.crashed crash, [], state)
  | call request next, state =>
    match backend.perform request state with
    | (.ok reply, state) => (next (.ok reply)).run backend state
    | (.failed failure, state) => (next (.error failure)).run backend state
    | (.crashed crash, state) => (.crashed crash, [], state)
  | serve queue next, state =>
    match popUntil backend queue state with
    | (.ok reply, notices, state) =>
      let (outcome, more, state) := (next (.ok reply)).run backend state
      (outcome, notices ++ more, state)
    | (.failed failure, notices, state) =>
      let (outcome, more, state) := (next (.error failure)).run backend state
      (outcome, notices ++ more, state)
    | (.crashed crash, notices, state) => (.crashed crash, notices, state)
  | note notice rest, state =>
    let (outcome, notices, state) := rest.run backend state
    (outcome, notice :: notices, state)

end Program
end TenantQueue
