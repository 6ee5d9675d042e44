import TenantQueue.Engine.Durable

/-! The work of a handler on one task, as the steps in which others may see it: calls on the
engine, pauses, looks at the stop signal, and the end. -/
namespace TenantQueue

inductive Job where
  | finished
  | failed (failure : Failure)
  | crashed (crash : Crash)
  | perform (work : Instant → Program Job)
  | pause (milliseconds : Nat) (next : Job)
  /-- Pauses again and again until the stop signal is seen. -/
  | awaitStop (milliseconds : Nat) (next : Job)
  | report (stated : Bool → Report) (next : Job)

structure HandlerContext where
  engine : Engine
  queue : String
  worker : String

namespace HandlerContext

def detached (engine : Engine) (queue : String) : HandlerContext := ⟨engine, queue, "detached"⟩

def shown (context : HandlerContext) : String :=
  "HandlerContext \x7b queue_name: " ++ Text.quoted context.queue ++ ", worker_id: " ++
    Text.quoted context.worker ++ ", .. \x7d"

end HandlerContext

abbrev Handler := HandlerContext → Task → Job

inductive Job.Ending where
  | succeeded
  | failed (failure : Failure)
  | crashed (crash : Crash)

/-- The time since the beginning in milliseconds, and the reading of the clock. -/
structure Moment where
  elapsed : Nat
  reading : Instant

inductive Job.Progress where
  | ready (job : Job)
  | working (program : Program Job)
  | paused (till : Nat) (job : Job)

namespace Job.Progress
variable {σ : Type}

def ending? : Job.Progress → Option Job.Ending
  | ready .finished => some .succeeded
  | ready (.failed failure) => some (.failed failure)
  | ready (.crashed crash) => some (.crashed crash)
  | _ => none

def wake? : Job.Progress → Option Nat
  | paused till _ => some till
  | _ => none

def canAdvance (elapsed : Nat) (progress : Job.Progress) : Bool :=
  match progress with
  | ready .finished => false
  | ready (.failed _) => false
  | ready (.crashed _) => false
  | paused till _ => till ≤ elapsed
  | _ => true

def advance (backend : Backend σ) (moment : Moment) (stopping : Bool) :
    Job.Progress → σ → Job.Progress × List Notice × σ
  | ready (.perform work), state => (working (work moment.reading), [], state)
  | ready (.pause milliseconds next), state =>
    (paused (moment.elapsed + milliseconds) next, [], state)
  | ready (.awaitStop milliseconds next), state =>
    if stopping then (ready next, [], state)
    else (paused (moment.elapsed + milliseconds) (.awaitStop milliseconds next), [], state)
  | ready (.report stated next), state => (ready next, [.reported (stated stopping)], state)
  | working program, state =>
    match program.outcome? with
    | some (.ok next) => (ready next, [], state)
    | some (.failed failure) => (ready (.failed failure), [], state)
    | some (.crashed crash) => (ready (.crashed crash), [], state)
    | none =>
      let (program, notices, state) := program.step backend state
      (working program, notices, state)
  | paused till next, state =>
    (if till ≤ moment.elapsed then ready next else paused till next, [], state)
  | progress, state => (progress, [], state)

end Job.Progress
end TenantQueue
