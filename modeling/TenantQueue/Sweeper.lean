import TenantQueue.Engine.Sweep
import TenantQueue.Handler.Job

/-! A sweeper: it sweeps its queues at every interval until it is told to stop. -/
namespace TenantQueue

structure SweepPlan where
  queues : List String
  interval : Duration
  measured : Bool
  deriving DecidableEq

namespace SweepPlan

def standardInterval : Duration := Duration.ofSeconds 60

end SweepPlan

inductive SweeperPhase where
  | starting
  | waiting (till : Nat)
  | sweeping (due : Nat) (program : Program Nat)
  | ended
  | lost (crash : Crash)

structure Sweeper where
  engine : Engine
  plan : SweepPlan
  stopping : Bool
  phase : SweeperPhase

namespace Sweeper
variable {σ : Type}

def ofPlan (engine : Engine) (plan : SweepPlan) : Sweeper := ⟨engine, plan, false, .starting⟩

def requestStop (sweeper : Sweeper) : Sweeper := { sweeper with stopping := true }

def isOver (sweeper : Sweeper) : Bool :=
  match sweeper.phase with
  | .ended => true
  | .lost _ => true
  | _ => false

def canAdvance (elapsed : Nat) (sweeper : Sweeper) : Bool :=
  match sweeper.phase with
  | .waiting till => sweeper.stopping || till ≤ elapsed
  | .ended => false
  | .lost _ => false
  | _ => true

def wake? (sweeper : Sweeper) : Option Nat :=
  match sweeper.phase with
  | .waiting till => some till
  | _ => none

/-- One step. The first sweep is due one interval after the start, and each later one an interval
after the one before. -/
def advance (backend : Backend σ) (moment : Moment) (sweeper : Sweeper) (state : σ) :
    Sweeper × List Notice × σ :=
  let enter (phase : SweeperPhase) : Sweeper := { sweeper with phase }
  let plan := sweeper.plan
  match sweeper.phase with
  | .starting =>
    if plan.interval.isZero then (enter (.lost .zeroInterval), [], state)
    else
      (enter (.waiting (moment.elapsed + plan.interval.milliseconds)),
        [.log .info ("Sweeper started (interval: " ++ plan.interval.text ++ ", queues: " ++
          Text.bracketed (plan.queues.map Text.quoted) ++ ")")], state)
  | .waiting till =>
    if sweeper.stopping then (enter .ended, [.log .info "Sweeper stopped"], state)
    else if till ≤ moment.elapsed then
      (enter (.sweeping till (sweeper.engine.sweep plan.measured
        (plan.queues.map fun queue => (queue, moment.reading)))), [], state)
    else (sweeper, [], state)
  | .sweeping due program =>
    match program.outcome? with
    | none =>
      let (program, notices, state) := program.step backend state
      (enter (.sweeping due program), notices, state)
    | some (.crashed crash) => (enter (.lost crash), [], state)
    | some (.failed _) => (enter (.waiting (due + plan.interval.milliseconds)), [], state)
    | some (.ok count) =>
      (enter (.waiting (due + plan.interval.milliseconds)),
        if count = 0 then []
        else [.log .debug ("Sweeper requeued " ++ Nat.repr count ++ " expired tasks")], state)
  | .ended => (sweeper, [], state)
  | .lost _ => (sweeper, [], state)

end Sweeper
end TenantQueue
