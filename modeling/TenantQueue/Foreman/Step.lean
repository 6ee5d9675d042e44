import TenantQueue.Foreman.Assign
import TenantQueue.Foreman.Work

/-! A foreman as a machine. Its members take their steps in any order; each step makes at
most one call on the store. -/
namespace TenantQueue.Foreman
variable {σ : Type}

inductive Member where
  | worker (index : Nat)
  | handler (index : Nat)
  | assigner
  deriving DecidableEq

def members (foreman : Foreman) : List Member :=
  let indices := List.range foreman.workers.length
  indices.map .worker ++ .assigner :: indices.map .handler

def canAdvance (foreman : Foreman) (elapsed : Nat) : Member → Bool
  | .worker index =>
    match foreman.workers[index]? with
    | some worker => foreman.workerCanAdvance worker
    | none => false
  | .handler index =>
    match foreman.workers[index]? with
    | some ⟨_, .handling _ progress⟩ => progress.canAdvance elapsed
    | _ => false
  | .assigner => foreman.isRunning && foreman.assignerCanAdvance elapsed

def wake? (foreman : Foreman) : Member → Option Nat
  | .worker _ => none
  | .handler index =>
    match foreman.workers[index]? with
    | some ⟨_, .handling _ progress⟩ => progress.wake?
    | _ => none
  | .assigner =>
    match foreman.assigner with
    | .pausing till => some till
    | _ => none

def advance (backend : Backend σ) (moment : Moment) (member : Member) (foreman : Foreman)
    (state : σ) : Foreman × List Notice × σ :=
  if foreman.canAdvance moment.elapsed member then
    match member with
    | .worker index =>
      match foreman.workers[index]? with
      | some worker => foreman.advanceWorker backend moment index worker state
      | none => (foreman, [], state)
    | .handler index =>
      match foreman.workers[index]? with
      | some worker => foreman.advanceHandler backend moment index worker state
      | none => (foreman, [], state)
    | .assigner => foreman.advanceAssigner backend moment state
  else (foreman, [], state)

end TenantQueue.Foreman
