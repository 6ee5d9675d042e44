import TenantQueue.Document
import TenantQueue.Handler.Job

/-! Handlers written as lists of actions, which report when they begin and when they succeed. -/
namespace TenantQueue

inductive Action where
  | pause (milliseconds : Nat)
  | beginProcessing (span : Duration)
  | endProcessing
  | enqueue (queue : String) (task : Task) (time : Instant) (priority : Priority)
  | readPayload
  | awaitStop (milliseconds : Nat)
  | fail (failure : Failure)
  /-- Fails as long as the task has fewer errors. -/
  | failBelow (errors : Nat) (failure : Failure)
  | crash (message : Option String)

namespace Action

def jobOf (context : HandlerContext) (task : Task) : Fingerprint → List Action → Job
  | _, [] => .report (fun stopping => ⟨.success, context.queue, context.worker, task, stopping⟩)
      .finished
  | last, action :: rest =>
    match action with
    | .pause milliseconds => .pause milliseconds (jobOf context task last rest)
    | .beginProcessing span => .perform fun now => do
      let fingerprint ← Engine.beginProcessing context.queue task.tenant task span now
      return jobOf context task fingerprint rest
    | .endProcessing => .perform fun _ => do
      Engine.endProcessing context.queue task.tenant last
      return jobOf context task last rest
    | .enqueue queue entered time priority => .perform fun _ => do
      context.engine.enqueueAt queue entered.tenant entered time priority
      return jobOf context task last rest
    | .readPayload =>
      match Document.read? task.payload with
      | some _ => jobOf context task last rest
      | none => .failed (.serialization .packed)
    | .awaitStop milliseconds => .awaitStop milliseconds (jobOf context task last rest)
    | .fail failure => .failed failure
    | .failBelow errors failure =>
      if task.errorCount.toNat < errors then .failed failure else jobOf context task last rest
    | .crash message => .crashed (.raised message)

end Action

def Handler.ofScript (actions : List Action) : Handler := fun context task =>
  .report (fun stopping => ⟨.entry, context.queue, context.worker, task, stopping⟩)
    (Action.jobOf context task .empty actions)

end TenantQueue
