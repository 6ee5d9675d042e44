import TenantQueue.Store.Call

/-! How a call ends: with its reply, with a failure that may be handled, or with a crash, which
breaks off all that was under way. -/
namespace TenantQueue

inductive Crash where
  /-- The calendar ends before the time at which a task is due again. -/
  | beyondCalendar
  | zeroInterval
  /-- A call is made to crash in place of its effect. -/
  | disrupted (kind : Call.Kind)
  | raised (message : Option String)
  deriving DecidableEq

def Crash.message? : Crash → Option String
  | beyondCalendar => some "`DateTime + TimeDelta` overflowed"
  | zeroInterval => some "`period` must be non-zero."
  | disrupted kind => some ("injected " ++ kind.name)
  | raised message => message

inductive Outcome (α : Type) where
  | ok (value : α)
  | failed (failure : Failure)
  | crashed (crash : Crash)
  deriving DecidableEq

def Outcome.ofExcept {α : Type} : Except Failure α → Outcome α
  | .ok value => .ok value
  | .error failure => .failed failure

end TenantQueue
