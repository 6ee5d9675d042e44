import TenantQueue.Metrics.Basic
import TenantQueue.Task.Basic

/-! Notices given while work goes on: log records by severity, what the metrics take note
of, what handlers report, and printed lines. -/
namespace TenantQueue

/-- From the most to the least severe. -/
inductive Severity where
  | error
  | warn
  | info
  | debug
  | trace
  deriving DecidableEq

namespace Severity

def name : Severity → String
  | error => "ERROR"
  | warn => "WARN"
  | info => "INFO"
  | debug => "DEBUG"
  | trace => "TRACE"

def level : Severity → Nat
  | error => 0
  | warn => 1
  | info => 2
  | debug => 3
  | trace => 4

end Severity

inductive Boundary where
  | entry
  | success
  deriving DecidableEq

structure Report where
  boundary : Boundary
  queue : String
  worker : String
  task : Task
  stopping : Bool

inductive Notice where
  | log (severity : Severity) (text : String)
  | observed (observation : Observation)
  | reported (report : Report)
  | printed (line : String)

end TenantQueue
