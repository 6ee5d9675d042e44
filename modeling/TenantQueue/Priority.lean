import TenantQueue.Failure
import TenantQueue.Instant.Basic

/-! Priorities and the scores by which pending tasks are ordered. -/
namespace TenantQueue

inductive Priority where
  | high
  | normal
  | low
  deriving DecidableEq

instance : Inhabited Priority := ⟨.normal⟩

namespace Priority

def name : Priority → String
  | high => "high"
  | normal => "default"
  | low => "low"

def ofName (name : String) : Except Failure Priority :=
  if name = "high" then .ok high
  else if name = "default" then .ok normal
  else if name = "low" then .ok low
  else .error (.validation (.unknownPriority name))

def seconds : Priority → Int
  | high => -10000000
  | normal => 0
  | low => 10000000

def offset (priority : Priority) : Double := Double.ofInt priority.seconds

end Priority

/-- Seconds since the epoch to the microsecond, moved by the priority. -/
def score (time : Instant) (priority : Priority) : Double := time.epochSeconds.add priority.offset

end TenantQueue
