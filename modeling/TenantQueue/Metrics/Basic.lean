import TenantQueue.Double.Basic
import TenantQueue.Metrics.Series

/-! What is counted and measured while tasks are handled. -/
namespace TenantQueue

structure Histogram where
  buckets : List Nat
  sum : Double
  count : Nat

structure Metrics where
  handled : Series UInt64
  failed : Series UInt64
  requeued : Series UInt64
  durations : Series Histogram
  depth : Series Int64
  idle : Series Int64
  busy : Series Int64

inductive Observation where
  | handled (queue taskType : String) (seconds : Double)
  | failed (queue taskType reason : String)
  | requeued (queue : String) (count : Nat)
  | depth (queue : String) (count : Nat)
  | workers (queue : String) (idle busy : Nat)

namespace Histogram

def boundsInThousandths : List Nat :=
  [5, 10, 50, 100, 500, 1000, 5000, 10000, 30000, 60000, 300000]

def bounds : List Double := boundsInThousandths.map fun bound => Double.ofRatio false bound 1000

def empty : Histogram := ⟨bounds.map fun _ => 0, Double.zero, 0⟩

/-- Counts a value in the first bucket whose bound it does not exceed. -/
private def countIn (value : Double) : List Double → List Nat → List Nat
  | bound :: bounds, count :: counts =>
    if value.le bound then (count + 1) :: counts else count :: countIn value bounds counts
  | _, counts => counts

def observe (histogram : Histogram) (value : Double) : Histogram :=
  ⟨countIn value bounds histogram.buckets, histogram.sum.add value, histogram.count + 1⟩

end Histogram

namespace Metrics

def empty : Metrics :=
  ⟨Series.empty, Series.empty, Series.empty, Series.empty, Series.empty, Series.empty, Series.empty⟩

instance : Inhabited Metrics := ⟨empty⟩

private def advance (counter : Series UInt64) (labels : Labels) (amount : Nat) : Series UInt64 :=
  counter.set labels ((counter.get? labels).getD 0 + UInt64.ofNat amount)

def record (metrics : Metrics) : Observation → Metrics
  | .handled queue taskType seconds =>
    let histogram := (metrics.durations.get? [queue, taskType]).getD Histogram.empty
    { metrics with
      handled := advance metrics.handled [queue, taskType] 1
      durations := metrics.durations.set [queue, taskType] (histogram.observe seconds) }
  | .failed queue taskType reason =>
    { metrics with failed := advance metrics.failed [queue, taskType, reason] 1 }
  | .requeued queue count =>
    { metrics with requeued := advance metrics.requeued [queue] count }
  | .depth queue count =>
    { metrics with depth := metrics.depth.set [queue] (Int64.ofInt count) }
  | .workers queue idle busy =>
    { metrics with
      idle := metrics.idle.set [queue] (Int64.ofInt idle)
      busy := metrics.busy.set [queue] (Int64.ofInt busy) }

end Metrics
end TenantQueue
