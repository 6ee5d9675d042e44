import TenantQueue.Bytes
import TenantQueue.Double.Shortest
import TenantQueue.Metrics.Basic

/-! The text in which metrics are exposed: for each family that has samples a line of help, a
line of its type, and its samples by the values of their labels. -/
namespace TenantQueue.Metrics

inductive Samples where
  | counter (series : Series UInt64)
  | gauge (series : Series Int64)
  | histogram (series : Series Histogram)

structure Family where
  name : String
  help : String
  labelNames : List String
  samples : Samples

def families (metrics : Metrics) : List Family := [
  ⟨"fairq_queue_depth", "Number of pending tasks in queue", ["queue"], .gauge metrics.depth⟩,
  ⟨"fairq_task_duration_seconds", "Task handling duration in seconds", ["queue", "task_type"],
    .histogram metrics.durations⟩,
  ⟨"fairq_tasks_failed_total", "Total number of tasks that did not succeed",
    ["queue", "task_type", "reason"], .counter metrics.failed⟩,
  ⟨"fairq_tasks_handled_total", "Total number of tasks handed to a handler",
    ["queue", "task_type"], .counter metrics.handled⟩,
  ⟨"fairq_tasks_requeued_total", "Total number of expired tasks redelivered", ["queue"],
    .counter metrics.requeued⟩,
  ⟨"fairq_workers_busy", "Number of workers handling a task", ["queue"], .gauge metrics.busy⟩,
  ⟨"fairq_workers_idle", "Number of workers waiting for a task", ["queue"], .gauge metrics.idle⟩]

private def escaped (value : String) : String :=
  String.ofList (value.toList.flatMap fun character =>
    if character = '\\' then ['\\', '\\']
    else if character = '"' then ['\\', '"']
    else if character = '\n' then ['\\', 'n']
    else [character])

private def label (name value : String) : String := name ++ "=\"" ++ escaped value ++ "\""

private def line (name : String) (labels : List String) (value : Double) : String :=
  name ++ "\x7b" ++ ",".intercalate labels ++ "\x7d " ++ value.text ++ "\n"

private def bucketLines (name : String) (labels : List String) (total : Nat) :
    List Double → List Nat → List String
  | bound :: bounds, count :: counts =>
    line (name ++ "_bucket") (labels ++ [label "le" bound.text]) (Double.ofNat (total + count)) ::
      bucketLines name labels (total + count) bounds counts
  | _, _ => []

private def histogramLines (name : String) (labels : List String) (histogram : Histogram) :
    List String :=
  bucketLines name labels 0 Histogram.bounds histogram.buckets ++
    [line (name ++ "_bucket") (labels ++ [label "le" "+Inf"]) (Double.ofNat histogram.count),
      line (name ++ "_sum") labels histogram.sum,
      line (name ++ "_count") labels (Double.ofNat histogram.count)]

private def textsPrecede (first second : List String) : Bool :=
  (compare (first.map Bytes.ofText) (second.map Bytes.ofText)).isLE

/-- Labels are listed by their names, and samples by the values so listed. -/
private def sampleLines {α : Type} (family : Family) (series : Series α)
    (lines : List String → α → List String) : List String :=
  let samples := series.toList.map fun sample =>
    ((family.labelNames.zip sample.1).mergeSort fun first second =>
      textsPrecede [first.1] [second.1], sample.2)
  (samples.mergeSort fun first second =>
    textsPrecede (first.1.map Prod.snd) (second.1.map Prod.snd)).flatMap
    fun sample => lines (sample.1.map fun entry => label entry.1 entry.2) sample.2

def Family.isEmpty (family : Family) : Bool :=
  match family.samples with
  | .counter series => series.isEmpty
  | .gauge series => series.isEmpty
  | .histogram series => series.isEmpty

private def Family.kind (family : Family) : String :=
  match family.samples with
  | .counter _ => "counter"
  | .gauge _ => "gauge"
  | .histogram _ => "histogram"

private def Family.lines (family : Family) : List String :=
  let samples := match family.samples with
    | .counter series => sampleLines family series fun labels value =>
      [line family.name labels (Double.ofNat value.toNat)]
    | .gauge series => sampleLines family series fun labels value =>
      [line family.name labels (Double.ofInt value.toInt)]
    | .histogram series => sampleLines family series (histogramLines family.name)
  ("# HELP " ++ family.name ++ " " ++ family.help ++ "\n") ::
    ("# TYPE " ++ family.name ++ " " ++ family.kind ++ "\n") :: samples

def exposedFamilies (metrics : Metrics) : List Family :=
  metrics.families.filter fun family => !family.isEmpty

def exposition (metrics : Metrics) : String :=
  String.join (metrics.exposedFamilies.flatMap Family.lines)

def duplicateRegistration : String := "Duplicate metrics collector registration attempted"

private def beginsName (character : Char) : Bool :=
  character.isAlpha || character = '_' || character = ':'

def isName (name : String) : Bool :=
  match name.toList with
  | [] => false
  | first :: rest =>
    beginsName first && rest.all fun character => beginsName character || character.isDigit

def refusal? (name : String) : Option String :=
  if !isName name then some ("Error: '" ++ name ++ "' is not a valid metric name")
  else if (empty.families.map Family.name).contains name then some duplicateRegistration
  else none

end TenantQueue.Metrics
