import TenantQueue.Failure
import TenantQueue.Instant.Parser
import TenantQueue.Instant.Printer
import TenantQueue.Pack.Reader
import TenantQueue.Pack.Writer
import TenantQueue.Task.Basic

/-! The record in which a task is queued: a packed map of its fields. It is read from the
map in any order, or from an array of the fields in theirs. -/
namespace TenantQueue.Task
open Pack

inductive Field where
  | taskType
  | tenant
  | payload
  | queuedOn
  | errorCount
  deriving DecidableEq

def Field.name : Field → String
  | taskType => "type"
  | tenant => "tenant_id"
  | payload => "task"
  | queuedOn => "queued_on"
  | errorCount => "error_count"

def Field.all : List Field := [taskType, tenant, payload, queuedOn, errorCount]

/-- The record of a task. The payload is an array of numbers; no errors are left out. -/
def encode (task : Task) : Bytes :=
  mapHead (if task.errorCount = 0 then 4 else 5) ++
    (writeText Field.taskType.name ++ writeText task.taskType) ++
    (writeText Field.tenant.name ++ writeInteger task.tenant.toInt) ++
    (writeText Field.payload.name ++ arrayHead task.payload.length ++
      task.payload.flatMap fun byte => writeUnsigned byte.toNat) ++
    (writeText Field.queuedOn.name ++ writeText task.queuedOn.text) ++
    (if task.errorCount = 0 then []
      else writeText Field.errorCount.name ++ writeUnsigned task.errorCount.toNat)

/-- The field that a key of a map names: by its name, or by its place among the fields as an
unsigned number. `some none` is a key that names no field. -/
def Field.ofKey? : Value → Option (Option Field)
  | .text bytes => some (all.find? fun field => Bytes.ofText field.name = bytes)
  | .binary bytes => some (all.find? fun field => Bytes.ofText field.name = bytes)
  | .unsigned place => some all[place]?
  | _ => none

structure Draft where
  taskType : Option String
  tenant : Option Tenant
  payload : Option Bytes
  queuedOn : Option Instant
  errorCount : Option UInt32

namespace Draft

def empty : Draft := ⟨none, none, none, none, none⟩

def instant? : Value → Option Instant
  | .text bytes => (Bytes.toText? bytes).bind Instant.ofText?
  | _ => none

/-- Reads a field that has not been read before. -/
def enter? (draft : Draft) (field : Field) (value : Value) : Option Draft :=
  match field with
  | .taskType =>
    if draft.taskType.isSome then none
    else value.string?.map fun text => { draft with taskType := some text }
  | .tenant =>
    if draft.tenant.isSome then none
    else value.int64?.map fun number => { draft with tenant := some ⟨number⟩ }
  | .payload =>
    if draft.payload.isSome then none
    else value.bytes?.map fun bytes => { draft with payload := some bytes }
  | .queuedOn =>
    if draft.queuedOn.isSome then none
    else (instant? value).map fun time => { draft with queuedOn := some time }
  | .errorCount =>
    if draft.errorCount.isSome then none
    else value.uint32?.map fun count => { draft with errorCount := some count }

/-- Reads an entry of a map. One whose key names no field is passed over. -/
def enterEntry? (draft : Draft) (entry : Value × Value) : Option Draft :=
  match Field.ofKey? entry.1 with
  | none => none
  | some none => some draft
  | some (some field) => draft.enter? field entry.2

/-- Only the error count may be missing. -/
def finish? (draft : Draft) : Option Task := do
  let taskType ← draft.taskType
  let tenant ← draft.tenant
  let payload ← draft.payload
  let queuedOn ← draft.queuedOn
  return ⟨taskType, tenant, payload, queuedOn, draft.errorCount.getD 0⟩

end Draft

def ofValue? : Value → Option Task
  | .map entries => (entries.foldlM Draft.enterEntry? Draft.empty).bind Draft.finish?
  | .array items =>
    if items.length = 4 ∨ items.length = 5 then
      ((Field.all.zip items).foldlM (fun draft item => Draft.enter? draft item.1 item.2)
        Draft.empty).bind Draft.finish?
    else none
  | _ => none

/-- The task whose record stands in front of the given bytes. -/
def decode (bytes : Bytes) : Except Failure Task :=
  match (Value.read bytes).bind fun (value, _) => ofValue? value with
  | some task => .ok task
  | none => .error (.serialization .packed)

end TenantQueue.Task
