import TenantQueue.Proofs.Instant.Text
import TenantQueue.Proofs.Pack.RoundTrip
import TenantQueue.Task.Record

/-! The record of a task is read back as that task. -/
namespace TenantQueue.Task
open Pack

/-- A record can hold the task: its type and its payload have lengths of 32 bits, and its time lies in
the calendar. -/
structure Recordable (task : Task) : Prop where
  taskType : (Bytes.ofText task.taskType).length < 0x100000000
  payload : task.payload.length < 0x100000000
  queuedOn : task.queuedOn.IsValid

theorem length_ofText_text (instant : Instant) (valid : instant.IsValid) :
    (Bytes.ofText instant.text).length < 0x100000000 := by
  have bytes := Bytes.length_ofText_ofList instant.characters
  have characters := Instant.length_characters_le instant valid
  rw [Instant.text]
  omega

theorem Field.length_name (field : Field) : (Bytes.ofText field.name).length < 0x100000000 := by
  cases field <;> decide

theorem Field.ofKey?_name (field : Field) :
    Field.ofKey? (.text (Bytes.ofText field.name)) = some (some field) := by
  cases field <;> decide

/-- A field of a record: what is written for it, and the value as which that is read. -/
structure Written where
  field : Field
  bytes : Bytes
  value : Value

namespace Written

def write (written : Written) : Bytes := writeText written.field.name ++ written.bytes

def entry (written : Written) : Value × Value :=
  (.text (Bytes.ofText written.field.name), written.value)

end Written

def written (task : Task) (tenant : Value) : List Written :=
  [⟨.taskType, writeText task.taskType, .text (Bytes.ofText task.taskType)⟩,
    ⟨.tenant, writeInteger task.tenant.toInt, tenant⟩,
    ⟨.payload, arrayHead task.payload.length ++ task.payload.flatMap fun byte => writeUnsigned byte.toNat,
      .array (task.payload.map fun byte => .unsigned byte.toNat)⟩,
    ⟨.queuedOn, writeText task.queuedOn.text, .text (Bytes.ofText task.queuedOn.text)⟩] ++
    if task.errorCount = 0 then []
    else [⟨.errorCount, writeUnsigned task.errorCount.toNat, .unsigned task.errorCount.toNat⟩]

theorem encode_eq (task : Task) (tenant : Value) :
    task.encode = mapHead (task.written tenant).length ++ (task.written tenant).flatMap Written.write := by
  unfold encode written Written.write
  split <;> simp

theorem tenant_reads (tenant : Tenant) :
    ∃ value, Reads (writeInteger tenant.toInt) value ∧ value.int64? = some tenant.number := by
  have low : -0x8000000000000000 ≤ tenant.toInt := Int64.le_toInt tenant.number
  have high : tenant.toInt < 0x8000000000000000 := Int64.toInt_lt tenant.number
  obtain ⟨value, reads, integer⟩ := writeInteger_reads tenant.toInt low (by omega)
  refine ⟨value, reads, ?_⟩
  rw [Value.int64?, integer]
  change (if _ then some (Int64.ofInt tenant.toInt) else none) = _
  rw [if_pos ⟨low, high⟩, Tenant.toInt, Int64.ofInt_toInt]

theorem written_reads (task : Task) (tenant : Value) (recordable : task.Recordable)
    (number : Reads (writeInteger task.tenant.toInt) tenant) (depth : Nat) :
    ∀ item ∈ task.written tenant, ∀ rest,
      Value.readWithin (depth + 1) (item.bytes ++ rest) = some (item.value, rest) := by
  have payload (rest : Bytes) := readWithin_array depth (fun byte => writeUnsigned byte.toNat)
    (fun byte => .unsigned byte.toNat) task.payload rest recordable.payload fun byte _ =>
      writeUnsigned_reads byte.toNat (Nat.lt_trans byte.toNat_lt (by decide)) depth
  have errors := writeUnsigned_reads task.errorCount.toNat
    (Nat.lt_trans task.errorCount.toNat_lt (by decide)) (depth + 1)
  unfold written
  simp only [List.cons_append, List.forall_mem_cons, List.nil_append]
  refine ⟨writeText_reads _ recordable.taskType _, number _, payload,
    writeText_reads _ (length_ofText_text _ recordable.queuedOn) _, ?_⟩
  split
  · exact List.forall_mem_nil _
  · simp only [List.forall_mem_cons]
    exact ⟨errors, List.forall_mem_nil _⟩

theorem read_encode (task : Task) (tenant : Value) (rest : Bytes) (recordable : task.Recordable)
    (number : Reads (writeInteger task.tenant.toInt) tenant) :
    Value.read (task.encode ++ rest) = some (.map ((task.written tenant).map Written.entry), rest) := by
  have few : (task.written tenant).length < 0x100000000 := by
    unfold written
    split <;> simp
  rw [task.encode_eq tenant]
  refine readWithin_map 1022 Written.write Written.entry _ rest few fun item member rest => ?_
  exact readEntry_append _ _ _ _ _ rest (writeText_reads _ item.field.length_name _)
    (written_reads task tenant recordable number 1021 item member)

theorem byte?_unsigned (byte : UInt8) : (Value.unsigned byte.toNat).byte? = some byte := by
  have small := byte.toNat_lt
  have high : (byte.toNat : Int) < 0x100 := by omega
  unfold Value.byte?
  rw [Value.integer?, Option.bind_eq_bind, Option.bind_some]
  rw [if_pos ⟨Int.natCast_nonneg _, high⟩, Int.toNat_natCast, UInt8.ofNat_toNat]

theorem bytes?_unsigned (payload : Bytes) :
    (Value.array (payload.map fun byte => .unsigned byte.toNat)).bytes? = some payload := by
  rw [Value.bytes?]
  induction payload with
  | nil => rfl
  | cons byte rest ih =>
    rw [List.map_cons, List.mapM_cons, byte?_unsigned, ih]
    rfl

theorem uint32?_unsigned (number : UInt32) :
    (Value.unsigned number.toNat).uint32? = some number := by
  have small := number.toNat_lt
  have high : (number.toNat : Int) < 0x100000000 := by omega
  unfold Value.uint32?
  rw [Value.integer?, Option.bind_eq_bind, Option.bind_some]
  rw [if_pos ⟨Int.natCast_nonneg _, high⟩, Int.toNat_natCast, UInt32.ofNat_toNat]

theorem enterEntry?_entry (draft : Draft) (item : Written) :
    draft.enterEntry? item.entry = draft.enter? item.field item.value := by
  simp only [Draft.enterEntry?, Written.entry, Field.ofKey?_name]

theorem ofValue?_written (task : Task) (tenant : Value) (recordable : task.Recordable)
    (number : tenant.int64? = some task.tenant.number) :
    ofValue? (.map ((task.written tenant).map Written.entry)) = some task := by
  have time : Draft.instant? (.text (Bytes.ofText task.queuedOn.text)) = some task.queuedOn := by
    rw [Draft.instant?, Bytes.toText?_ofText, Option.bind_some]
    exact Instant.ofText?_text task.queuedOn recordable.queuedOn
  have type : (Value.text (Bytes.ofText task.taskType)).string? = some task.taskType :=
    Bytes.toText?_ofText task.taskType
  rw [ofValue?, List.foldlM_map]
  simp only [enterEntry?_entry, written]
  by_cases none_lost : task.errorCount = 0
  · have whole : { task with errorCount := 0 } = task := by rw [← none_lost]
    simp only [none_lost, if_true, List.append_nil, List.foldlM_cons, List.foldlM_nil, Draft.enter?,
      Draft.empty, Option.isSome_none, if_false, Bool.false_eq_true, type, number, bytes?_unsigned, time,
      Option.map_some, Option.bind_eq_bind, Option.bind_some, Option.pure_def, Draft.finish?,
      Option.getD_none]
    exact congrArg some whole
  · simp only [none_lost, if_false, List.cons_append, List.nil_append, List.foldlM_cons, List.foldlM_nil,
      Draft.enter?, Draft.empty, Option.isSome_none, Bool.false_eq_true, type, number, bytes?_unsigned,
      time, uint32?_unsigned, Option.map_some, Option.bind_eq_bind, Option.bind_some, Option.pure_def,
      Draft.finish?, Option.getD_some]

theorem decode_encode (task : Task) (rest : Bytes) (recordable : task.Recordable) :
    decode (task.encode ++ rest) = .ok task := by
  obtain ⟨tenant, reads, number⟩ := tenant_reads task.tenant
  simp only [decode, read_encode task tenant rest recordable reads, Option.bind_some,
    ofValue?_written task tenant recordable number]

end TenantQueue.Task
