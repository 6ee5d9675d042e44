import TenantQueue.Proofs.Pack.Lengths
import TenantQueue.Proofs.Task.Record

/-! Every task that is decoded can be recorded, so records and tasks stand for each other. -/
namespace TenantQueue

theorem Bytes.ofText_of_toText? {bytes : Bytes} {text : String} (read : toText? bytes = some text) :
    ofText text = bytes := by
  simp only [toText?, String.fromUTF8?] at read
  split at read
  · obtain rfl := Option.some.inj read
    simp [ofText, String.fromUTF8]
  · contradiction

namespace Pack.Value

theorem Short.string? {value : Value} {text : String} (short : value.Short)
    (read : value.string? = some text) : (Bytes.ofText text).length < 0x100000000 := by
  cases short with
  | text bytes short => exact Bytes.ofText_of_toText? read ▸ short
  | binary bytes short => exact Bytes.ofText_of_toText? read ▸ short
  | _ => contradiction

theorem length_mapM_byte? (items : List Value) (bytes : Bytes) (read : items.mapM byte? = some bytes) :
    bytes.length = items.length := by
  induction items generalizing bytes with
  | nil =>
    obtain rfl := Option.some.inj read
    rfl
  | cons item rest ih =>
    rw [List.mapM_cons] at read
    obtain ⟨byte, _, read⟩ := Option.bind_eq_some_iff.mp read
    obtain ⟨others, tail, same⟩ := Option.bind_eq_some_iff.mp read
    obtain rfl := Option.some.inj same
    rw [List.length_cons, List.length_cons, ih others tail]

theorem Short.bytes? {value : Value} {bytes : Bytes} (short : value.Short)
    (read : value.bytes? = some bytes) : bytes.length < 0x100000000 := by
  cases short with
  | array items short each =>
    exact length_mapM_byte? items bytes read ▸ short
  | binary bytes short =>
    obtain rfl := Option.some.inj read
    exact short
  | _ => contradiction

end Pack.Value

namespace Task
open Pack

theorem Draft.instant?_isValid {value : Value} {time : Instant} (read : instant? value = some time) :
    time.IsValid := by
  cases value with
  | text bytes =>
    obtain ⟨text, _, read⟩ := Option.bind_eq_some_iff.mp read
    exact Instant.ofText?_isValid text time read
  | _ => contradiction

structure Draft.Recordable (draft : Draft) : Prop where
  taskType : ∀ text ∈ draft.taskType, (Bytes.ofText text).length < 0x100000000
  payload : ∀ bytes ∈ draft.payload, bytes.length < 0x100000000
  queuedOn : ∀ time ∈ draft.queuedOn, time.IsValid

theorem Draft.enter?_recordable {draft next : Draft} {field : Field} {value : Value}
    (recordable : draft.Recordable) (short : value.Short)
    (entered : draft.enter? field value = some next) : next.Recordable := by
  cases field
  all_goals
    simp only [Draft.enter?] at entered
    split at entered
    case isTrue => contradiction
    obtain ⟨part, read, rfl⟩ := Option.map_eq_some_iff.mp entered
  case taskType => exact { recordable with taskType := by rintro _ ⟨⟩; exact short.string? read }
  case tenant => exact ⟨recordable.taskType, recordable.payload, recordable.queuedOn⟩
  case payload => exact { recordable with payload := by rintro _ ⟨⟩; exact short.bytes? read }
  case queuedOn => exact { recordable with queuedOn := by rintro _ ⟨⟩; exact instant?_isValid read }
  case errorCount => exact ⟨recordable.taskType, recordable.payload, recordable.queuedOn⟩

theorem Draft.enterEntry?_recordable {draft next : Draft} {entry : Value × Value}
    (recordable : draft.Recordable) (short : entry.2.Short)
    (entered : draft.enterEntry? entry = some next) : next.Recordable := by
  unfold Draft.enterEntry? at entered
  split at entered
  · contradiction
  · obtain rfl := Option.some.inj entered
    exact recordable
  · exact enter?_recordable recordable short entered

/-- Entering part after part, from nothing read, leads to a task that can be recorded. -/
theorem Draft.finish?_recordable {α : Type} (enter : Draft → α → Option Draft) (parts : List α)
    (task : Task)
    (each : ∀ part ∈ parts, ∀ draft next : Draft, draft.Recordable → enter draft part = some next →
      next.Recordable)
    (read : (parts.foldlM enter Draft.empty).bind Draft.finish? = some task) : task.Recordable := by
  have reached (parts : List α) (draft last : Draft) (recordable : draft.Recordable)
      (each : ∀ part ∈ parts, ∀ draft next : Draft, draft.Recordable → enter draft part = some next →
        next.Recordable) (entered : parts.foldlM enter draft = some last) : last.Recordable := by
    induction parts generalizing draft with
    | nil =>
      obtain rfl := Option.some.inj entered
      exact recordable
    | cons part others ih =>
      obtain ⟨next, one, entered⟩ := Option.bind_eq_some_iff.mp entered
      obtain ⟨here, there⟩ := List.forall_mem_cons.mp each
      exact ih next (here draft next recordable one) there entered
  obtain ⟨last, entered, finished⟩ := Option.bind_eq_some_iff.mp read
  have recordable := reached parts empty last ⟨nofun, nofun, nofun⟩ each entered
  obtain ⟨taskType, typed, finished⟩ := Option.bind_eq_some_iff.mp finished
  obtain ⟨tenant, _, finished⟩ := Option.bind_eq_some_iff.mp finished
  obtain ⟨payload, carried, finished⟩ := Option.bind_eq_some_iff.mp finished
  obtain ⟨queuedOn, queued, finished⟩ := Option.bind_eq_some_iff.mp finished
  obtain rfl := Option.some.inj finished
  exact ⟨recordable.taskType _ typed, recordable.payload _ carried, recordable.queuedOn _ queued⟩

theorem ofValue?_recordable {value : Value} {task : Task} (short : value.Short)
    (read : ofValue? value = some task) : task.Recordable := by
  cases short with
  | map entries each =>
    refine Draft.finish?_recordable Draft.enterEntry? entries task ?_ read
    intro entry member draft next recordable entered
    exact Draft.enterEntry?_recordable recordable (each entry member) entered
  | array items few each =>
    unfold ofValue? at read
    dsimp only at read
    split at read
    · refine Draft.finish?_recordable _ (Field.all.zip items) task ?_ read
      intro item member draft next recordable entered
      exact Draft.enter?_recordable recordable (each item.2 (List.of_mem_zip member).2) entered
    · contradiction
  | _ => contradiction

theorem decode_recordable {bytes : Bytes} {task : Task} (decoded : decode bytes = .ok task) :
    task.Recordable := by
  unfold decode at decoded
  split at decoded
  · rename_i read
    obtain ⟨⟨value, rest⟩, read, same⟩ := Option.bind_eq_some_iff.mp read
    obtain rfl := Except.ok.inj decoded
    exact ofValue?_recordable (readWithin_short read) same
  · contradiction

/-- No record continues another: what begins two records begins the same one. -/
theorem eq_of_encode_append {first second : Task} (recordable : first.Recordable)
    (also : second.Recordable) (after more : Bytes)
    (same : first.encode ++ after = second.encode ++ more) : first = second := by
  have one := decode_encode first after recordable
  rw [same, decode_encode second more also] at one
  exact (Except.ok.inj one).symm

/-- A record is read back as its task whatever follows it, so different tasks have different records
and none begins another; and what is decoded, in whatever form it was written, has a record. -/
theorem record_round_trip :
    (∀ task : Task, task.Recordable → ∀ rest, decode (task.encode ++ rest) = .ok task) ∧
      (∀ first second : Task, first.Recordable → second.Recordable →
        first.encode = second.encode → first = second) ∧
      (∀ first second : Task, first.Recordable → second.Recordable →
        first.encode <+: second.encode → first.encode = second.encode) ∧
      ∀ (bytes : Bytes) (task : Task), decode bytes = .ok task →
        task.Recordable ∧ decode task.encode = .ok task := by
  refine ⟨fun task recordable rest => decode_encode task rest recordable, ?_, ?_, ?_⟩
  · intro first second recordable also same
    exact eq_of_encode_append recordable also [] [] (congrArg (· ++ []) same)
  · rintro first second recordable also ⟨rest, same⟩
    rw [eq_of_encode_append recordable also rest [] (by rw [same, List.append_nil])]
  · intro bytes task decoded
    have recordable := decode_recordable decoded
    have back := decode_encode task [] recordable
    rw [List.append_nil] at back
    exact ⟨recordable, back⟩

/-- A leap second before the year zero, at the start of other bytes; and an array in place of a map, its
payload binary data and its last field missing. -/
theorem record_round_trip_leap_second :
    let task : Task := ⟨"résumé", ⟨-129⟩, [0, 127, 128, 255], ⟨-93000000001, 1500000000⟩, 70000⟩
    let other : Task := ⟨"t", ⟨5⟩, [7, 8], ⟨0, 0⟩, 0⟩
    let bytes : Bytes := [0x94, 0xc4, 1, 0x74, 0xd0, 5, 0xc4, 2, 7, 8, 0xd9, 20] ++
      Bytes.ofText "1970-01-01T00:00:00Z"
    decode (task.encode ++ [0xc1]) = .ok task ∧ decode bytes = .ok other ∧
      decode other.encode = .ok other := by
  intro task other bytes
  have decoded : decode bytes = .ok other := by rfl
  exact ⟨record_round_trip.1 task ⟨by decide, by decide, by decide⟩ [0xc1], decoded,
    (record_round_trip.2.2.2 bytes other decoded).2⟩

end Task
end TenantQueue
