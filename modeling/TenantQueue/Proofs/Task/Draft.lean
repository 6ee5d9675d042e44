import TenantQueue.Task.Record

/-! Reading the fields of a task one after the other. Their order makes no difference, none may be read
twice, and only the error count may be missing. -/
namespace TenantQueue.Task
open Pack

namespace Draft

def has (draft : Draft) : Field → Bool
  | .taskType => draft.taskType.isSome
  | .tenant => draft.tenant.isSome
  | .payload => draft.payload.isSome
  | .queuedOn => draft.queuedOn.isSome
  | .errorCount => draft.errorCount.isSome

def change? (field : Field) (value : Value) : Option (Draft → Draft) :=
  match field with
  | .taskType => value.string?.map fun text draft => { draft with taskType := some text }
  | .tenant => value.int64?.map fun number draft => { draft with tenant := some ⟨number⟩ }
  | .payload => value.bytes?.map fun bytes draft => { draft with payload := some bytes }
  | .queuedOn => (instant? value).map fun time draft => { draft with queuedOn := some time }
  | .errorCount => value.uint32?.map fun count draft => { draft with errorCount := some count }

theorem enter?_eq (draft : Draft) (field : Field) (value : Value) :
    draft.enter? field value =
      if draft.has field then none else (change? field value).map fun change => change draft := by
  cases field <;> simp only [enter?, has, change?, Option.map_map, Function.comp_def]

theorem has_change {field : Field} {value : Value} {change : Draft → Draft}
    (changes : change? field value = some change) (draft : Draft) (other : Field) :
    (change draft).has other = (decide (other = field) || draft.has other) := by
  cases field
  all_goals
    obtain ⟨part, _, rfl⟩ := Option.map_eq_some_iff.mp changes
    cases other <;> rfl

theorem change_comm {first second : Field} {one two : Value} {change also : Draft → Draft}
    (differ : first ≠ second) (changes : change? first one = some change)
    (changesToo : change? second two = some also) (draft : Draft) :
    also (change draft) = change (also draft) := by
  cases first
  all_goals
    obtain ⟨part, _, rfl⟩ := Option.map_eq_some_iff.mp changes
    cases second
  all_goals first
    | contradiction
    | obtain ⟨other, _, rfl⟩ := Option.map_eq_some_iff.mp changesToo
      rfl

theorem enter?_comm (draft : Draft) (first second : Field × Value) :
    (draft.enter? first.1 first.2).bind (fun next => next.enter? second.1 second.2) =
      (draft.enter? second.1 second.2).bind fun next => next.enter? first.1 first.2 := by
  obtain ⟨field, value⟩ := first
  obtain ⟨other, also⟩ := second
  simp only [enter?_eq]
  cases changes : change? field value with
  | none =>
    cases change? other also <;> split <;> simp
  | some change =>
    cases changesToo : change? other also with
    | none =>
      split <;> simp
    | some alter =>
      have here := has_change changes draft other
      have there := has_change changesToo draft field
      by_cases same : field = other
      · subst same
        simp only [decide_true, Bool.true_or] at here there
        split <;> simp [here, there]
      · have away : other ≠ field := fun equal => same equal.symm
        simp only [away, same, decide_false, Bool.false_or] at here there
        have commutes := change_comm same changes changesToo draft
        cases known : draft.has field <;> cases knownToo : draft.has other <;>
          simp [here, there, known, knownToo, commutes]

def enterAll (draft : Draft) (parts : List (Field × Value)) : Option Draft :=
  parts.foldlM (fun draft part => draft.enter? part.1 part.2) draft

theorem enterAll_cons (draft : Draft) (part : Field × Value) (parts : List (Field × Value)) :
    draft.enterAll (part :: parts) =
      (draft.enter? part.1 part.2).bind fun next => next.enterAll parts := rfl

theorem enterAll_perm {parts others : List (Field × Value)} (same : parts.Perm others)
    (draft : Draft) : draft.enterAll parts = draft.enterAll others := by
  induction same generalizing draft with
  | nil => rfl
  | cons part _ ih => simp only [enterAll_cons, ih]
  | swap first second rest =>
    simp only [enterAll_cons]
    rw [← Option.bind_assoc, ← Option.bind_assoc, enter?_comm]
  | trans _ _ once again => exact (once draft).trans (again draft)

/-- What is read has all fields that were read before and those entered, each of them once. -/
theorem enterAll_some {draft last : Draft} {parts : List (Field × Value)}
    (entered : draft.enterAll parts = some last) :
    (parts.map Prod.fst).Nodup ∧ (∀ field ∈ parts.map Prod.fst, draft.has field = false) ∧
      ∀ field, last.has field = (decide (field ∈ parts.map Prod.fst) || draft.has field) := by
  induction parts generalizing draft with
  | nil =>
    obtain rfl := Option.some.inj entered
    simp
  | cons part rest ih =>
    rw [enterAll_cons, enter?_eq] at entered
    split at entered
    · contradiction
    · rename_i fresh
      obtain ⟨next, changed, entered⟩ := Option.bind_eq_some_iff.mp entered
      obtain ⟨change, changes, rfl⟩ := Option.map_eq_some_iff.mp changed
      obtain ⟨distinct, absent, has⟩ := ih entered
      have here := has_change changes draft
      rw [Bool.not_eq_true] at fresh
      refine ⟨?_, ?_, ?_⟩
      · refine List.nodup_cons.mpr ⟨fun member => ?_, distinct⟩
        have known := absent part.1 member
        rw [here] at known
        simp at known
      · refine List.forall_mem_cons.mpr ⟨fresh, fun field member => ?_⟩
        have unknown := absent field member
        rw [here, Bool.or_eq_false_iff] at unknown
        exact unknown.2
      · intro field
        rw [has, here, List.map_cons]
        simp only [List.mem_cons, Bool.decide_or, Bool.or_assoc, Bool.or_left_comm]

theorem has_of_finish? {draft : Draft} {task : Task} (finished : draft.finish? = some task)
    {field : Field} (required : field ≠ .errorCount) : draft.has field = true := by
  obtain ⟨taskType, typed, finished⟩ := Option.bind_eq_some_iff.mp finished
  obtain ⟨tenant, owned, finished⟩ := Option.bind_eq_some_iff.mp finished
  obtain ⟨payload, carried, finished⟩ := Option.bind_eq_some_iff.mp finished
  obtain ⟨queuedOn, queued, finished⟩ := Option.bind_eq_some_iff.mp finished
  cases field with
  | taskType => exact Option.isSome_of_eq_some typed
  | tenant => exact Option.isSome_of_eq_some owned
  | payload => exact Option.isSome_of_eq_some carried
  | queuedOn => exact Option.isSome_of_eq_some queued
  | errorCount => contradiction

theorem errorCount_of_finish? {draft : Draft} {task : Task} (finished : draft.finish? = some task)
    (missing : draft.has .errorCount = false) : task.errorCount = 0 := by
  obtain ⟨taskType, _, finished⟩ := Option.bind_eq_some_iff.mp finished
  obtain ⟨tenant, _, finished⟩ := Option.bind_eq_some_iff.mp finished
  obtain ⟨payload, _, finished⟩ := Option.bind_eq_some_iff.mp finished
  obtain ⟨queuedOn, _, finished⟩ := Option.bind_eq_some_iff.mp finished
  obtain rfl := Option.some.inj finished
  rw [has, Option.isSome_eq_false_iff, Option.isNone_iff_eq_none] at missing
  simp only [missing, Option.getD_none]

end Draft

def ofParts? (parts : List (Field × Value)) : Option Task :=
  (Draft.empty.enterAll parts).bind Draft.finish?

theorem ofParts?_perm {parts others : List (Field × Value)} (same : parts.Perm others) :
    ofParts? parts = ofParts? others := by
  rw [ofParts?, ofParts?, Draft.enterAll_perm same]

theorem fields_of_ofParts? {parts : List (Field × Value)} {task : Task}
    (means : ofParts? parts = some task) :
    (parts.map Prod.fst).Nodup ∧
      (∀ field, field ≠ .errorCount → field ∈ parts.map Prod.fst) ∧
      (Field.errorCount ∉ parts.map Prod.fst → task.errorCount = 0) := by
  obtain ⟨last, entered, finished⟩ := Option.bind_eq_some_iff.mp means
  obtain ⟨distinct, _, has⟩ := Draft.enterAll_some entered
  have nothing (field : Field) : Draft.empty.has field = false := by cases field <;> rfl
  simp only [nothing, Bool.or_false] at has
  refine ⟨distinct, fun field required => ?_, fun missing => ?_⟩
  · have found := Draft.has_of_finish? finished required
    rw [has] at found
    exact of_decide_eq_true found
  · refine Draft.errorCount_of_finish? finished ?_
    rw [has]
    exact decide_eq_false missing

/-- The task that the values of the fields make up; without one the error count is zero. -/
def ofFields? (value? : Field → Option Value) : Option Task := do
  let taskType ← (value? .taskType).bind Value.string?
  let tenant ← (value? .tenant).bind fun value => value.int64?.map Tenant.mk
  let payload ← (value? .payload).bind Value.bytes?
  let queuedOn ← (value? .queuedOn).bind Draft.instant?
  let errorCount ← (value? .errorCount).elim (some 0) Value.uint32?
  return ⟨taskType, tenant, payload, queuedOn, errorCount⟩

def Draft.fill? (draft : Draft) (value? : Field → Option Value) : Option Task := do
  let taskType ← draft.taskType.or ((value? .taskType).bind Value.string?)
  let tenant ← draft.tenant.or ((value? .tenant).bind fun value => value.int64?.map Tenant.mk)
  let payload ← draft.payload.or ((value? .payload).bind Value.bytes?)
  let queuedOn ← draft.queuedOn.or ((value? .queuedOn).bind Draft.instant?)
  let errorCount ← draft.errorCount.or ((value? .errorCount).elim (some 0) Value.uint32?)
  return ⟨taskType, tenant, payload, queuedOn, errorCount⟩

namespace Draft

theorem fill?_none {draft : Draft} {field : Field} {value : Value} {value? : Field → Option Value}
    (fresh : draft.has field = false) (given : value? field = some value)
    (unread : change? field value = none) : draft.fill? value? = none := by
  cases field
  all_goals
    rw [has, Option.isSome_eq_false_iff, Option.isNone_iff_eq_none] at fresh
    rw [change?, Option.map_eq_none_iff] at unread
    simp [fill?, fresh, given, unread]

theorem fill?_change {draft : Draft} {field : Field} {value : Value} {change : Draft → Draft}
    {value? others? : Field → Option Value} (fresh : draft.has field = false)
    (given : value? field = some value) (changes : change? field value = some change)
    (others : ∀ other, other ≠ field → others? other = value? other) :
    (change draft).fill? others? = draft.fill? value? := by
  cases field
  all_goals
    rw [has, Option.isSome_eq_false_iff, Option.isNone_iff_eq_none] at fresh
    obtain ⟨part, read, rfl⟩ := Option.map_eq_some_iff.mp changes
    simp [fill?, fresh, given, read, others]

/-- Fields that are entered one after the other fill a draft like their values all at once. -/
theorem enterAll_fill? (draft : Draft) (parts : List (Field × Value))
    (distinct : (parts.map Prod.fst).Nodup)
    (fresh : ∀ field ∈ parts.map Prod.fst, draft.has field = false) :
    (draft.enterAll parts).bind finish? = draft.fill? fun field => parts.lookup field := by
  induction parts generalizing draft with
  | nil => simp [enterAll, finish?, fill?]
  | cons part rest ih =>
    obtain ⟨field, value⟩ := part
    obtain ⟨once, distinct⟩ := List.nodup_cons.mp distinct
    obtain ⟨here, there⟩ := List.forall_mem_cons.mp fresh
    have given : ((field, value) :: rest).lookup field = some value := List.lookup_cons_self
    have others (other : Field) (differs : other ≠ field) :
        rest.lookup other = ((field, value) :: rest).lookup other := by
      rw [List.lookup_cons, beq_eq_false_iff_ne.mpr differs]
    rw [enterAll_cons, enter?_eq, here]
    cases changes : change? field value with
    | none => exact (fill?_none here given changes).symm
    | some change =>
      have filled := ih (change draft) distinct fun other member => by
        rw [has_change changes, there other member, Bool.or_false]
        exact decide_eq_false fun same => once (same ▸ member)
      rw [← fill?_change here given changes others, ← filled]
      rfl

end Draft

theorem ofParts?_eq (parts : List (Field × Value)) (distinct : (parts.map Prod.fst).Nodup) :
    ofParts? parts = ofFields? fun field => parts.lookup field := by
  rw [ofParts?, Draft.enterAll_fill? _ _ distinct fun field _ => by cases field <;> rfl]
  rfl

end TenantQueue.Task
