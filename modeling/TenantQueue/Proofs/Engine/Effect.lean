import TenantQueue.Proofs.Engine.Interruption
import TenantQueue.Proofs.Engine.Ownership

/-! The whole effect of a sweep on its queue. Each expired entry that keeps a readable task gives one
record to its tenant and takes one from the tenant's count; every expired entry is gone, and nothing else
has changed. -/
namespace TenantQueue

theorem Task.succ_errorCount (task : Task) (counted : task.errorCount.toNat + 1 < 2 ^ 32) :
    (task.errorCount + 1).toNat = task.errorCount.toNat + 1 := by
  rw [UInt32.toNat_add]
  exact Nat.mod_eq_of_lt counted

namespace Engine

def entering? (engine : Engine) (now : Instant) (record? : Option Bytes) : Option (Bytes × Double) :=
  (readable? record?).bind fun task =>
    (redeliveryTime? now (engine.config.backoff (task.errorCount + 1))).map fun time =>
      (task.failedAgain.encode, score time .normal)

/-- An entry that does not end the sweep keeps nothing readable and is dropped, or its task is entered
again. -/
theorem fate_cases (engine : Engine) (queue : String) (now : Instant) (record? : Option Bytes)
    {count : Nat} (goesOn : (engine.fate queue now record?).outcome = .ok count) :
    (readable? record? = none ∧ engine.fate queue now record? = .dropped ∧ count = 0) ∨
      ∃ task time, readable? record? = some task ∧
        redeliveryTime? now (engine.config.backoff (task.errorCount + 1)) = some time ∧
        engine.fate queue now record? = .requeued task.failedAgain time ∧ count = 1 := by
  cases kept : readable? record? with
  | none =>
    have dropped := engine.fate_of_unreadable queue now record? kept
    rw [dropped] at goesOn
    exact Or.inl ⟨rfl, dropped, (Outcome.ok.inj goesOn).symm⟩
  | some task =>
    have fate := engine.fate_of_readable queue now record? task kept
    cases due : redeliveryTime? now (engine.config.backoff (task.errorCount + 1)) with
    | none =>
      simp only [due] at fate
      rw [fate] at goesOn
      contradiction
    | some time =>
      simp only [due] at fate
      cases accepted : engine.check queue task with
      | error failure =>
        simp only [accepted] at fate
        rw [fate] at goesOn
        contradiction
      | ok accepts =>
        simp only [accepted] at fate
        rw [fate] at goesOn
        exact Or.inr ⟨task, time, rfl, due, fate, (Outcome.ok.inj goesOn).symm⟩

end Engine

namespace QueueState
variable {engine : Engine} {queue : String} {now : Instant}
  {entries : List (Tenant × Fingerprint)} {state last : QueueState} {count : Nat}

def redelivers (state : QueueState) (entry : Tenant × Fingerprint) : Bool :=
  (Engine.readable? (state.payloads.get? entry.2)).isSome

def entered (engine : Engine) (now : Instant) (state : QueueState) (tenant : Tenant)
    (entries : List (Tenant × Fingerprint)) : List (Bytes × Double) :=
  entries.filterMap fun entry =>
    if entry.1 = tenant then engine.entering? now (state.payloads.get? entry.2) else none

private theorem kept_settle {owner : Tenant} {entry : Fingerprint} {fate : Fate}
    (goesOn : fate.outcome = .ok count) (fresh : entry ∉ entries.map Prod.snd) :
    ∀ other ∈ entries, (state.settle owner entry fate).payloads.get? other.2 =
      state.payloads.get? other.2 := by
  intro other listed
  rw [payloads_settle _ _ _ _ _ goesOn, if_neg]
  rintro rfl
  exact fresh (List.mem_map_of_mem listed)

theorem Delivers.count_eq (delivers : Delivers engine queue now entries state count last)
    (distinct : (entries.map Prod.snd).Nodup) : count = entries.countP state.redelivers := by
  induction delivers with
  | nil => rfl
  | @cons owner entry entries state last fate count others met goesOn _ ih =>
    obtain ⟨fresh, tail⟩ := List.nodup_cons.mp distinct
    have same : entries.countP (state.settle owner entry fate).redelivers =
        entries.countP state.redelivers := by
      apply List.countP_congr
      intro other listed
      rw [redelivers, redelivers, kept_settle goesOn fresh other listed]
    rw [ih tail, same, List.countP_cons]
    subst met
    obtain ⟨nothing, -, rfl⟩ | ⟨task, time, kept, -, -, rfl⟩ := engine.fate_cases queue now _ goesOn
    · simp [redelivers, nothing]
    · simp [redelivers, kept, Nat.add_comm]

private theorem entered_cons (tenant : Tenant) (entry : Tenant × Fingerprint) :
    entered engine now state tenant (entry :: entries) =
      (if entry.1 = tenant then (engine.entering? now (state.payloads.get? entry.2)).toList else []) ++
        entered engine now state tenant entries := by
  unfold entered
  rw [List.filterMap_cons]
  by_cases own : entry.1 = tenant
  · rw [if_pos own, if_pos own]
    cases engine.entering? now (state.payloads.get? entry.2) <;> rfl
  · rw [if_neg own, if_neg own]
    rfl

theorem Delivers.pendingOf_eq (delivers : Delivers engine queue now entries state count last)
    (distinct : (entries.map Prod.snd).Nodup) (tenant : Tenant) :
    last.pendingOf tenant =
      (state.pendingOf tenant).insertAll (entered engine now state tenant entries) := by
  induction delivers with
  | nil => rfl
  | @cons owner entry entries state last fate count others met goesOn _ ih =>
    obtain ⟨fresh, tail⟩ := List.nodup_cons.mp distinct
    have same : entered engine now (state.settle owner entry fate) tenant entries =
        entered engine now state tenant entries := by
      apply List.filterMap_congr
      intro other listed
      rw [kept_settle goesOn fresh other listed]
    rw [ih tail, same, entered_cons]
    subst met
    obtain ⟨nothing, dropped, -⟩ | ⟨task, time, kept, due, requeued, -⟩ :=
      engine.fate_cases queue now _ goesOn
    · have nobody : engine.entering? now (state.payloads.get? entry) = none := by
        rw [Engine.entering?, nothing, Option.bind_none]
      rw [nobody, dropped, Option.toList_none, ite_self, List.nil_append]
      rfl
    · have enters : engine.entering? now (state.payloads.get? entry) =
          some (task.failedAgain.encode, score time .normal) := by
        rw [Engine.entering?, kept, Option.bind_some, due, Option.map_some]
      have pushed : (state.settle owner entry (.requeued task.failedAgain time)).pendingOf tenant =
          if owner = tenant then
            (state.pendingOf owner).insert task.failedAgain.encode (score time .normal)
          else state.pendingOf tenant :=
        pendingOf_push state owner tenant _ _
      rw [requeued, pushed, enters]
      by_cases own : owner = tenant
      · subst own
        rw [if_pos rfl, if_pos rfl]
        rfl
      · rw [if_neg own, if_neg own, List.nil_append]

private theorem inFlight_settle {owner : Tenant} {held : Int} (entry : Fingerprint) (task : Task)
    (time : Instant) (registered : state.inFlight owner = some held) (tenant : Tenant) :
    (state.settle owner entry (.requeued task time)).inFlight tenant =
      if owner = tenant then some (max (held - 1) 0) else state.inFlight tenant := by
  change ((state.push owner _ _).release owner).inFlight tenant = _
  rw [inFlight_release, inFlight_push, inFlight_push, if_pos rfl, registered]
  split <;> rfl

theorem Delivers.inFlight_eq (delivers : Delivers engine queue now entries state count last)
    (distinct : (entries.map Prod.snd).Nodup) (sound : state.Sound)
    (registered : ∀ entry ∈ entries, (state.inFlight entry.1).isSome) (tenant : Tenant) :
    last.inFlight tenant = (state.inFlight tenant).map fun count : Int =>
      max (count - (entries.countP fun entry => entry.1 = tenant && state.redelivers entry)) 0 := by
  induction delivers with
  | nil state =>
    cases held : state.inFlight tenant with
    | none => rfl
    | some count =>
      have counted := sound.counted tenant count held
      simp only [List.countP_nil, Option.map_some, Option.some.injEq]
      omega
  | @cons owner entry entries state last fate count others met goesOn _ ih =>
    obtain ⟨fresh, tail⟩ := List.nodup_cons.mp distinct
    obtain ⟨here, rest⟩ := List.forall_mem_cons.mp registered
    obtain ⟨held, here⟩ := Option.isSome_iff_exists.mp here
    have same : (entries.countP fun other =>
          other.1 = tenant && (state.settle owner entry fate).redelivers other) =
        entries.countP fun other => other.1 = tenant && state.redelivers other := by
      apply List.countP_congr
      intro other listed
      rw [redelivers, redelivers, kept_settle goesOn fresh other listed]
    have still : ∀ other ∈ entries, ((state.settle owner entry fate).inFlight other.1).isSome := by
      have one : Delivers engine queue now [(owner, entry)] state count
          (state.settle owner entry fate) := .cons met goesOn (.nil _)
      intro other listed
      rw [one.registered]
      · exact rest other listed
      · exact List.forall_mem_singleton.mpr (Option.isSome_of_eq_some here)
    rw [ih tail (settle_sound _ _ _ _ sound) still, same, List.countP_cons]
    subst met
    obtain ⟨nothing, dropped, -⟩ | ⟨task, time, kept, due, requeued, -⟩ :=
      engine.fate_cases queue now _ goesOn
    · have unread : state.redelivers (owner, entry) = false := by
        rw [redelivers, nothing, Option.isSome_none]
      rw [dropped, unread, Bool.and_false]
      rfl
    · have read : state.redelivers (owner, entry) = true := by
        rw [redelivers, kept, Option.isSome_some]
      rw [requeued, inFlight_settle entry _ time here, read, Bool.and_true]
      by_cases own : owner = tenant
      · subst own
        simp only [here, decide_true, if_true, Option.map_some, Option.some.injEq]
        omega
      · simp only [own, decide_false, if_false, Bool.false_eq_true, Nat.add_zero]

theorem mem_entered (tenant : Tenant) (entered : Bytes × Double) :
    entered ∈ QueueState.entered engine now state tenant entries ↔
      ∃ fingerprint, (tenant, fingerprint) ∈ entries ∧
        engine.entering? now (state.payloads.get? fingerprint) = some entered := by
  simp only [QueueState.entered, List.mem_filterMap, Option.ite_none_right_eq_some]
  constructor
  · rintro ⟨⟨owner, fingerprint⟩, listed, rfl, enters⟩
    exact ⟨fingerprint, listed, enters⟩
  · rintro ⟨fingerprint, listed, enters⟩
    exact ⟨(tenant, fingerprint), listed, rfl, enters⟩

/-- The redelivery of an entry enters a record: that of the task kept for it with one error more and
nothing else changed, at the end of the delay that so many errors bring. -/
def Enters (engine : Engine) (now : Instant) (state : QueueState) (fingerprint : Fingerprint)
    (record : Bytes) (scored : Double) : Prop :=
  ∃ (task again : Task) (time : Instant), Engine.readable? (state.payloads.get? fingerprint) = some task ∧
    again = { task with errorCount := again.errorCount } ∧
    again.errorCount.toNat = task.errorCount.toNat + 1 ∧
    now.plus? (engine.config.backoff again.errorCount) = some time ∧
    record = again.encode ∧ scored = score time .normal

structure Swept (engine : Engine) (now : Instant) (redelivered : Finset (Tenant × Fingerprint))
    (state last : QueueState) : Prop where
  pending : ∀ tenant record scored, (last.pendingOf tenant).score? record = some scored ↔
    (∃ fingerprint, (tenant, fingerprint) ∈ redelivered ∧
      state.Enters engine now fingerprint record scored) ∨
    ((∀ fingerprint other, (tenant, fingerprint) ∈ redelivered →
        ¬state.Enters engine now fingerprint record other) ∧
      (state.pendingOf tenant).score? record = some scored)
  inFlight : ∀ tenant, last.inFlight tenant = (state.inFlight tenant).map fun count : Int =>
    max (count - (redelivered.filter fun entry => entry.1 = tenant).card) 0
  gone : ∀ tenant fingerprint, state.Expired tenant fingerprint now.epochSeconds →
    (last.processingOf tenant).score? fingerprint = none ∧ last.payloads.get? fingerprint = none
  entryKept : ∀ tenant fingerprint, ¬state.Expired tenant fingerprint now.epochSeconds →
    (last.processingOf tenant).score? fingerprint = (state.processingOf tenant).score? fingerprint
  recordKept : ∀ fingerprint, (∀ tenant, ¬state.Expired tenant fingerprint now.epochSeconds) →
    last.payloads.get? fingerprint = state.payloads.get? fingerprint

end QueueState

namespace Engine
open Program

/-- The task kept for an expired entry is one that the queue takes. The entry is named for it, it can
count one error more, and its delay ends within the calendar. -/
structure Regular (engine : Engine) (queue : String) (now : Instant) (fingerprint : Fingerprint)
    (task : Task) : Prop where
  accepted : engine.check queue task = .ok ()
  named : task.fingerprint = fingerprint
  counted : task.errorCount.toNat + 1 < 2 ^ 32
  due : ∃ time, now.plus? (engine.config.backoff (task.errorCount + 1)) = some time

theorem redeliveryTime?_of_plus? {now time : Instant} {delay : Duration} (valid : now.IsValid)
    (plus : now.plus? delay = some time) : redeliveryTime? now delay = some time := by
  have within : now.seconds + delay.wholeSeconds ≤ Instant.latest := by
    obtain ⟨within, -⟩ := Option.ite_none_right_eq_some.mp plus
    split at within
    · split at within
      · dsimp only at within
        omega
      · rename_i stays
        dsimp only at within
        omega
    · dsimp only at within
      omega
  have short : delay.nanoseconds ≤ Instant.longestSpan := by
    have first := valid.1
    unfold Duration.wholeSeconds at within
    unfold Instant.longestSpan
    simp only [Instant.earliest, Instant.latest] at first within
    omega
  rw [redeliveryTime?, if_pos short, plus]

theorem enters_iff (engine : Engine) (queue : String) (now : Instant) (valid : now.IsValid)
    (state : QueueState) (fingerprint : Fingerprint)
    (regular : ∀ task, readable? (state.payloads.get? fingerprint) = some task →
      engine.Regular queue now fingerprint task) (record : Bytes) (scored : Double) :
    state.Enters engine now fingerprint record scored ↔
      engine.entering? now (state.payloads.get? fingerprint) = some (record, scored) := by
  constructor
  · rintro ⟨task, again, time, kept, same, counted, plus, rfl, rfl⟩
    have count : again.errorCount = task.errorCount + 1 := by
      have more := task.succ_errorCount (regular task kept).counted
      exact UInt32.toNat_inj.mp (counted.trans more.symm)
    have twice : again = task.failedAgain := by
      rw [same, count]
      rfl
    rw [entering?, kept, Option.bind_some, ← count, redeliveryTime?_of_plus? valid plus,
      Option.map_some, twice]
  · intro enters
    obtain ⟨task, kept, enters⟩ := Option.bind_eq_some_iff.mp enters
    obtain ⟨time, due, same⟩ := Option.map_eq_some_iff.mp enters
    obtain ⟨rfl, rfl⟩ := Prod.mk.inj same
    have counts := regular task kept
    obtain ⟨moment, plus⟩ := counts.due
    obtain rfl := Option.some.inj ((redeliveryTime?_of_plus? valid plus).symm.trans due)
    exact ⟨task, task.failedAgain, moment, kept, rfl, task.succ_errorCount counts.counted, plus, rfl,
      rfl⟩

private theorem recordable_of_readable {record? : Option Bytes} {task : Task}
    (kept : readable? record? = some task) : task.Recordable := by
  obtain ⟨record, rfl, read⟩ := Option.bind_eq_some_iff.mp kept
  cases decoded : Task.decode record with
  | error failure => simp [decoded, Except.toOption] at read
  | ok stored =>
    rw [decoded, Except.toOption, Option.some.injEq] at read
    exact read ▸ Task.decode_recordable decoded

/-- Records that two entries enter are the same only if the tasks kept for these are. -/
private theorem eq_of_entering {engine : Engine} {now : Instant} {first? second? : Option Bytes}
    {first second : Fingerprint} {one two : Bytes × Double}
    (named : ∀ task, readable? first? = some task → task.fingerprint = first)
    (namedToo : ∀ task, readable? second? = some task → task.fingerprint = second)
    (enters : engine.entering? now first? = some one)
    (entersToo : engine.entering? now second? = some two) (same : one.1 = two.1) : first = second := by
  obtain ⟨task, kept, enters⟩ := Option.bind_eq_some_iff.mp enters
  obtain ⟨taskToo, keptToo, entersToo⟩ := Option.bind_eq_some_iff.mp entersToo
  obtain ⟨_, _, rfl⟩ := Option.map_eq_some_iff.mp enters
  obtain ⟨_, _, rfl⟩ := Option.map_eq_some_iff.mp entersToo
  have again := Task.eq_of_encode_append (recordable_of_readable kept).failedAgain
    (recordable_of_readable keptToo).failedAgain [] [] (congrArg (· ++ []) same)
  have fingerprints := congrArg Task.fingerprint again
  change task.fingerprint = taskToo.fingerprint at fingerprints
  rw [named task kept, namedToo taskToo keptToo] at fingerprints
  exact fingerprints

end Engine

namespace QueueState
variable {engine : Engine} {queue : String} {now : Instant}
  {entries : List (Tenant × Fingerprint)} {state last : QueueState} {count : Nat}

private theorem entered_nodup (distinct : entries.Nodup)
    (named : ∀ entry ∈ entries, ∀ task,
      Engine.readable? (state.payloads.get? entry.2) = some task → task.fingerprint = entry.2)
    (tenant : Tenant) : ((entered engine now state tenant entries).map Prod.fst).Nodup := by
  unfold List.Nodup entered
  rw [List.pairwise_map, List.pairwise_filterMap]
  refine distinct.imp_of_mem ?_
  intro first second firstListed secondListed differ one enters two entersToo same
  obtain ⟨own, enters⟩ := Option.ite_none_right_eq_some.mp enters
  obtain ⟨ownToo, entersToo⟩ := Option.ite_none_right_eq_some.mp entersToo
  have fingerprints := Engine.eq_of_entering (named first firstListed) (named second secondListed)
    enters entersToo same
  exact differ (Prod.ext (own.trans ownToo.symm) fingerprints)

private theorem card_filter_toFinset {α : Type} [DecidableEq α] (members : List α)
    (distinct : members.Nodup) (Chosen : α → Prop) [DecidablePred Chosen] :
    (members.toFinset.filter Chosen).card = members.countP fun member => Chosen member := by
  rw [List.countP_eq_length_filter, ← List.toFinset_card_of_nodup (distinct.filter _)]
  congr 1
  ext member
  simp

private theorem exists_enters_iff (valid : now.IsValid)
    (regular : ∀ entry ∈ entries, ∀ task,
      Engine.readable? (state.payloads.get? entry.2) = some task →
        engine.Regular queue now entry.2 task) (tenant : Tenant) (record : Bytes) (scored : Double) :
    (∃ fingerprint, (tenant, fingerprint) ∈ (entries.filter state.redelivers).toFinset ∧
        state.Enters engine now fingerprint record scored) ↔
      (record, scored) ∈ entered engine now state tenant entries := by
  rw [mem_entered]
  refine exists_congr fun fingerprint => ?_
  rw [List.mem_toFinset, List.mem_filter, and_assoc]
  refine and_congr_right fun listed => ?_
  rw [Engine.enters_iff engine queue now valid state fingerprint (regular _ listed)]
  refine and_iff_right_of_imp fun enters => ?_
  obtain ⟨task, kept, -⟩ := Option.bind_eq_some_iff.mp enters
  exact Option.isSome_of_eq_some kept

theorem Delivers.swept (delivers : Delivers engine queue now entries state count last)
    (sound : state.Sound) (valid : now.IsValid) (distinct : (entries.map Prod.snd).Nodup)
    (expired : ∀ tenant fingerprint, (tenant, fingerprint) ∈ entries ↔
      state.Expired tenant fingerprint now.epochSeconds)
    (regular : ∀ entry ∈ entries, ∀ task,
      Engine.readable? (state.payloads.get? entry.2) = some task →
        engine.Regular queue now entry.2 task) :
    Swept engine now (entries.filter state.redelivers).toFinset state last where
  pending tenant record scored := by
    have once : ((entered engine now state tenant entries).map Prod.fst).Nodup :=
      entered_nodup distinct.of_map
        (fun entry listed task kept => (regular entry listed task kept).named) tenant
    have enters := exists_enters_iff valid regular tenant record
    have absent : (∀ other, (record, other) ∉ entered engine now state tenant entries) ↔
        ∀ fingerprint other, (tenant, fingerprint) ∈ (entries.filter state.redelivers).toFinset →
          ¬state.Enters engine now fingerprint record other := by
      simp only [← enters, not_exists, not_and]
      exact forall_comm
    rw [delivers.pendingOf_eq distinct, ScoredSet.score?_insertAll_iff _ _ _ _ once, enters, absent]
  inFlight tenant := by
    have once : (entries.filter state.redelivers).Nodup := distinct.of_map.filter _
    have size : ((entries.filter state.redelivers).toFinset.filter fun entry =>
        entry.1 = tenant).card =
        entries.countP fun entry => entry.1 = tenant && state.redelivers entry := by
      rw [card_filter_toFinset _ once, List.countP_filter]
    rw [delivers.inFlight_eq distinct sound, size]
    intro entry listed
    exact ((expired entry.1 entry.2).mp listed).1
  gone tenant fingerprint due := by
    have listed := (expired tenant fingerprint).mpr due
    refine ⟨?_, ?_⟩
    · rw [delivers.processing sound, if_pos listed]
    · rw [delivers.payloads, if_pos (List.mem_map_of_mem listed)]
  entryKept tenant fingerprint stays := by
    rw [delivers.processing sound, if_neg]
    exact fun listed => stays ((expired tenant fingerprint).mp listed)
  recordKept fingerprint stays := by
    rw [delivers.payloads, if_neg]
    intro named
    obtain ⟨⟨tenant, _⟩, listed, rfl⟩ := List.mem_map.mp named
    exact stays tenant ((expired _ _).mp listed)

def addEntries (state : QueueState) (entries : List (Tenant × Fingerprint × Double)) : QueueState :=
  entries.foldl (fun state entry => (state.addProcessing entry.1 entry.2.1 entry.2.2).2) state

theorem addEntries_concat (state : QueueState) (entries : List (Tenant × Fingerprint × Double))
    (entry : Tenant × Fingerprint × Double) :
    state.addEntries (entries ++ [entry]) =
      ((state.addEntries entries).addProcessing entry.1 entry.2.1 entry.2.2).2 :=
  List.foldl_append

/-- Where there are no entries, those that are added once each are there with their deadlines. -/
theorem score?_addEntries (state : QueueState) (entries : List (Tenant × Fingerprint × Double))
    (fresh : ∀ tenant, state.processingOf tenant = ScoredSet.empty)
    (distinct : (entries.map fun entry => (entry.1, entry.2.1)).Nodup) (tenant : Tenant)
    (fingerprint : Fingerprint) (deadline : Double) :
    ((state.addEntries entries).processingOf tenant).score? fingerprint = some deadline ↔
      (tenant, fingerprint, deadline) ∈ entries := by
  induction entries using List.reverseRecOn generalizing tenant fingerprint deadline with
  | nil => simp [addEntries, fresh]
  | append_singleton entries entry ih =>
    obtain ⟨owner, name, latest⟩ := entry
    rw [List.map_append, List.nodup_append] at distinct
    obtain ⟨earlier, -, apart⟩ := distinct
    have known := ih earlier
    rw [addEntries_concat, score?_addProcessing, List.mem_append, List.mem_singleton, ← known]
    split
    · rename_i same
      obtain ⟨rfl, rfl⟩ := same
      have absent : ((state.addEntries entries).processingOf owner).score? name = none := by
        refine Option.eq_none_iff_forall_ne_some.mpr fun old found => ?_
        exact apart _ (List.mem_map_of_mem ((known owner name old).mp found)) _
          (List.mem_singleton_self _) rfl
      simp [absent, eq_comm]
    · rename_i differ
      simp only [Prod.mk.injEq]
      exact ⟨Or.inl, fun either =>
        either.resolve_right fun same => differ ⟨same.1.symm, same.2.1.symm⟩⟩

theorem addEntries_frame (state : QueueState) (entries : List (Tenant × Fingerprint × Double)) :
    (state.addEntries entries).registry = state.registry ∧
      (state.addEntries entries).payloads = state.payloads := by
  induction entries using List.reverseRecOn with
  | nil => exact ⟨rfl, rfl⟩
  | append_singleton entries entry ih =>
    rw [addEntries_concat]
    exact ih

end QueueState

namespace Engine
open Program

theorem requeueExpired_idle (engine : Engine) (store : MemoryStore) (queue : String) (now : Instant)
    (sound : store.Sound)
    (idle : ∀ tenant fingerprint, ¬(store.queue queue).Expired tenant fingerprint now.epochSeconds) :
    ∃ last, (engine.requeueExpired queue now).Ends MemoryStore.backend store (.ok 0) last ∧
      ∀ name, last.queue name = store.queue name := by
  obtain ⟨registered, outcome, last, state, ended, -, listed, becomes, sweeps⟩ :=
    ends_requeueExpired engine store queue now sound
  have nothing : (store.queue queue).expiredOf now.epochSeconds registered = [] := by
    apply List.eq_nil_iff_forall_not_mem.mpr
    rintro ⟨tenant, fingerprint⟩ member
    exact idle tenant fingerprint (QueueState.expired_of_mem_expiredOf _ _ registered tenant fingerprint
      (sound queue) listed member)
  rw [nothing] at sweeps
  obtain ⟨rfl, rfl⟩ := sweeps.of_nil
  refine ⟨last, ended, fun name => ?_⟩
  rw [becomes name]
  split
  · rename_i same
    rw [same]
  · rfl

/-- On a queue where no deadline hides others, each fingerprint has one entry and what is kept for the
expired ones is regular, a sweep counts and redelivers exactly the expired entries that keep a readable
task, and removes all expired ones. It has nothing left to do for a second one. -/
theorem requeueExpired_effect (engine : Engine) (calls : List Call) (queue : String) (now : Instant)
    (valid : now.IsValid) (timely : ((MemoryStore.after calls).queue queue).Timely)
    (alone : ((MemoryStore.after calls).queue queue).Alone)
    (regular : ∀ tenant fingerprint task,
      ((MemoryStore.after calls).queue queue).Expired tenant fingerprint now.epochSeconds →
      readable? (((MemoryStore.after calls).queue queue).payloads.get? fingerprint) = some task →
      engine.Regular queue now fingerprint task) :
    let store := MemoryStore.after calls
    let state := store.queue queue
    ∃ (redelivered : Finset (Tenant × Fingerprint)) (last again : MemoryStore),
      (∀ tenant fingerprint, (tenant, fingerprint) ∈ redelivered ↔
        state.Expired tenant fingerprint now.epochSeconds ∧
          (readable? (state.payloads.get? fingerprint)).isSome) ∧
      (engine.requeueExpired queue now).Ends MemoryStore.backend store (.ok redelivered.card) last ∧
      state.Swept engine now redelivered (last.queue queue) ∧
      (∀ name, name ≠ queue → last.queue name = store.queue name) ∧
      (engine.requeueExpired queue now).Ends MemoryStore.backend last (.ok 0) again ∧
      ∀ name, again.queue name = last.queue name := by
  intro store state
  have sound : store.Sound := MemoryStore.after_sound calls
  obtain ⟨registered, outcome, last, next, ended, tenants, listed, becomes, sweeps⟩ :=
    ends_requeueExpired engine store queue now sound
  have expired (tenant : Tenant) (fingerprint : Fingerprint) :=
    QueueState.mem_expiredOf state now.epochSeconds registered tenant fingerprint (sound queue) timely
      listed
  have once := QueueState.expiredOf_nodup state now.epochSeconds registered (sound queue) tenants
  generalize state.expiredOf now.epochSeconds registered = entries at sweeps expired once
  have distinct : (entries.map Prod.snd).Nodup := by
    refine once.map_on fun first firstListed second secondListed same => Prod.ext ?_ same
    obtain ⟨-, deadline, found, -⟩ := (expired first.1 first.2).mp firstListed
    obtain ⟨-, other, foundToo, -⟩ := (expired second.1 second.2).mp secondListed
    exact alone _ _ _ (Option.isSome_of_eq_some found)
      (Option.isSome_of_eq_some (same ▸ foundToo))
  have takes : ∀ entry ∈ entries, ∀ task,
      readable? (state.payloads.get? entry.2) = some task → engine.Regular queue now entry.2 task :=
    fun entry member task kept => regular entry.1 entry.2 task ((expired _ _).mp member) kept
  obtain ⟨count, rfl⟩ : ∃ count, outcome = .ok count := by
    refine sweeps.ok_iff.mpr fun tenant fingerprint member record task kept decoded => ?_
    have readable : readable? (state.payloads.get? fingerprint) = some task := by
      rw [kept, readable?, Option.bind_some, decoded]
      rfl
    have fits := takes _ member task readable
    obtain ⟨time, plus⟩ := fits.due
    exact ⟨fits.accepted, Option.isSome_of_eq_some (redeliveryTime?_of_plus? valid plus)⟩
  have delivers := sweeps.delivers
  have counted : count = (entries.filter state.redelivers).toFinset.card := by
    rw [delivers.count_eq distinct, List.countP_eq_length_filter,
      List.toFinset_card_of_nodup (once.filter _)]
  have idle (tenant : Tenant) (fingerprint : Fingerprint) :
      ¬(last.queue queue).Expired tenant fingerprint now.epochSeconds := by
    rw [becomes.queue]
    exact delivers.none_expired (sound queue) expired tenant fingerprint
  obtain ⟨again, endsAgain, same⟩ := requeueExpired_idle engine last queue now
    (becomes.sound sound (delivers.sound (sound queue))) idle
  refine ⟨_, last, again, ?_, counted ▸ ended, ?_, ?_, endsAgain, same⟩
  · intro tenant fingerprint
    rw [List.mem_toFinset, List.mem_filter, expired]
    rfl
  · rw [becomes.queue]
    exact delivers.swept (sound queue) valid distinct expired takes
  · intro name differ
    rw [becomes name, if_neg (Ne.symm differ)]

def expiredEntries : List (Tenant × Fingerprint × Double) :=
  [(⟨1⟩, typed.fingerprint, 0), (⟨1⟩, ⟨"unreadable"⟩, 0), (⟨2⟩, elsewhere.fingerprint, 0),
    (⟨2⟩, ⟨"missing"⟩, 0)]

/-- The last entry never expires. -/
def entriesUnderWay : List (Tenant × Fingerprint × Double) :=
  expiredEntries ++ [(⟨2⟩, ⟨"later"⟩, ⟨0x7ff0000000000000⟩)]

def registrations : List Call := [.push "q" ⟨1⟩ [] 0, .push "q" ⟨2⟩ [] 0, .pop "q"]

def keptRecords : List Call :=
  [.setPayload "q" typed.fingerprint typed.encode, .setPayload "q" ⟨"unreadable"⟩ [0xc1],
    .setPayload "q" elsewhere.fingerprint elsewhere.encode]

def overdue : List Call :=
  registrations ++
    (entriesUnderWay.map fun entry => .addProcessing "q" entry.1 entry.2.1 entry.2.2) ++ keptRecords

private theorem queue_overdue : (MemoryStore.after overdue).queue "q" =
    keptRecords.foldl QueueState.after
      ((registrations.foldl QueueState.after QueueState.empty).addEntries entriesUnderWay) := by
  have about : ∀ call ∈ overdue, call.queue = "q" := by
    simp only [overdue, registrations, keptRecords, List.forall_mem_append, List.forall_mem_cons,
      List.forall_mem_map, Call.queue, implies_true, and_true, List.not_mem_nil, false_implies]
  rw [MemoryStore.after, MemoryStore.queue_performAll _ _ _ about, MemoryStore.queue_empty, overdue,
    List.foldl_append, List.foldl_append, List.foldl_map, QueueState.addEntries]
  congr 1

private theorem entriesUnderWay_nodup : (entriesUnderWay.map fun entry => entry.2.1).Nodup := by
  decide +kernel

private theorem entry_of_overdue (tenant : Tenant) (fingerprint : Fingerprint) (deadline : Double) :
    (((MemoryStore.after overdue).queue "q").processingOf tenant).score? fingerprint = some deadline ↔
      (tenant, fingerprint, deadline) ∈ entriesUnderWay := by
  have fresh (tenant : Tenant) : (registrations.foldl QueueState.after QueueState.empty).processingOf
      tenant = ScoredSet.empty := rfl
  have distinct : (entriesUnderWay.map fun entry => (entry.1, entry.2.1)).Nodup := by
    refine List.Nodup.of_map Prod.snd ?_
    rw [List.map_map]
    exact entriesUnderWay_nodup
  have untouched (state : QueueState) :
      (keptRecords.foldl QueueState.after state).processingOf tenant = state.processingOf tenant := rfl
  rw [queue_overdue, untouched]
  exact QueueState.score?_addEntries _ entriesUnderWay fresh distinct tenant fingerprint deadline

private theorem inFlight_overdue (tenant : Tenant) : ((MemoryStore.after overdue).queue "q").inFlight
    tenant = (registrations.foldl QueueState.after QueueState.empty).inFlight tenant := by
  have untouched (state : QueueState) :
      (keptRecords.foldl QueueState.after state).inFlight tenant = state.inFlight tenant := rfl
  rw [queue_overdue, untouched, QueueState.inFlight, (QueueState.addEntries_frame _ _).1]
  rfl

private theorem readable?_overdue (fingerprint : Fingerprint) (task : Task) :
    readable? (((MemoryStore.after overdue).queue "q").payloads.get? fingerprint) = some task ↔
      fingerprint = typed.fingerprint ∧ task = typed ∨
        fingerprint = elsewhere.fingerprint ∧ task = elsewhere := by
  have distinct : [typed.fingerprint, ⟨"unreadable"⟩, elsewhere.fingerprint, ⟨"missing"⟩,
    ⟨"later"⟩].Nodup := entriesUnderWay_nodup
  simp only [List.nodup_cons, List.mem_cons, not_or] at distinct
  obtain ⟨⟨notTyped, differ, -⟩, ⟨notElsewhere, -⟩, -⟩ := distinct
  have kept (state : QueueState) : (keptRecords.foldl QueueState.after state).payloads =
      ((state.payloads.set typed.fingerprint typed.encode).set ⟨"unreadable"⟩ [0xc1]).set
        elsewhere.fingerprint elsewhere.encode := rfl
  have none : (registrations.foldl QueueState.after QueueState.empty).payloads = Table.empty := rfl
  have first : Task.decode typed.encode = .ok typed := by cbv
  have second : Task.decode elsewhere.encode = .ok elsewhere := by cbv
  have neither : Task.decode [0xc1] = .error (.serialization .packed) := by decide +kernel
  rw [queue_overdue, kept, (QueueState.addEntries_frame _ _).2, none, Table.get?_set, Table.get?_set,
    Table.get?_set, Table.get?_empty]
  by_cases own : elsewhere.fingerprint = fingerprint
  · subst own
    simp [readable?, second, Except.toOption, Ne.symm differ, eq_comm]
  · rw [if_neg own]
    by_cases unreadable : ⟨"unreadable"⟩ = fingerprint
    · subst unreadable
      simp [readable?, neither, Except.toOption, Ne.symm notTyped, notElsewhere]
    · rw [if_neg unreadable]
      by_cases same : typed.fingerprint = fingerprint
      · subst same
        simp [readable?, first, Except.toOption, differ, eq_comm]
      · simp [readable?, same, Ne.symm same, Ne.symm own]

private theorem timely_overdue : ((MemoryStore.after overdue).queue "q").Timely := by
  intro tenant fingerprint deadline found
  have numbers : ∀ entry ∈ entriesUnderWay, entry.2.2.isNaN = false := by decide +kernel
  have listed := (entry_of_overdue tenant fingerprint deadline).mp found
  exact fun noNumber => absurd (noNumber.symm.trans (numbers _ listed)) (by decide)

private theorem alone_overdue : ((MemoryStore.after overdue).queue "q").Alone := by
  intro first second fingerprint once also
  obtain ⟨deadline, once⟩ := Option.isSome_iff_exists.mp once
  obtain ⟨other, also⟩ := Option.isSome_iff_exists.mp also
  exact congrArg Prod.fst (List.inj_on_of_nodup_map entriesUnderWay_nodup
    ((entry_of_overdue _ _ _).mp once) ((entry_of_overdue _ _ _).mp also) rfl)

private theorem expired_overdue : ∀ entry ∈ expiredEntries,
    ((MemoryStore.after overdue).queue "q").Expired entry.1 entry.2.1 noon.epochSeconds := by
  intro entry listed
  have due : (((MemoryStore.after overdue).queue "q").inFlight entry.1).isSome ∧
      entry.2.2.le noon.epochSeconds := by
    rw [inFlight_overdue]
    revert entry
    decide +kernel
  exact ⟨due.1, entry.2.2, (entry_of_overdue _ _ _).mpr (List.mem_append_left _ listed), due.2⟩

private theorem regular_overdue (fingerprint : Fingerprint) (task : Task)
    (read : readable? (((MemoryStore.after overdue).queue "q").payloads.get? fingerprint) = some task) :
    standard.Regular "q" noon fingerprint task := by
  rcases (readable?_overdue fingerprint task).mp read with ⟨rfl, rfl⟩ | ⟨rfl, rfl⟩
  · exact ⟨rfl, rfl, by decide, _, rfl⟩
  · exact ⟨rfl, rfl, by decide, _, rfl⟩

/-- Of two tenants' expired entries two keep a readable task. These are entered again one second later, and
all that are expired are gone. -/
theorem requeueExpired_effect_overdue :
    let state := (MemoryStore.after overdue).queue "q"
    noon.IsValid ∧ state.Timely ∧ state.Alone ∧ state.inFlight ⟨1⟩ = some 1 ∧
      (∀ entry ∈ expiredEntries, state.Expired entry.1 entry.2.1 noon.epochSeconds) ∧
      ∃ last again : MemoryStore,
        (standard.requeueExpired "q" noon).Ends MemoryStore.backend (MemoryStore.after overdue) (.ok 2)
          last ∧
        ((last.queue "q").pendingOf ⟨1⟩).score? typed.failedAgain.encode =
          some (score ⟨1700000001, 0⟩ .normal) ∧
        ((last.queue "q").pendingOf ⟨2⟩).score? elsewhere.failedAgain.encode =
          some (score ⟨1700000001, 0⟩ .normal) ∧
        (last.queue "q").inFlight ⟨1⟩ = some 0 ∧
        (∀ entry ∈ expiredEntries, ((last.queue "q").processingOf entry.1).score? entry.2.1 = none ∧
          (last.queue "q").payloads.get? entry.2.1 = none) ∧
        ((last.queue "q").processingOf ⟨2⟩).score? ⟨"later"⟩ = some ⟨0x7ff0000000000000⟩ ∧
        (standard.requeueExpired "q" noon).Ends MemoryStore.backend last (.ok 0) again := by
  intro state
  have due := expired_overdue
  obtain ⟨redelivered, last, again, listed, ended, swept, -, endsAgain, -⟩ :=
    requeueExpired_effect standard overdue "q" noon (by decide) timely_overdue alone_overdue
      fun _ fingerprint task _ => regular_overdue fingerprint task
  have first : state.Expired ⟨1⟩ typed.fingerprint noon.epochSeconds :=
    due (⟨1⟩, typed.fingerprint, 0) (List.mem_cons_self ..)
  have second : state.Expired ⟨2⟩ elsewhere.fingerprint noon.epochSeconds :=
    due (⟨2⟩, elsewhere.fingerprint, 0) (by simp [expiredEntries])
  have firstKept : readable? (state.payloads.get? typed.fingerprint) = some typed :=
    (readable?_overdue typed.fingerprint typed).mpr (Or.inl ⟨rfl, rfl⟩)
  have secondKept : readable? (state.payloads.get? elsewhere.fingerprint) = some elsewhere :=
    (readable?_overdue elsewhere.fingerprint elsewhere).mpr (Or.inr ⟨rfl, rfl⟩)
  have both : redelivered = {(⟨1⟩, typed.fingerprint), (⟨2⟩, elsewhere.fingerprint)} := by
    ext ⟨tenant, fingerprint⟩
    rw [listed, Finset.mem_insert, Finset.mem_singleton, Option.isSome_iff_exists, Prod.mk.injEq,
      Prod.mk.injEq]
    constructor
    · rintro ⟨⟨-, deadline, found, -⟩, task, read⟩
      have present := Option.isSome_of_eq_some found
      rcases (readable?_overdue fingerprint task).mp read with ⟨rfl, -⟩ | ⟨rfl, -⟩
      · obtain ⟨-, _, foundToo, -⟩ := first
        exact Or.inl ⟨alone_overdue _ _ _ present (Option.isSome_of_eq_some foundToo), rfl⟩
      · obtain ⟨-, _, foundToo, -⟩ := second
        exact Or.inr ⟨alone_overdue _ _ _ present (Option.isSome_of_eq_some foundToo), rfl⟩
    · rintro (⟨rfl, rfl⟩ | ⟨rfl, rfl⟩)
      · exact ⟨first, typed, firstKept⟩
      · exact ⟨second, elsewhere, secondKept⟩
  have counted : state.inFlight ⟨1⟩ = some 1 := by
    rw [inFlight_overdue]
    decide +kernel
  have own : (redelivered.filter fun entry => entry.1 = ⟨1⟩).card = 1 := by
    rw [both, Finset.filter_insert, if_pos rfl, Finset.filter_singleton, if_neg (by decide)]
    exact Finset.card_singleton _
  have differ : ((⟨1⟩ : Tenant), typed.fingerprint) ≠ (⟨2⟩, elsewhere.fingerprint) := fun same =>
    absurd (congrArg Prod.fst same) (by decide)
  have notLater : ¬state.Expired ⟨2⟩ ⟨"later"⟩ noon.epochSeconds := by
    rintro ⟨-, deadline, found, passed⟩
    have latest := (entry_of_overdue ⟨2⟩ ⟨"later"⟩ ⟨0x7ff0000000000000⟩).mpr
      (by simp [entriesUnderWay])
    obtain rfl := Option.some.inj (latest.symm.trans found)
    exact absurd passed (by decide +kernel)
  rw [both, Finset.card_pair differ] at ended
  refine ⟨by decide, timely_overdue, alone_overdue, counted, due, last, again, ended, ?_, ?_, ?_,
    fun entry member => swept.gone _ _ (due entry member), ?_, endsAgain⟩
  · exact (swept.pending _ _ _).mpr (Or.inl ⟨typed.fingerprint,
      (listed _ _).mpr ⟨first, Option.isSome_of_eq_some firstKept⟩, typed, typed.failedAgain,
      ⟨1700000001, 0⟩, firstKept, rfl, rfl, rfl, rfl, rfl⟩)
  · exact (swept.pending _ _ _).mpr (Or.inl ⟨elsewhere.fingerprint,
      (listed _ _).mpr ⟨second, Option.isSome_of_eq_some secondKept⟩, elsewhere, elsewhere.failedAgain,
      ⟨1700000001, 0⟩, secondKept, rfl, rfl, rfl, rfl, rfl⟩)
  · rw [swept.inFlight, counted, own]
    rfl
  · rw [swept.entryKept _ _ notLater]
    exact (entry_of_overdue _ _ _).mpr (by simp [entriesUnderWay])

/-- A deadline before all numbers hides an expired entry, which the sweep leaves where it is. -/
theorem requeueExpired_hidden :
    let calls : List Call := [.push "q" ⟨1⟩ [] 0,
      .addProcessing "q" ⟨1⟩ ⟨"a"⟩ ⟨0xfff8000000000000⟩, .addProcessing "q" ⟨1⟩ ⟨"b"⟩ 0]
    let state := (MemoryStore.after calls).queue "q"
    noon.IsValid ∧ state.Alone ∧ (∀ fingerprint, state.payloads.get? fingerprint = none) ∧
      state.Expired ⟨1⟩ ⟨"b"⟩ noon.epochSeconds ∧
      ∃ last, (standard.requeueExpired "q" noon).Ends MemoryStore.backend (MemoryStore.after calls)
          (.ok 0) last ∧
        ((last.queue "q").processingOf ⟨1⟩).score? ⟨"b"⟩ = some 0 := by
  intro calls state
  have owner (tenant : Tenant) (fingerprint : Fingerprint)
      (present : ((state.processingOf tenant).score? fingerprint).isSome) : tenant = ⟨1⟩ := by
    by_contra differ
    have nothing : state.processingOf tenant = ScoredSet.empty := by
      change (((QueueState.empty.push ⟨1⟩ [] 0).addProcessing ⟨1⟩ ⟨"a"⟩ _).2.addProcessing ⟨1⟩ ⟨"b"⟩
        0).2.processingOf tenant = _
      rw [QueueState.processingOf_addProcessing, if_neg (Ne.symm differ),
        QueueState.processingOf_addProcessing, if_neg (Ne.symm differ)]
      rfl
    rw [nothing, ScoredSet.score?_empty] at present
    contradiction
  have alone : state.Alone := fun first second fingerprint once also =>
    (owner first fingerprint once).trans (owner second fingerprint also).symm
  exact ⟨by decide, alone, fun _ => rfl, ⟨rfl, 0, rfl, by decide +kernel⟩, _,
    ⟨_, Prod.ext (by decide +kernel) rfl⟩, by decide +kernel⟩

end Engine
end TenantQueue
