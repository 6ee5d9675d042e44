import TenantQueue.Proofs.Company
import TenantQueue.Proofs.Engine.Interruption
import TenantQueue.Proofs.Queue.Kept

/-! What a sweep discards while others work on the same queue. Each record that it deletes has been read
by it before, and what it enters again is the task that it read. In between the others may replace the
record, and begin work anew under its fingerprint; both are lost. -/
namespace TenantQueue.Engine
open Program

inductive Disposes (engine : Engine) (queue : String) (now : Instant) (tenant : Tenant)
    (fingerprint : Fingerprint) (record? : Option Bytes) : List Call → Prop
  | dropped (unreadable : readable? record? = none) :
    Disposes engine queue now tenant fingerprint record?
      [.removeProcessing queue tenant fingerprint, .deletePayload queue fingerprint]
  | requeued (task : Task) (time : Instant) (readable : readable? record? = some task)
    (due : redeliveryTime? now (engine.config.backoff (task.errorCount + 1)) = some time) :
    Disposes engine queue now tenant fingerprint record?
      [.push queue tenant task.failedAgain.encode (score time .normal), .release queue tenant,
        .removeProcessing queue tenant fingerprint, .deletePayload queue fingerprint]

variable {engine : Engine} {queue : String} {now : Instant} {tenant : Tenant}
  {fingerprint : Fingerprint} {events : List Event}

theorem scripted_dropEntry (queue : String) (tenant : Tenant) (fingerprint : Fingerprint) :
    (dropEntry queue tenant fingerprint).Scripted
      [.removeProcessing queue tenant fingerprint, .deletePayload queue fingerprint] :=
  scripted_bind (scripted_perform _) fun _ => scripted_perform _

theorem scripted_dropEntry_count (queue : String) (tenant : Tenant) (fingerprint : Fingerprint)
    (count : Nat) :
    (do dropEntry queue tenant fingerprint; return count : Program Nat).Scripted
      [.removeProcessing queue tenant fingerprint, .deletePayload queue fingerprint] :=
  scripted_bind (scripted_dropEntry queue tenant fingerprint) fun _ => scripted_silent trivial

theorem scripted_requeue (engine : Engine) (queue : String) (tenant : Tenant) (task : Task)
    (now time : Instant)
    (due : redeliveryTime? now (engine.config.backoff (task.errorCount + 1)) = some time) :
    (engine.requeue queue tenant task now).Scripted
      [.push queue tenant task.failedAgain.encode (score time .normal), .release queue tenant] := by
  have enters : (engine.enqueueAt queue tenant task.failedAgain time .normal).Scripted
      [.push queue tenant task.failedAgain.encode (score time .normal)] := by
    rw [enqueueAt]
    cases engine.check queue task.failedAgain with
    | error failure => exact scripted_failed failure _
    | ok accepted => exact scripted_bind (scripted_perform _) fun _ => scripted_silent trivial
  simp only [requeue, due]
  exact scripted_bind enters fun _ => scripted_bind (scripted_perform _) fun _ => scripted_silent trivial

theorem scripted_storedTask (queue : String) (tenant : Tenant) (fingerprint : Fingerprint) :
    (storedTask queue tenant fingerprint).Scripted [.getPayload queue fingerprint] := by
  refine scripted_bind (scripted_perform _) fun record? => scripted_silent ?_
  cases record? with
  | none => exact makes_bind _ _ trivial fun _ => trivial
  | some record =>
    dsimp only
    split
    · trivial
    · exact makes_bind _ _ trivial fun _ => trivial

theorem storedTask_reads {task? : Option Task}
    (follows : (storedTask queue tenant fingerprint).Follows events (.done task?)) :
    ∃ record?, events = [⟨.getPayload queue fingerprint, .ok record?⟩] ∧ task? = readable? record? := by
  obtain ⟨first, second, record?, split, asked, rest⟩ := follows.of_bind_done
  refine ⟨record?, ?_⟩
  cases record? with
  | none =>
    cases rest with
    | noted later =>
      cases later with
      | here => exact ⟨by rw [split, asked.of_perform, List.append_nil], rfl⟩
  | some record =>
    dsimp only at rest
    rw [readable?, Option.bind_some]
    cases decoded : Task.decode record with
    | ok task =>
      rw [decoded] at rest
      cases rest with
      | here => exact ⟨by rw [split, asked.of_perform, List.append_nil], rfl⟩
    | error failure =>
      rw [decoded] at rest
      cases rest with
      | noted later =>
        cases later with
        | here => exact ⟨by rw [split, asked.of_perform, List.append_nil], rfl⟩

/-- An entry's turn begins with its record, which decides what calls follow. -/
theorem requeueEntry_follows {last : Program Nat}
    (follows : (engine.requeueEntry queue tenant now fingerprint).Follows events last) :
    events = [] ∨ ∃ reply rest, events = ⟨.getPayload queue fingerprint, reply⟩ :: rest ∧
      (rest = [] ∨ ∃ record? calls, reply = .ok record? ∧
        Disposes engine queue now tenant fingerprint record? calls ∧
        rest.map Event.call <+: calls) := by
  rcases follows.of_bind with ⟨middle, within, _⟩ | ⟨first, rest, task?, split, stored, later⟩
  · have asked := (scripted_storedTask queue tenant fingerprint _ _ within).1
    cases events with
    | nil => exact Or.inl rfl
    | cons event others =>
      obtain ⟨call, reply⟩ := event
      obtain ⟨rfl, nothing⟩ := List.cons_prefix_cons.mp asked
      have others : others = [] := List.map_eq_nil_iff.mp (List.prefix_nil.mp nothing)
      exact Or.inr ⟨reply, [], by rw [others], Or.inl rfl⟩
  · obtain ⟨record?, rfl, rfl⟩ := storedTask_reads stored
    refine Or.inr ⟨_, rest, split, ?_⟩
    cases found : readable? record? with
    | none =>
      rw [found] at later
      refine Or.inr ⟨record?, _, rfl, .dropped found, ?_⟩
      exact (scripted_dropEntry_count queue tenant fingerprint 0 _ _ later).1
    | some task =>
      rw [found] at later
      cases due : redeliveryTime? now (engine.config.backoff (task.errorCount + 1)) with
      | none =>
        simp only [requeue, due] at later
        exact Or.inl (later.silent trivial)
      | some time =>
        refine Or.inr ⟨record?, _, rfl, .requeued task time found due, ?_⟩
        exact (scripted_bind (scripted_requeue engine queue tenant task now time due)
          (fun _ => scripted_dropEntry_count queue tenant fingerprint 1) _ _ later).1

theorem total_follows {α : Type} {work : α → Program Nat} (One : α → List Event → Prop)
    (All : List α → List Event → Prop) (nil : ∀ members, All members [])
    (cons : ∀ member rest first second, One member first → All rest second →
      All (member :: rest) (first ++ second))
    (each : ∀ member events last, (work member).Follows events last → One member events)
    (members : List α) (events : List Event) (last : Program Nat)
    (follows : (total work members).Follows events last) : All members events := by
  induction members generalizing events last with
  | nil =>
    rw [follows.silent trivial]
    exact nil []
  | cons member rest ih =>
    rcases follows.of_bind with ⟨middle, within, _⟩ | ⟨first, second, count, split, turn, later⟩
    · rw [← List.append_nil events]
      exact cons member rest events [] (each member events middle within) (nil rest)
    · rw [split]
      refine cons member rest first second (each member first _ turn) ?_
      rcases later.of_bind with ⟨middle, within, _⟩ | ⟨others, ending, _, split, rests, ends⟩
      · exact ih second middle within
      · rw [split, ends.silent trivial, List.append_nil]
        exact ih others _ rests

theorem Disposes.of_deletion {record? : Option Bytes} {calls own after : List Call} {name : String}
    {other : Fingerprint} (disposes : Disposes engine queue now tenant fingerprint record? calls)
    (split : calls = own ++ .deletePayload name other :: after) :
    name = queue ∧ other = fingerprint ∧ own ++ [.deletePayload name other] = calls := by
  have last : ∃ others, calls = others ++ [.deletePayload queue fingerprint] ∧
      ∀ name other, Call.deletePayload name other ∉ others := by
    cases disposes with
    | dropped => exact ⟨[_], rfl, by simp⟩
    | requeued => exact ⟨[_, _, _], rfl, by simp⟩
  obtain ⟨others, rfl, fresh⟩ := last
  rcases List.append_eq_append_iff.mp split with ⟨rest, rfl, within⟩ | ⟨rest, rfl, within⟩
  · cases rest with
    | nil =>
      obtain ⟨same, _⟩ := List.cons.inj within
      obtain ⟨rfl, rfl⟩ := Call.deletePayload.inj same
      exact ⟨rfl, rfl, by rw [List.append_nil]⟩
    | cons _ _ => simp at within
  · cases rest with
    | nil =>
      obtain ⟨same, _⟩ := List.cons.inj within
      obtain ⟨rfl, rfl⟩ := Call.deletePayload.inj same
      exact ⟨rfl, rfl, by rw [List.append_nil]⟩
    | cons call rest =>
      obtain ⟨rfl, _⟩ := List.cons.inj within
      exact absurd (by simp) (fresh name other)

theorem Disposes.of_whole {record? : Option Bytes} {own : List Call}
    (disposes : Disposes engine queue now tenant fingerprint record?
      (own ++ [.deletePayload queue fingerprint])) :
    ∃ others, own = others ++ [.removeProcessing queue tenant fingerprint] := by
  generalize whole : own ++ [Call.deletePayload queue fingerprint] = calls at disposes
  have cut (others : List Call)
      (same : calls = others ++ [.removeProcessing queue tenant fingerprint] ++
        [.deletePayload queue fingerprint]) :
      own = others ++ [.removeProcessing queue tenant fingerprint] :=
    List.append_cancel_right (whole.trans same)
  cases disposes with
  | dropped => exact ⟨[], cut [] rfl⟩
  | requeued task time => exact ⟨[_, _], cut [_, _] rfl⟩

/-- Each deletion ends the turn of an entry, which began with the record that was read. -/
def Ordered (engine : Engine) (queue : String) (now : Instant) (events : List Event) : Prop :=
  ∀ before name fingerprint reply after,
    events = before ++ ⟨.deletePayload name fingerprint, reply⟩ :: after → name = queue ∧
      ∃ tenant earlier record? own,
        before = earlier ++ ⟨.getPayload queue fingerprint, .ok record?⟩ :: own ∧
        Disposes engine queue now tenant fingerprint record?
          (own.map Event.call ++ [.deletePayload queue fingerprint])

theorem ordered_nil (engine : Engine) (queue : String) (now : Instant) :
    Ordered engine queue now [] := by
  intro before name fingerprint reply after split
  simp at split

theorem Ordered.append {first second : List Event} (once : Ordered engine queue now first)
    (again : Ordered engine queue now second) : Ordered engine queue now (first ++ second) := by
  intro before name fingerprint reply after split
  rcases List.append_eq_append_iff.mp split with ⟨rest, rfl, within⟩ | ⟨rest, within, others⟩
  · obtain ⟨same, tenant, earlier, record?, own, began, disposes⟩ := again _ _ _ _ _ within
    exact ⟨same, tenant, first ++ earlier, record?, own, by rw [began, List.append_assoc], disposes⟩
  · cases rest with
    | nil =>
      obtain ⟨same, tenant, earlier, record?, own, began, disposes⟩ :=
        again [] name fingerprint reply after others.symm
      simp at began
    | cons event rest =>
      obtain ⟨rfl, _⟩ := List.cons.inj others
      exact once before name fingerprint reply rest within

theorem Ordered.cons {event : Event} (ordered : Ordered engine queue now events)
    (keeps : ∀ name fingerprint, event.call ≠ .deletePayload name fingerprint) :
    Ordered engine queue now (event :: events) := by
  have one : Ordered engine queue now [event] := by
    intro before name fingerprint reply after split
    cases before with
    | nil =>
      obtain ⟨rfl, _⟩ := List.cons.inj split
      exact absurd rfl (keeps name fingerprint)
    | cons _ _ => simp at split
  exact one.append ordered

/-- Between two deletions of a sweep an entry is removed, the one that belongs to the second. -/
theorem Ordered.removes {before between after : List Event} {name other : String}
    {first : Fingerprint} {reply : Except Failure (Call.deletePayload name first).Reply}
    {answer : Except Failure (Call.deletePayload other fingerprint).Reply}
    (ordered : Ordered engine queue now (before ++ ⟨.deletePayload name first, reply⟩ :: between ++
      ⟨.deletePayload other fingerprint, answer⟩ :: after)) :
    ∃ tenant, .removeProcessing queue tenant fingerprint ∈ between.map Event.call := by
  obtain ⟨rfl, tenant, earlier, record?, own, began, disposes⟩ := ordered _ _ _ _ _ rfl
  obtain ⟨others, removed⟩ := disposes.of_whole
  have calls := congrArg (List.map Event.call) began
  simp only [List.map_append, List.map_cons, removed] at calls
  -- The second deletion comes right after the removal, so that is the last call in between.
  have last := congrArg List.getLast? calls
  rw [← List.cons_append, ← List.append_assoc, List.getLast?_concat, List.getLast?_append,
    List.getLast?_cons, Option.some_or] at last
  refine ⟨tenant, ?_⟩
  cases found : (between.map Event.call).getLast? with
  | none =>
    rw [found] at last
    cases last
  | some call =>
    rw [found] at last
    exact Option.some.inj last ▸ List.mem_of_getLast? found

theorem requeueEntry_ordered {last : Program Nat}
    (follows : (engine.requeueEntry queue tenant now fingerprint).Follows events last) :
    Ordered engine queue now events := by
  rcases requeueEntry_follows follows with
    rfl | ⟨reply, rest, rfl, rfl | ⟨record?, calls, rfl, disposes, made⟩⟩
  · exact ordered_nil engine queue now
  · exact (ordered_nil engine queue now).cons nofun
  · intro before name other answer after split
    cases before with
    | nil => simp at split
    | cons event own =>
      obtain ⟨rfl, others⟩ := List.cons.inj split
      obtain ⟨unmade, whole⟩ := made
      change rest = own ++ _ at others
      rw [others, List.map_append, List.map_cons, List.append_assoc, List.cons_append] at whole
      obtain ⟨rfl, rfl, own⟩ := disposes.of_deletion whole.symm
      exact ⟨rfl, tenant, [], record?, _, rfl, own ▸ disposes⟩

def removals (calls : List Call) : List (Tenant × Fingerprint) :=
  calls.filterMap fun
    | .removeProcessing _ tenant fingerprint => some (tenant, fingerprint)
    | _ => none

theorem mem_removals (calls : List Call) (tenant : Tenant) (fingerprint : Fingerprint) :
    (tenant, fingerprint) ∈ removals calls ↔
      ∃ name, .removeProcessing name tenant fingerprint ∈ calls := by
  rw [removals, List.mem_filterMap]
  constructor
  · rintro ⟨call, member, found⟩
    cases call with
    | removeProcessing name other removed =>
      obtain ⟨rfl, rfl⟩ := Prod.mk.inj (Option.some.inj found)
      exact ⟨name, member⟩
    | _ => contradiction
  · exact fun ⟨name, member⟩ => ⟨_, member, rfl⟩

theorem requeueEntry_removals {last : Program Nat}
    (follows : (engine.requeueEntry queue tenant now fingerprint).Follows events last) :
    (removals (events.map Event.call)).Sublist [(tenant, fingerprint)] := by
  rcases requeueEntry_follows follows with
    rfl | ⟨reply, rest, rfl, rfl | ⟨record?, calls, _, disposes, made⟩⟩
  · exact List.nil_sublist _
  · exact List.nil_sublist _
  · have removed : removals calls = [(tenant, fingerprint)] := by
      cases disposes <;> rfl
    exact removed ▸ made.sublist.filterMap _

def Event.Distinct : Event → Prop
  | ⟨.activeTenants _, .ok registered⟩ => (registered.map Prod.fst).Nodup
  | ⟨.expiredProcessing _ _ _, .ok fingerprints⟩ => fingerprints.Nodup
  | _ => True

def RemovesOnce (tenants : List Tenant) (events : List Event) : Prop :=
  (∀ event ∈ events, Event.Distinct event) → tenants.Nodup →
    (removals (events.map Event.call)).Nodup ∧
      ∀ entry ∈ removals (events.map Event.call), entry.1 ∈ tenants

theorem removesOnce_of_none (tenants : List Tenant) (none_removed : removals (events.map Event.call) = []) :
    RemovesOnce tenants events := by
  intro _ _
  rw [none_removed]
  exact ⟨List.nodup_nil, List.forall_mem_nil _⟩

theorem RemovesOnce.append {tenants : List Tenant} {first second : List Event}
    (once : RemovesOnce [tenant] first) (again : RemovesOnce tenants second) :
    RemovesOnce (tenant :: tenants) (first ++ second) := by
  intro distinct apart
  obtain ⟨here, there⟩ := List.forall_mem_append.mp distinct
  obtain ⟨fresh, tail⟩ := List.nodup_cons.mp apart
  obtain ⟨firstNodup, owned⟩ := once here (List.nodup_singleton tenant)
  obtain ⟨secondNodup, others⟩ := again there tail
  rw [List.map_append, removals, List.filterMap_append]
  refine ⟨List.nodup_append.mpr ⟨firstNodup, secondNodup, ?_⟩, ?_⟩
  · rintro entry member _ also rfl
    exact fresh (List.mem_singleton.mp (owned entry member) ▸ others entry also)
  · intro entry member
    rcases List.mem_append.mp member with inFirst | inSecond
    · exact List.mem_singleton.mp (owned entry inFirst) ▸ List.mem_cons_self ..
    · exact List.mem_cons_of_mem _ (others entry inSecond)

/-- The turns of one tenant's entries are in order, and each of these is removed at most once. -/
theorem tenantTurn_follows {last : Program Nat} (follows : (do
      let expired ← Program.perform (.expiredProcessing queue tenant now.epochSeconds)
      total (engine.requeueEntry queue tenant now) expired).Follows events last) :
    Ordered engine queue now events ∧ RemovesOnce [tenant] events := by
  rcases follows.of_perform_bind with rfl | ⟨reply, rest, rfl, rfl | ⟨expired, rfl, later⟩⟩
  · exact ⟨ordered_nil engine queue now, removesOnce_of_none _ rfl⟩
  · exact ⟨(ordered_nil engine queue now).cons nofun, removesOnce_of_none _ rfl⟩
  · have ordered := total_follows (fun _ => Ordered engine queue now) (fun _ => Ordered engine queue now)
      (fun _ => ordered_nil engine queue now) (fun _ _ _ _ once again => once.append again)
      (fun _ _ _ => requeueEntry_ordered) expired rest last later
    have listed := total_follows
      (fun fingerprint events => (removals (events.map Event.call)).Sublist [(tenant, fingerprint)])
      (fun fingerprints events => (removals (events.map Event.call)).Sublist
        (fingerprints.map fun fingerprint => (tenant, fingerprint)))
      (fun _ => List.nil_sublist _)
      (fun member others first second once again => by
        rw [List.map_append, removals, List.filterMap_append]
        exact once.append again)
      (fun _ _ _ => requeueEntry_removals) expired rest last later
    refine ⟨ordered.cons nofun, fun distinct _ => ⟨?_, ?_⟩⟩
    · have once : expired.Nodup := distinct _ (List.mem_cons_self ..)
      exact (once.map fun first second same => congrArg Prod.snd same).sublist listed
    · intro entry member
      obtain ⟨_, _, rfl⟩ := List.mem_map.mp (listed.subset member)
      exact List.mem_singleton_self tenant

theorem requeueExpired_follows {last : Program Nat}
    (follows : (engine.requeueExpired queue now).Follows events last) :
    Ordered engine queue now events ∧
      ((∀ event ∈ events, Event.Distinct event) → (removals (events.map Event.call)).Nodup) := by
  rcases follows.of_perform_bind with rfl | ⟨reply, rest, rfl, rfl | ⟨registered, rfl, later⟩⟩
  · exact ⟨ordered_nil engine queue now, fun _ => List.nodup_nil⟩
  · exact ⟨(ordered_nil engine queue now).cons nofun, fun _ => List.nodup_nil⟩
  · obtain ⟨ordered, once⟩ := total_follows
      (fun entry events => Ordered engine queue now events ∧ RemovesOnce [entry.1] events)
      (fun entries events => Ordered engine queue now events ∧
        RemovesOnce (entries.map Prod.fst) events)
      (fun _ => ⟨ordered_nil engine queue now, removesOnce_of_none _ rfl⟩)
      (fun member others first second once again => by
        rw [List.map_cons]
        exact ⟨once.1.append again.1, once.2.append again.2⟩)
      (fun _ _ _ => tenantTurn_follows) registered rest last later
    refine ⟨ordered.cons nofun, fun distinct => ?_⟩
    obtain ⟨here, others⟩ := List.forall_mem_cons.mp distinct
    exact (once others here).1

end TenantQueue.Engine

namespace TenantQueue

theorem MemoryStore.perform_distinct (store : MemoryStore) (call : Call) (sound : store.Sound) :
    Engine.Event.Distinct ⟨call, (store.perform call).1⟩ := by
  cases call with
  | activeTenants queue =>
    obtain ⟨registered, read⟩ := QueueState.exists_entries _ (sound queue)
    have active := QueueState.activeTenants_eq _ registered read
    simp only [MemoryStore.perform, active]
    exact QueueState.entries_nodup _ registered (sound queue) read
  | expiredProcessing queue tenant now =>
    exact QueueState.expiredProcessing_nodup _ tenant now (sound queue)
  | _ => trivial

theorem MemoryStore.ownEvents_distinct (store : MemoryStore) (log : List Entry) (sound : store.Sound) :
    ∀ event ∈ store.ownEvents log, Engine.Event.Distinct event := by
  induction log generalizing store with
  | nil => exact List.forall_mem_nil _
  | cons entry rest ih =>
    obtain ⟨mover, call⟩ := entry
    have later := ih _ (MemoryStore.perform_sound store call sound)
    cases mover with
    | own => exact List.forall_mem_cons.mpr ⟨store.perform_distinct call sound, later⟩
    | other place => exact later

namespace Engine
open Program

/-- A sweep has deleted a record. The calls `earlier` came before it read the record, `between` until it
deleted it, and `after` from then on. -/
structure Discards (engine : Engine) (queue : String) (now : Instant) (store : MemoryStore)
    (tenant : Tenant) (fingerprint : Fingerprint) (earlier between after : List Entry) : Prop where
  disposes : Disposes engine queue now tenant fingerprint
    ((store.performAll (earlier.map Prod.snd)).kept queue fingerprint)
    (Entry.ownCalls between ++ [.deletePayload queue fingerprint])
  deletes : (store.performAll
      ((earlier ++ (.own, .getPayload queue fingerprint) :: between).map Prod.snd)).kept queue fingerprint =
    (((between.map Prod.snd).filterMap (Call.leaves? queue fingerprint)).getLast?).getD
      ((store.performAll (earlier.map Prod.snd)).kept queue fingerprint)
  once : ∀ name, (.own, .removeProcessing name tenant fingerprint) ∉ after
  others : ∀ name, (.own, .deletePayload name fingerprint) ∈ after →
    ∃ other, other ≠ tenant ∧ (.own, .removeProcessing queue other fingerprint) ∈ after

variable {engine : Engine} {queue : String} {now : Instant} {store : MemoryStore}

theorem sweep_log (engine : Engine) (queue : String) (now : Instant) (others : List (Program Unit))
    (store : MemoryStore) (movers : List Mover) (log : List Entry) (sound : store.Sound)
    (made : (⟨engine.requeueExpired queue now, others, store⟩ : Company Nat).log movers = log) :
    Ordered engine queue now (store.ownEvents log) ∧ (removals (Entry.ownCalls log)).Nodup := by
  subst made
  obtain ⟨ordered, once⟩ := requeueExpired_follows
    (Company.log_follows (⟨engine.requeueExpired queue now, others, store⟩ : Company Nat) movers
      (yields_requeueExpired engine queue now))
  rw [← store.ownEvents_calls]
  exact ⟨ordered, once (store.ownEvents_distinct _ sound)⟩

/-- Between two deletions of a sweep it removes the entry that belongs to the second. -/
theorem Ordered.log_removes {before between after : List Entry} {first second : String}
    {fingerprint other : Fingerprint}
    (ordered : Ordered engine queue now (store.ownEvents
      (before ++ (.own, .deletePayload first fingerprint) :: between ++
        (.own, .deletePayload second other) :: after))) :
    ∃ tenant, (.own, .removeProcessing queue tenant other) ∈ between := by
  rw [List.append_assoc, List.cons_append, MemoryStore.ownEvents_append, MemoryStore.ownEvents,
    MemoryStore.ownEvents_append, MemoryStore.ownEvents, ← List.cons_append, ← List.append_assoc]
    at ordered
  obtain ⟨tenant, removes⟩ := ordered.removes
  rw [MemoryStore.ownEvents_calls, Entry.mem_ownCalls] at removes
  exact ⟨tenant, removes⟩

theorem not_removed_again {before after : List Entry} {place name : String} {tenant : Tenant}
    {fingerprint : Fingerprint} (once : (removals (Entry.ownCalls (before ++ after))).Nodup)
    (removed : (.own, .removeProcessing place tenant fingerprint) ∈ before) :
    (.own, .removeProcessing name tenant fingerprint) ∉ after := by
  intro again
  rw [Entry.ownCalls, List.filterMap_append, removals, List.filterMap_append] at once
  have here := (mem_removals _ tenant fingerprint).mpr ⟨place, (Entry.mem_ownCalls _ _).mpr removed⟩
  have there := (mem_removals _ tenant fingerprint).mpr ⟨name, (Entry.mem_ownCalls _ _).mpr again⟩
  exact (List.nodup_append.mp once).2.2 _ here _ there rfl

/-- Each deletion of a sweep among others on the same store ends the turn of one entry. The sweep has read
the entry's record and entered its task again; the record that it deletes is the one that was written last
since then, by whomever. -/
theorem sweep_discards (engine : Engine) (queue : String) (now : Instant) (others : List (Program Unit))
    (calls : List Call) (movers : List Mover) (before after : List Entry) (name : String)
    (fingerprint : Fingerprint)
    (split : (⟨engine.requeueExpired queue now, others, MemoryStore.after calls⟩ : Company Nat).log
      movers = before ++ (.own, .deletePayload name fingerprint) :: after) :
    name = queue ∧ ∃ tenant earlier between,
      before = earlier ++ (.own, .getPayload queue fingerprint) :: between ∧
      Discards engine queue now (MemoryStore.after calls) tenant fingerprint earlier between after := by
  have sound := MemoryStore.after_sound calls
  obtain ⟨ordered, distinct⟩ := sweep_log engine queue now others _ movers _ sound split
  have turn := ordered
  rw [MemoryStore.ownEvents_append] at turn
  obtain ⟨rfl, tenant, _, record?, _, began, disposes⟩ := turn _ _ _ _ _ rfl
  -- The reply that began the turn is the store's, after all calls of the log before it.
  obtain ⟨earlier, between, rfl, _, read, rfl⟩ := MemoryStore.ownEvents_split _ _ _ _ _ began
  obtain rfl : record? =
      ((MemoryStore.after calls).performAll (earlier.map Prod.snd)).kept name fingerprint := by
    cases read
    rfl
  rw [MemoryStore.ownEvents_calls] at disposes
  have removed : (.own, .removeProcessing name tenant fingerprint) ∈ between := by
    obtain ⟨first, ending⟩ := disposes.of_whole
    rw [← Entry.mem_ownCalls, ending]
    exact List.mem_append_right _ (List.mem_singleton_self _)
  have once (place : String) : (.own, .removeProcessing place tenant fingerprint) ∉ after :=
    fun again => not_removed_again distinct
      (List.mem_append_right _ (List.mem_cons_of_mem _ removed)) (List.mem_cons_of_mem _ again)
  refine ⟨rfl, tenant, earlier, between, rfl, disposes, ?_, once, ?_⟩
  · rw [List.map_append, MemoryStore.performAll_append, MemoryStore.kept_performAll _ _ _ _
      (MemoryStore.performAll_sound _ _ sound), List.map_cons, List.filterMap_cons_none rfl]
  · intro place member
    obtain ⟨first, rest, rfl⟩ := List.append_of_mem member
    rw [← List.cons_append, ← List.append_assoc] at ordered
    obtain ⟨other, removes⟩ := ordered.log_removes
    have among := List.mem_append_left ((Mover.own, Call.deletePayload place fingerprint) :: rest) removes
    refine ⟨other, ?_, among⟩
    rintro rfl
    exact once name among

def begun : List Call :=
  [.push "q" ⟨1⟩ typed.encode (score noon .normal), .pop "q",
    .addProcessing "q" ⟨1⟩ typed.fingerprint (noon.epochSeconds.add (Duration.seconds ⟨0⟩)),
    .setPayload "q" typed.fingerprint typed.encode]

def taker : Program Unit := do
  match ← next "q" with
  | none => return ()
  | some task =>
    let _ ← beginProcessing "q" task.tenant task ⟨3600000000000⟩ noon
    return ()

def race : Company Nat := ⟨standard.requeueExpired "q" noon, [taker], MemoryStore.after begun⟩

/-- The sweep has entered the task again, the worker takes and begins it, and the sweep goes on. -/
def raceTurns : List Mover :=
  List.replicate 7 .own ++ List.replicate 4 (.other 0) ++ List.replicate 2 .own

def beforeLoad : List Entry :=
  [(.own, .activeTenants "q"), (.own, .expiredProcessing "q" ⟨1⟩ noon.epochSeconds)]

def sinceLoad : List Entry :=
  [(.own, .push "q" ⟨1⟩ typed.failedAgain.encode (score ⟨1700000001, 0⟩ .normal)),
    (.own, .release "q" ⟨1⟩), (.other 0, .pop "q"),
    (.other 0, .addProcessing "q" ⟨1⟩ typed.fingerprint
      (noon.epochSeconds.add (Duration.seconds ⟨3600000000000⟩))),
    (.other 0, .setPayload "q" typed.fingerprint typed.failedAgain.encode),
    (.own, .removeProcessing "q" ⟨1⟩ typed.fingerprint)]

set_option maxRecDepth 100000 in
theorem race_log : race.log raceTurns =
    (beforeLoad ++ (.own, .getPayload "q" typed.fingerprint) :: sinceLoad) ++
      [(.own, .deletePayload "q" typed.fingerprint)] := by
  decide +kernel

theorem sweep_discards_in_race :
    race.log raceTurns = (beforeLoad ++ (.own, .getPayload "q" typed.fingerprint) :: sinceLoad) ++
        [(.own, .deletePayload "q" typed.fingerprint)] ∧
      ∃ tenant earlier between,
        beforeLoad ++ (.own, .getPayload "q" typed.fingerprint) :: sinceLoad =
          earlier ++ (.own, .getPayload "q" typed.fingerprint) :: between ∧
        Discards standard "q" noon (MemoryStore.after begun) tenant typed.fingerprint earlier between [] :=
  ⟨race_log, (sweep_discards standard "q" noon [taker] begun raceTurns _ [] "q" typed.fingerprint
    race_log).2⟩

set_option maxRecDepth 100000 in
/-- The worker has begun the task, and nothing is left of it: what the sweep deletes is not what it
read. -/
theorem race_loses_registration :
    race.log raceTurns = (beforeLoad ++ (.own, .getPayload "q" typed.fingerprint) :: sinceLoad) ++
        [(.own, .deletePayload "q" typed.fingerprint)] ∧
      (race.store.performAll (beforeLoad.map Prod.snd)).kept "q" typed.fingerprint =
        some typed.encode ∧
      (race.store.performAll ((beforeLoad ++ (.own, .getPayload "q" typed.fingerprint) ::
        sinceLoad).map Prod.snd)).kept "q" typed.fingerprint = some typed.failedAgain.encode ∧
      typed.encode ≠ typed.failedAgain.encode ∧
      (race.after (raceTurns.take 11)).others.map outcome? = [some (.ok ())] ∧
      (race.after raceTurns).program.outcome? = some (.ok 1) ∧
      (race.after raceTurns).store.kept "q" typed.fingerprint = none ∧
      (((race.after raceTurns).store.queue "q").processingOf ⟨1⟩).score? typed.fingerprint = none ∧
      (((race.after raceTurns).store.queue "q").pendingOf ⟨1⟩).isEmpty := by
  refine ⟨race_log, ?_⟩
  rw [Company.after_store, race_log]
  decide +kernel

end Engine

end TenantQueue
