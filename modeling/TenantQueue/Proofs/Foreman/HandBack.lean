import TenantQueue.Foreman.Assign
import TenantQueue.Proofs.Engine.Redelivery
import TenantQueue.Proofs.Engine.Sweep

/-! What becomes of a task that the assigner has popped. Either it gets into the slot of the worker for whom it
was popped, or it is pending again for its tenant, whose count of tasks in flight it leaves. -/
namespace TenantQueue

/-- A task is pending again under the score of the time at which it was queued, and is not in flight any more.
Nothing else has changed. -/
structure MemoryStore.TakesBack (store last : MemoryStore) (queue : String) (task : Task) : Prop where
  pending : ((last.queue queue).pendingOf task.tenant).score? task.encode =
    some (score task.queuedOn .normal)
  records : ∀ record ≠ task.encode, ((last.queue queue).pendingOf task.tenant).score? record =
    ((store.queue queue).pendingOf task.tenant).score? record
  registered : (last.queue queue).inFlight task.tenant =
    some (max (((store.queue queue).inFlight task.tenant).getD 0 - 1) 0)
  tenants : ∀ tenant ≠ task.tenant,
    (last.queue queue).pendingOf tenant = (store.queue queue).pendingOf tenant ∧
      (last.queue queue).inFlight tenant = (store.queue queue).inFlight tenant
  entries : (last.queue queue).processing = (store.queue queue).processing ∧
    (last.queue queue).payloads = (store.queue queue).payloads
  queues : ∀ name ≠ queue, last.queue name = store.queue name
  sound : store.Sound → last.Sound

theorem MemoryStore.Becomes.takesBack {store last : MemoryStore} {queue : String} {task : Task}
    (becomes : store.Becomes last queue (((store.queue queue).push task.tenant task.encode
      (score task.queuedOn .normal)).release task.tenant)) : store.TakesBack last queue task := by
  have now := becomes.queue
  refine ⟨?pending, ?records, ?registered, ?tenants, ?entries, ?queues, ?sound⟩
  case pending =>
    rw [now, QueueState.pendingOf_release, QueueState.pendingOf_push, if_pos rfl, ScoredSet.score?_insert,
      if_pos rfl]
  case records =>
    intro record differ
    rw [now, QueueState.pendingOf_release, QueueState.pendingOf_push, if_pos rfl, ScoredSet.score?_insert,
      if_neg differ.symm]
  case registered =>
    rw [now, QueueState.inFlight_release, if_pos rfl, QueueState.inFlight_push, if_pos rfl, Option.getD_some]
  case tenants =>
    intro tenant differ
    rw [now, QueueState.pendingOf_release, QueueState.pendingOf_push, if_neg differ.symm,
      QueueState.inFlight_release, if_neg differ.symm, QueueState.inFlight_push, if_neg differ.symm]
    exact ⟨rfl, rfl⟩
  case entries =>
    rw [now]
    exact ⟨rfl, rfl⟩
  case queues =>
    intro name differ
    rw [becomes name, if_neg differ.symm]
  case sound =>
    intro sound
    exact becomes.sound sound (QueueState.release_sound _ _ (QueueState.push_sound _ _ _ _ (sound queue)))

theorem Engine.check_of_entered {engine : Engine} {queue : String} {tenant : Tenant} {task : Task}
    {time : Instant} {priority : Priority} {before after : MemoryStore}
    (entered : (engine.enqueueAt queue tenant task time priority).Ends MemoryStore.backend before (.ok ())
      after) : engine.check queue task = .ok () := by
  cases checked : engine.check queue task with
  | ok accepted => rfl
  | error failure =>
    obtain ⟨_, ran⟩ := entered
    obtain ⟨_, refused⟩ :=
      ends_enqueueAt_refused engine before queue tenant task time priority failure checked
    rw [ran] at refused
    cases refused

namespace Foreman
variable {σ : Type}

def assignerTurns (backend : Backend σ) : List Moment → Foreman × σ → Foreman × σ
  | [], now => now
  | moment :: rest, (foreman, state) =>
    assignerTurns backend rest ((foreman.advanceAssigner backend moment state).1,
      (foreman.advanceAssigner backend moment state).2.2)

/-- A program that hands a task back takes its steps, and after its end the assigner listens again. -/
theorem handingBack_turns (backend : Backend σ) (foreman : Foreman) {count : Nat} {program : Program Unit}
    {state last : σ} (ends : Program.EndsAfter backend count program state (.ok ()) last)
    (moments : List Moment) :
    (moments.length ≤ count → (assignerTurns backend moments
        ({ foreman with assigner := .handingBack program }, state)).1.assigner ≠ .listening) ∧
      (moments.length = count + 1 → assignerTurns backend moments
        ({ foreman with assigner := .handingBack program }, state) =
          ({ foreman with assigner := .listening }, last)) := by
  induction count generalizing program state moments with
  | zero =>
    obtain ⟨-, ended, rfl⟩ := ends
    cases moments with
    | nil => exact ⟨fun _ => nofun, nofun⟩
    | cons moment rest =>
      refine ⟨nofun, ?_⟩
      intro once
      obtain rfl := List.eq_nil_of_length_eq_zero (Nat.succ.inj once)
      have finished : program.outcome? = some (.ok ()) := ended
      simp only [assignerTurns, advanceAssigner, finished]
      rfl
  | succ count ih =>
    have begun : program.outcome? = none := ends.unended 0 (Nat.succ_pos count)
    have rest : Program.EndsAfter backend count (program.step backend state).1
        (program.step backend state).2.2 (.ok ()) last :=
      ⟨fun fewer less => ends.unended (fewer + 1) (Nat.succ_lt_succ less), ends.ended, ends.last⟩
    cases moments with
    | nil => exact ⟨fun _ => nofun, nofun⟩
    | cons moment others =>
      obtain ⟨busy, done⟩ := ih rest others
      simp only [assignerTurns, advanceAssigner, begun]
      exact ⟨fun short => busy (Nat.le_of_succ_le_succ short), fun long => done (Nat.succ.inj long)⟩

theorem ends_handBack (foreman : Foreman) (store : MemoryStore) (task : Task)
    (accepted : foreman.engine.check foreman.config.queue task = .ok ()) :
    ∃ last, (foreman.handBack task).Ends MemoryStore.backend store (.ok ()) last ∧
      store.TakesBack last foreman.config.queue task := by
  obtain ⟨middle, enters, entered⟩ := Engine.ends_enqueueAt foreman.engine store foreman.config.queue
    task.tenant task task.queuedOn .normal accepted
  have released := middle.becomes_perform (.release foreman.config.queue task.tenant)
  simp only [Call.queue, entered.queue] at released
  have gives : (Engine.releaseSlot foreman.config.queue task.tenant).Ends MemoryStore.backend middle
      (.ok ()) (middle.perform (.release foreman.config.queue task.tenant)).2 := ⟨[], rfl⟩
  exact ⟨_, enters.attempt.bind_ok ((Program.ends_done ()).bind_ok gives),
    (entered.trans released).takesBack⟩

/-- What has become of a foreman and a store when the assigner is done with a task that it had in its hand for
a worker. -/
inductive Assigned (foreman : Foreman) (store : MemoryStore) (index : Nat) (task : Task) :
    Foreman × MemoryStore → Prop
  | given (phase : WorkerPhase) (vacant : foreman.workers[index]? = some ⟨none, phase⟩)
    (goesOn : phase.isOver = false) :
    Assigned foreman store index task
      ({ foreman with assigner := .listening, workers := foreman.workers.set index ⟨some task, phase⟩ }, store)
  | handedBack (last : MemoryStore)
    (closed : foreman.slotState index = .closed ∨ foreman.slotState index = .unknown)
    (takesBack : store.TakesBack last foreman.config.queue task) :
    Assigned foreman store index task ({ foreman with assigner := .listening }, last)

theorem assign_vacant {foreman : Foreman} {index : Nat} (task : Task)
    (vacant : foreman.slotState index = .vacant) :
    ∃ phase, foreman.workers[index]? = some ⟨none, phase⟩ ∧ phase.isOver = false ∧
      (foreman.assign index task).1 =
        { foreman with assigner := .listening, workers := foreman.workers.set index ⟨some task, phase⟩ } := by
  cases found : foreman.workers[index]? with
  | none => simp [slotState, found] at vacant
  | some worker =>
    obtain ⟨slot, phase⟩ := worker
    simp only [slotState, found] at vacant
    split at vacant
    · contradiction
    · rename_i goesOn
      split at vacant
      · contradiction
      · rename_i empty
        obtain rfl : slot = none := by simpa using empty
        refine ⟨phase, rfl, by simpa using goesOn, ?_⟩
        have free : foreman.slotState index = .vacant := by simp [slotState, found, goesOn]
        simp only [assign, free, List.modify_eq_set_getElem?, found]
        rfl

theorem assign_gone {foreman : Foreman} {index : Nat} (task : Task)
    (closed : foreman.slotState index = .closed ∨ foreman.slotState index = .unknown) :
    (foreman.assign index task).1 = { foreman with assigner := .handingBack (foreman.handBack task) } := by
  rcases closed with closed | unknown
  · simp only [assign, closed]
  · simp only [assign, unknown]

/-- A task that was entered under its own tenant is not lost in the assigner's hand: after some turns, and not
earlier, the assigner listens again, and the task is in the slot of its worker or pending again. -/
theorem assign_keeps_task (foreman : Foreman) (index : Nat) (task : Task) (store : MemoryStore)
    (held : foreman.assigner = .assigning index task) (ready : foreman.slotState index ≠ .taken)
    (time : Instant) (priority : Priority) (before after : MemoryStore)
    (entered : (foreman.engine.enqueueAt foreman.config.queue task.tenant task time priority).Ends
      MemoryStore.backend before (.ok ()) after) :
    ∃ turns, ∀ moments : List Moment,
      (moments.length < turns →
        (assignerTurns MemoryStore.backend moments (foreman, store)).1.assigner ≠ .listening) ∧
      (moments.length = turns → foreman.Assigned store index task
        (assignerTurns MemoryStore.backend moments (foreman, store))) := by
  have accepted := Engine.check_of_entered entered
  have first (moment : Moment) (rest : List Moment) :
      assignerTurns MemoryStore.backend (moment :: rest) (foreman, store) =
        assignerTurns MemoryStore.backend rest ((foreman.assign index task).1, store) := by
    simp only [assignerTurns, advanceAssigner, held]
  have begun : (assignerTurns MemoryStore.backend [] (foreman, store)).1.assigner ≠ .listening := by
    simp [assignerTurns, held]
  have handsBack (closed : foreman.slotState index = .closed ∨ foreman.slotState index = .unknown) :
      ∃ turns, ∀ moments : List Moment,
        (moments.length < turns →
          (assignerTurns MemoryStore.backend moments (foreman, store)).1.assigner ≠ .listening) ∧
        (moments.length = turns → foreman.Assigned store index task
          (assignerTurns MemoryStore.backend moments (foreman, store))) := by
    obtain ⟨last, ⟨notices, ran⟩, takesBack⟩ := foreman.ends_handBack store task accepted
    obtain ⟨count, ends⟩ := Program.exists_endsAfter MemoryStore.backend (foreman.handBack task) store
    rw [ran] at ends
    refine ⟨count + 2, fun moments => ?_⟩
    cases moments with
    | nil => exact ⟨fun _ => begun, nofun⟩
    | cons moment rest =>
      obtain ⟨busy, done⟩ := handingBack_turns MemoryStore.backend foreman ends rest
      rw [first, assign_gone task closed]
      refine ⟨fun short => busy (Nat.le_of_lt_succ (Nat.lt_of_succ_lt_succ short)), ?_⟩
      intro long
      rw [done (Nat.succ.inj long)]
      exact .handedBack last closed takesBack
  cases slot : foreman.slotState index with
  | taken => exact absurd slot ready
  | closed => exact handsBack (Or.inl slot)
  | unknown => exact handsBack (Or.inr slot)
  | vacant =>
    obtain ⟨phase, found, goesOn, gives⟩ := assign_vacant task slot
    refine ⟨1, fun moments => ?_⟩
    cases moments with
    | nil => exact ⟨fun _ => begun, nofun⟩
    | cons moment rest =>
      refine ⟨fun short => absurd short (by simp), ?_⟩
      intro once
      obtain rfl := List.eq_nil_of_length_eq_zero (Nat.succ.inj once)
      rw [first, gives]
      exact .given phase found goesOn

def parcel : Task := ⟨"parcel", ⟨1⟩, [0x61], ⟨1700000000, 0⟩, 0⟩

def deserted : Foreman :=
  ⟨⟨"q", 1, Duration.ofSeconds 1, Duration.ofSeconds 1⟩, Engine.standard, Registry.empty, false, .started,
    .zero, [⟨none, .ended⟩], [], .assigning 0 parcel⟩

/-- Its tenant has left the registry as well. -/
theorem assign_keeps_task_deserted :
    deserted.assigner = .assigning 0 parcel ∧ deserted.slotState 0 = .closed ∧
      (deserted.engine.enqueueAt deserted.config.queue parcel.tenant parcel parcel.queuedOn .high).Ends
        MemoryStore.backend .empty (.ok ()) (MemoryStore.empty.perform
          (.push "q" ⟨1⟩ parcel.encode (score parcel.queuedOn .high))).2 ∧
      (MemoryStore.empty.queue "q").inFlight ⟨1⟩ = none ∧
      ∃ turns, ∀ moments : List Moment,
        (moments.length < turns →
          (assignerTurns MemoryStore.backend moments (deserted, .empty)).1.assigner ≠ .listening) ∧
        (moments.length = turns → deserted.Assigned .empty 0 parcel
          (assignerTurns MemoryStore.backend moments (deserted, .empty))) := by
  have entered : (deserted.engine.enqueueAt deserted.config.queue parcel.tenant parcel parcel.queuedOn
      .high).Ends MemoryStore.backend .empty (.ok ()) (MemoryStore.empty.perform
        (.push "q" ⟨1⟩ parcel.encode (score parcel.queuedOn .high))).2 := ⟨_, rfl⟩
  exact ⟨rfl, rfl, entered, rfl, assign_keeps_task deserted 0 parcel .empty rfl (by decide)
    parcel.queuedOn .high _ _ entered⟩

end Foreman
end TenantQueue
