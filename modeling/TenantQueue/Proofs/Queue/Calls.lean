import TenantQueue.Proofs.Queue.Sound

/-! A call changes one queue of a store in memory and leaves the others as they are. What it makes
of that queue is told without the store, and it keeps the queue sound. -/
namespace TenantQueue

def Call.queue : Call → String
  | push queue _ _ _ => queue
  | pop queue => queue
  | size queue => queue
  | release queue _ => queue
  | activeTenants queue => queue
  | addProcessing queue _ _ _ => queue
  | removeProcessing queue _ _ => queue
  | expiredProcessing queue _ _ => queue
  | setPayload queue _ _ => queue
  | getPayload queue _ => queue
  | deletePayload queue _ => queue

namespace QueueState

def after (state : QueueState) : Call → QueueState
  | .push _ tenant record score => state.push tenant record score
  | .pop _ =>
    match state.pop with
    | .ok (_, next) => next
    | .error _ => state
  | .release _ tenant => state.release tenant
  | .addProcessing _ tenant fingerprint deadline =>
    (state.addProcessing tenant fingerprint deadline).2
  | .removeProcessing _ tenant fingerprint => state.removeProcessing tenant fingerprint
  | .setPayload _ fingerprint record =>
    { state with payloads := state.payloads.set fingerprint record }
  | .deletePayload _ fingerprint =>
    { state with payloads := state.payloads.erase fingerprint }
  | .size _ => state
  | .activeTenants _ => state
  | .expiredProcessing _ _ _ => state
  | .getPayload _ _ => state

theorem pop_empty {state next : QueueState} (popped : state.pop = .ok (.empty, next)) :
    next = state := by
  unfold pop at popped
  split at popped
  · simp only [Except.ok.injEq, Prod.mk.injEq, true_and] at popped
    exact popped.symm
  · rename_i member others first
    cases known : registered member with
    | error failure => simp [known, bind, Except.bind] at popped
    | ok tenant =>
      simp only [known, bind, Except.bind, pure, Except.pure, Except.ok.injEq, popFrom] at popped
      split at popped <;> simp at popped

theorem Sound.of_processing {state next : QueueState} (sound : state.Sound)
    (pending : next.pending = state.pending) (registry : next.registry = state.registry)
    (processingInStep : ∀ tenant, (next.processingOf tenant).InStep) : next.Sound := by
  have pendingOf (tenant : Tenant) : next.pendingOf tenant = state.pendingOf tenant := by
    rw [QueueState.pendingOf, QueueState.pendingOf, pending]
  have inFlight (tenant : Tenant) : next.inFlight tenant = state.inFlight tenant := by
    rw [QueueState.inFlight, QueueState.inFlight, registry]
  exact {
    pendingInStep := by
      intro tenant
      rw [pendingOf tenant]
      exact sound.pendingInStep tenant
    processingInStep := processingInStep
    registryInStep := registry ▸ sound.registryInStep
    named := registry ▸ sound.named
    counted := by
      intro tenant count found
      rw [inFlight tenant] at found
      exact sound.counted tenant count found
    registered := by
      intro tenant waits
      rw [inFlight tenant]
      apply sound.registered tenant
      simpa only [Waits, pendingOf tenant] using waits }

theorem processingOf_addProcessing (state : QueueState) (tenant other : Tenant)
    (fingerprint : Fingerprint) (deadline : Double) :
    (state.addProcessing tenant fingerprint deadline).2.processingOf other =
      if tenant = other then
        ((state.processingOf tenant).insertIfNew fingerprint deadline).2
      else state.processingOf other := by
  by_cases same : tenant = other <;> simp [addProcessing, processingOf, same]

theorem score?_addProcessing (state : QueueState) (tenant other : Tenant)
    (fingerprint name : Fingerprint) (deadline : Double) :
    ((state.addProcessing tenant fingerprint deadline).2.processingOf other).score? name =
      if tenant = other ∧ fingerprint = name then
        some (((state.processingOf other).score? name).getD deadline)
      else (state.processingOf other).score? name := by
  rw [processingOf_addProcessing]
  by_cases sameTenant : tenant = other
  · subst sameTenant
    rw [if_pos rfl, ScoredSet.score?_insertIfNew]
    by_cases sameEntry : fingerprint = name
    · simp [sameEntry]
    · simp [sameEntry]
  · simp [sameTenant]

theorem addProcessing_sound (state : QueueState) (tenant : Tenant) (fingerprint : Fingerprint)
    (deadline : Double) (sound : state.Sound) :
    (state.addProcessing tenant fingerprint deadline).2.Sound := by
  refine sound.of_processing rfl rfl ?_
  intro other
  rw [processingOf_addProcessing]
  split
  · exact ScoredSet.insertIfNew_inStep _ _ _ (sound.processingInStep tenant)
  · exact sound.processingInStep other

theorem processingOf_removeProcessing (state : QueueState) (tenant other : Tenant)
    (fingerprint : Fingerprint) (sound : state.Sound) :
    (state.removeProcessing tenant fingerprint).processingOf other =
      if tenant = other then (state.processingOf tenant).erase fingerprint
      else state.processingOf other :=
  get?_keepNonempty state.processing tenant other _
    (ScoredSet.erase_inStep _ fingerprint (sound.processingInStep tenant))

theorem removeProcessing_sound (state : QueueState) (tenant : Tenant) (fingerprint : Fingerprint)
    (sound : state.Sound) : (state.removeProcessing tenant fingerprint).Sound := by
  refine sound.of_processing rfl rfl ?_
  intro other
  rw [processingOf_removeProcessing state tenant other fingerprint sound]
  split
  · exact ScoredSet.erase_inStep _ fingerprint (sound.processingInStep tenant)
  · exact sound.processingInStep other

theorem after_sound (state : QueueState) (call : Call) (sound : state.Sound) :
    (state.after call).Sound := by
  cases call with
  | push queue tenant record score => exact push_sound state tenant record score sound
  | pop queue =>
    unfold after
    rcases pop_cases state sound with ⟨popped, _⟩ | ⟨tenant, count, _, served | dismissed⟩
    · rw [popped]
      exact sound
    · obtain ⟨record, score, _, popped⟩ := served
      rw [popped]
      exact serve_sound state tenant record sound
    · rw [dismissed.2]
      exact dismiss_sound state tenant sound dismissed.1
  | release queue tenant => exact release_sound state tenant sound
  | addProcessing queue tenant fingerprint deadline =>
    exact addProcessing_sound state tenant fingerprint deadline sound
  | removeProcessing queue tenant fingerprint =>
    exact removeProcessing_sound state tenant fingerprint sound
  | setPayload queue fingerprint record =>
    exact sound.of_processing rfl rfl sound.processingInStep
  | deletePayload queue fingerprint => exact sound.of_processing rfl rfl sound.processingInStep
  | size queue => exact sound
  | activeTenants queue => exact sound
  | expiredProcessing queue tenant now => exact sound
  | getPayload queue fingerprint => exact sound

end QueueState

namespace MemoryStore

def Sound (store : MemoryStore) : Prop := ∀ name, (store.queue name).Sound

@[simp] theorem queue_empty (name : String) : empty.queue name = QueueState.empty := rfl

theorem queue_setQueue_eq (store : MemoryStore) (name other : String) (state : QueueState) :
    (store.setQueue name state).queue other = if name = other then state else store.queue other := by
  by_cases same : name = other <;> simp [queue, setQueue, same]

theorem queue_updatePresent (store : MemoryStore) (name other : String)
    (change : QueueState → QueueState) (unused : change QueueState.empty = QueueState.empty) :
    (store.updatePresent name change).queue other =
      if name = other then change (store.queue name) else store.queue other := by
  unfold updatePresent
  cases present : store.queues.get? name with
  | none =>
    by_cases same : name = other
    · subst same
      simp [queue, present, unused]
    · simp [same]
  | some state =>
    rw [queue_setQueue_eq]
    simp [queue, present]

private theorem queue_same (store : MemoryStore) (name other : String) :
    store.queue other = if name = other then store.queue name else store.queue other := by
  split
  · rename_i same
    rw [same]
  · rfl

/-- A call changes no other queue than the one it is about. -/
theorem queue_perform (store : MemoryStore) (call : Call) (name : String) :
    (store.perform call).2.queue name =
      if call.queue = name then (store.queue call.queue).after call else store.queue name := by
  cases call with
  | pop queue =>
    simp only [perform, QueueState.after, Call.queue]
    split
    · rename_i state popped
      rw [popped]
      simp only [QueueState.pop_empty popped]
      exact queue_same store queue name
    · rename_i outcome state _ popped
      rw [popped]
      exact queue_setQueue_eq store queue name state
    · rename_i failure failed
      rw [failed]
      exact queue_same store queue name
  | removeProcessing queue tenant fingerprint =>
    exact queue_updatePresent store queue name _ rfl
  | deletePayload queue fingerprint => exact queue_updatePresent store queue name _ rfl
  | push queue tenant record score => exact queue_setQueue_eq store queue name _
  | release queue tenant => exact queue_setQueue_eq store queue name _
  | addProcessing queue tenant fingerprint deadline => exact queue_setQueue_eq store queue name _
  | setPayload queue fingerprint record => exact queue_setQueue_eq store queue name _
  | size queue => exact queue_same store queue name
  | activeTenants queue => exact queue_same store queue name
  | expiredProcessing queue tenant now => exact queue_same store queue name
  | getPayload queue fingerprint => exact queue_same store queue name

theorem perform_sound (store : MemoryStore) (call : Call) (sound : store.Sound) :
    (store.perform call).2.Sound := by
  intro name
  rw [queue_perform]
  split
  · exact QueueState.after_sound _ call (sound call.queue)
  · exact sound name

theorem perform_pop_cases (store : MemoryStore) (queue : String) (sound : store.Sound) :
    (store.perform (.pop queue) = (.ok .empty, store) ∧
      ∀ tenant, (store.queue queue).inFlight tenant = none) ∨
    ∃ tenant count, (store.queue queue).registry.IsFirst count tenant.name ∧
      ((∃ record score, ((store.queue queue).pendingOf tenant).IsFirst score record ∧
          store.perform (.pop queue) = (.ok (.popped tenant record),
            store.setQueue queue ((store.queue queue).serve tenant record))) ∨
        (¬(store.queue queue).Waits tenant ∧
          store.perform (.pop queue) = (.ok (.drained tenant),
            store.setQueue queue ((store.queue queue).dismiss tenant)))) := by
  rcases QueueState.pop_cases (store.queue queue) (sound queue) with
    ⟨popped, nobody⟩ | ⟨tenant, count, first, served | dismissed⟩
  · left
    simp only [perform, popped]
    exact ⟨trivial, nobody⟩
  · right
    obtain ⟨record, score, lowest, popped⟩ := served
    refine ⟨tenant, count, first, Or.inl ⟨record, score, lowest, ?_⟩⟩
    simp only [perform, popped]
  · right
    obtain ⟨drained, popped⟩ := dismissed
    refine ⟨tenant, count, first, Or.inr ⟨drained, ?_⟩⟩
    simp only [perform, popped]

def performAll (store : MemoryStore) : List Call → MemoryStore
  | [] => store
  | call :: rest => (store.perform call).2.performAll rest

def after (calls : List Call) : MemoryStore := empty.performAll calls

theorem performAll_append (store : MemoryStore) (first second : List Call) :
    store.performAll (first ++ second) = (store.performAll first).performAll second := by
  induction first generalizing store with
  | nil => rfl
  | cons call rest ih => exact ih _

theorem queue_performAll (store : MemoryStore) (queue : String) (calls : List Call)
    (about : ∀ call ∈ calls, call.queue = queue) :
    (store.performAll calls).queue queue = calls.foldl QueueState.after (store.queue queue) := by
  induction calls generalizing store with
  | nil => rfl
  | cons call rest ih =>
    obtain ⟨here, later⟩ := List.forall_mem_cons.mp about
    rw [performAll, ih _ later, queue_perform, if_pos here, here, List.foldl_cons]

theorem performAll_sound (store : MemoryStore) (calls : List Call) (sound : store.Sound) :
    (store.performAll calls).Sound := by
  induction calls generalizing store with
  | nil => exact sound
  | cons call rest ih => exact ih _ (perform_sound store call sound)

theorem after_sound (calls : List Call) : (after calls).Sound :=
  performAll_sound empty calls fun _ => QueueState.empty_sound

end MemoryStore
end TenantQueue
