import TenantQueue.Proofs.Foreman.Assigner
import TenantQueue.Proofs.Foreman.Places

/-! How many workers of a foreman are busy, and what is reported of it. A step of a worker changes that number
by its own task, and a report of it is made where it is right. What handlers report is their own. -/
namespace TenantQueue

def Notice.countsWorkers : Notice → Bool
  | .observed (.workers _ _ _) => true
  | _ => false

namespace Program
variable {α β σ : Type}

def Discreet : Program α → Prop
  | done _ => True
  | failed _ => True
  | crashed _ => True
  | call _ next => ∀ reply, (next reply).Discreet
  | serve _ next => ∀ reply, (next reply).Discreet
  | note notice rest => notice.countsWorkers = false ∧ rest.Discreet

theorem discreet_iff_notes (program : Program α) :
    program.Discreet ↔ program.Notes fun notice => notice.countsWorkers = false := by
  induction program with
  | done value => exact Iff.rfl
  | failed failure => exact Iff.rfl
  | crashed crash => exact Iff.rfl
  | call request after ih => exact forall_congr' ih
  | serve queue after ih =>
    exact ⟨fun discreet => ⟨fun _ => rfl, fun reply => (ih reply).mp (discreet reply)⟩,
      fun notes reply => (ih reply).mpr (notes.2 reply)⟩
  | note notice rest ih => exact and_congr_right fun _ => ih

theorem step_discreet (backend : Backend σ) (program : Program α) (state : σ)
    (discreet : program.Discreet) :
    (program.step backend state).1.Discreet ∧
      ∀ notice ∈ (program.step backend state).2.1, notice.countsWorkers = false := by
  obtain ⟨notes, given⟩ := program.step_notes backend state (program.discreet_iff_notes.mp discreet)
  exact ⟨(discreet_iff_notes _).mpr notes, given⟩

end Program

theorem Engine.releaseSlot_discreet (queue : String) (tenant : Tenant) :
    (Engine.releaseSlot queue tenant).Discreet :=
  (Program.discreet_iff_notes _).mpr (notes_releaseSlot (fun _ _ => rfl) queue tenant)

def WorkerPhase.Discreet : WorkerPhase → Prop
  | releasing _ _ program => program.Discreet
  | _ => True

def AssignerPhase.Discreet : AssignerPhase → Prop
  | popping _ program => program.Discreet
  | _ => True

namespace Foreman
variable {σ : Type} {foreman next : Foreman}

structure Discreet (foreman : Foreman) : Prop where
  workers : ∀ worker ∈ foreman.workers, worker.phase.Discreet
  assigner : foreman.assigner.Discreet

structure Serves (foreman next : Foreman) (index : Nat) (worker moved : Worker)
    (notices : List Notice) : Prop where
  workers : next.workers = foreman.workers.set index moved
  busy : next.counters.busy + worker.load = foreman.counters.busy + moved.load
  stays : foreman.isStopping = false → foreman.assigner.isOver = false →
    worker.phase.isStaying → moved.phase.isStaying
  discreet : moved.phase.Discreet
  reports : ∀ notice ∈ notices, notice.countsWorkers → notice ∈ next.occupancy

theorem execute_serves (foreman : Foreman) (index : Nat) (task : Task) (phase : WorkerPhase)
    (elapsed : Nat) (leaving : Bool) (looks : phase.isOpen)
    (stays : phase.isStaying → leaving = false) :
    ∃ moved, foreman.Serves (foreman.execute index task elapsed leaving).1 index ⟨some task, phase⟩ moved
      (foreman.execute index task elapsed leaving).2 := by
  have idle : (Worker.mk (some task) phase).load = 0 := by
    cases phase <;> first | contradiction | rfl
  cases handled : foreman.registry.get? task.taskType with
  | none =>
    refine ⟨⟨none, .releasing ⟨task, elapsed, leaving⟩ .unhandled
      (Engine.releaseSlot foreman.config.queue task.tenant)⟩, ?_⟩
    refine ⟨by simp only [execute, handled]; rfl, by rw [idle]; rfl, ?_,
      Engine.releaseSlot_discreet _ _, fun notice given _ => given⟩
    intro _ _ staying
    simp [WorkerPhase.isStaying, stays staying]
  | some handler =>
    refine ⟨⟨none, .handling ⟨task, elapsed, leaving⟩ (.ready (handler
      ⟨foreman.engine, foreman.config.queue, foreman.workerName index⟩ task))⟩, ?_⟩
    refine ⟨by simp only [execute, handled]; rfl, by rw [idle]; rfl, ?_, trivial,
      fun notice given _ => given⟩
    intro _ _ staying
    simp [WorkerPhase.isStaying, stays staying]

theorem account_reports (foreman : Foreman) (index : Nat) (execution : Execution) (result : TaskResult)
    (elapsed : Nat) :
    ∀ notice ∈ (foreman.account index execution result elapsed).2, notice.countsWorkers →
      notice ∈ (foreman.account index execution result elapsed).1.occupancy := by
  intro notice given counts
  simp only [account, List.mem_cons, List.mem_append] at given
  rcases given with rfl | (slow | observed) | occupancy
  · cases result <;> contradiction
  · unfold slowNotices at slow
    split at slow
    · rw [List.mem_singleton.mp slow] at counts
      contradiction
    · simp at slow
  · unfold resultObservations at observed
    split at observed
    · split at observed <;>
      · rw [List.mem_singleton.mp observed] at counts
        contradiction
    · simp at observed
  · exact occupancy

theorem account_busy (foreman : Foreman) (index : Nat) (execution : Execution) (result : TaskResult)
    (elapsed : Nat) :
    (foreman.account index execution result elapsed).1.counters.busy = foreman.counters.busy - 1 := by
  cases result <;> rfl

theorem releasing_serves (backend : Backend σ) (moment : Moment) (index : Nat) (slot : Option Task)
    (execution : Execution) (result : TaskResult) (program : Program Unit) (state : σ)
    (counted : 0 < foreman.counters.busy) (calm : ∀ crash, program.outcome? ≠ some (.crashed crash))
    (discreet : program.Discreet) :
    ∃ moved, foreman.Serves
      (foreman.advanceWorker backend moment index ⟨slot, .releasing execution result program⟩ state).1
      index ⟨slot, .releasing execution result program⟩ moved
      (foreman.advanceWorker backend moment index ⟨slot, .releasing execution result program⟩ state).2.1 := by
  -- The program is over, and its worker goes back to the line unless it has left it.
  have goesBack : ∃ moved, foreman.Serves
      ((foreman.setWorker index ⟨slot, if execution.leaving then .draining else .announcing⟩).account
        index execution result moment.elapsed).1
      index ⟨slot, .releasing execution result program⟩ moved
      ((foreman.setWorker index ⟨slot, if execution.leaving then .draining else .announcing⟩).account
        index execution result moment.elapsed).2 := by
    refine ⟨⟨slot, if execution.leaving then .draining else .announcing⟩, rfl, ?_, ?_, ?_,
      account_reports _ _ _ _ _⟩
    · rw [account_busy]
      change foreman.counters.busy - 1 + 1 = foreman.counters.busy + _
      have idle : (Worker.mk slot (if execution.leaving then .draining else .announcing)).load = 0 := by
        cases execution.leaving <;> rfl
      rw [idle]
      omega
    · intro _ _ staying
      have back : execution.leaving = false := by simpa [WorkerPhase.isStaying] using staying
      simp only [back, Bool.false_eq_true, if_false]
      rfl
    · cases execution.leaving <;> trivial
  cases ended : program.outcome? with
  | none =>
    obtain ⟨following, silent⟩ := program.step_discreet backend state discreet
    simp only [advanceWorker, ended]
    refine ⟨_, rfl, rfl, fun _ _ staying => staying, following, ?_⟩
    intro notice given counts
    rw [silent notice given] at counts
    contradiction
  | some outcome =>
    cases outcome with
    | crashed crash => exact absurd ended (calm crash)
    | ok value =>
      simp only [advanceWorker, ended]
      exact goesBack
    | failed failure =>
      simp only [advanceWorker, ended]
      exact goesBack

theorem Staffed.counted (staffed : foreman.Staffed) {index : Nat} {worker : Worker}
    (found : foreman.workers[index]? = some worker) (works : worker.phase.isExecuting) :
    0 < foreman.counters.busy := by
  rw [staffed.busy]
  exact List.countP_pos_iff.mpr ⟨worker, List.mem_of_getElem? found, works⟩

theorem advanceWorker_serves (backend : Backend σ) (moment : Moment) {index : Nat} {worker : Worker}
    (state : σ) (orderly : foreman.Orderly) (staffed : foreman.Staffed) (discreet : foreman.Discreet)
    (found : foreman.workers[index]? = some worker) (free : foreman.workerCanAdvance worker) :
    ∃ moved, foreman.Serves (foreman.advanceWorker backend moment index worker state).1 index worker
      moved (foreman.advanceWorker backend moment index worker state).2.1 := by
  have logged {after : Foreman} (severity : Severity) (text : String) :
      ∀ notice ∈ [Notice.log severity text], notice.countsWorkers → notice ∈ after.occupancy := by
    intro notice given counts
    rw [List.mem_singleton.mp given] at counts
    contradiction
  obtain ⟨slot, phase⟩ := worker
  cases phase with
  | starting => exact ⟨_, rfl, rfl, fun _ _ _ => rfl, trivial, logged _ _⟩
  | announcing =>
    cases closed : foreman.assigner.isOver with
    | true =>
      simp only [advanceWorker, closed, if_true]
      refine ⟨_, rfl, rfl, ?_, trivial, List.forall_mem_nil _⟩
      intro _ on
      rw [closed] at on
      contradiction
    | false =>
      have room : foreman.idle.length < foreman.config.poolSize := by
        simpa [workerCanAdvance, closed] using free
      simp only [advanceWorker, closed, room, if_true, Bool.false_eq_true, if_false]
      exact ⟨_, rfl, rfl, fun _ _ _ => rfl, trivial, List.forall_mem_nil _⟩
  | waiting =>
    cases slot with
    | some task => exact foreman.execute_serves index task .waiting moment.elapsed false rfl fun _ => rfl
    | none =>
      have leaving : (foreman.assigner.isOver || foreman.isStopping) = true := by
        simpa [workerCanAdvance] using free
      simp only [advanceWorker, leaving, if_true]
      refine ⟨_, rfl, rfl, ?_, trivial, List.forall_mem_nil _⟩
      intro going on
      rw [going, on] at leaving
      contradiction
  | draining =>
    cases slot with
    | some task =>
      exact foreman.execute_serves index task .draining moment.elapsed true rfl fun staying => by
        contradiction
    | none =>
      have closed : foreman.assigner.isOver = true := by
        simpa [workerCanAdvance] using free
      simp only [advanceWorker, closed, if_true]
      exact ⟨_, rfl, rfl, fun _ _ staying => by contradiction, trivial, logged _ _⟩
  | handling execution progress =>
    obtain ⟨ending, met⟩ := Option.isSome_iff_exists.mp (show progress.ending?.isSome from free)
    simp only [advanceWorker, met]
    exact ⟨_, rfl, rfl, fun _ _ staying => staying, Engine.releaseSlot_discreet _ _,
      List.forall_mem_nil _⟩
  | releasing execution result program =>
    have calm : ∀ crash, program.outcome? ≠ some (.crashed crash) := by
      rcases orderly.regular index slot _ found with rfl | ⟨_, calm⟩
      · obtain ⟨following, gives, _⟩ :=
          Engine.releaseSlot_eq foreman.config.queue execution.task.tenant
        simp [gives, Program.outcome?]
      · exact calm.not_crashed
    exact releasing_serves backend moment index slot execution result program state
      (staffed.counted found rfl) calm (discreet.workers _ (List.mem_of_getElem? found))
  | ended => simp [workerCanAdvance] at free
  | lost crash => simp [workerCanAdvance] at free

structure Directs (foreman next : Foreman) (notices : List Notice) : Prop where
  counters : next.counters = foreman.counters
  discreet : next.assigner.Discreet
  silent : ∀ notice ∈ notices, notice.countsWorkers = false

theorem advanceAssigner_directs (backend : Backend σ) (moment : Moment) (state : σ)
    (orderly : foreman.Orderly) (discreet : foreman.assigner.Discreet) :
    foreman.Directs (foreman.advanceAssigner backend moment state).1
      (foreman.advanceAssigner backend moment state).2.1 := by
  have notes : foreman.assigner.Notes fun notice => notice.countsWorkers = false := by
    have assigns := orderly.assigns
    cases phase : foreman.assigner with
    | popping index program =>
      rw [phase] at discreet
      exact program.discreet_iff_notes.mp discreet
    | handingBack program =>
      rw [phase] at assigns
      exact assigns.elim
    | _ => trivial
  have turn := advanceAssigner_turn (fun _ _ => rfl) backend moment foreman state notes
  refine ⟨turn.counters, ?_, turn.notices⟩
  have following := turn.following
  cases phase : (foreman.advanceAssigner backend moment state).1.assigner with
  | popping index program =>
    rw [phase] at following
    exact program.discreet_iff_notes.mpr following
  | _ => trivial

theorem occupancy_pool (orderly : foreman.Orderly) (staffed : foreman.Staffed) {queue : String}
    {idle busy : Nat} (given : .observed (.workers queue idle busy) ∈ foreman.occupancy) :
    queue = foreman.config.queue ∧ idle + busy = foreman.config.poolSize := by
  have fewer := executing_le orderly
  rw [← staffed.busy] at fewer
  unfold occupancy at given
  split at given
  · simp only [List.mem_singleton, Notice.observed.injEq, Observation.workers.injEq] at given
    obtain ⟨rfl, rfl, rfl⟩ := given
    exact ⟨rfl, Nat.sub_add_cancel fewer⟩
  · simp at given

end Foreman
end TenantQueue
