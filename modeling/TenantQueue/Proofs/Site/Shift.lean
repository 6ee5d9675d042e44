import TenantQueue.Proofs.Site.Course
import TenantQueue.Proofs.Foreman.Staff
import Mathlib.Algebra.BigOperators.Group.Finset.Piecewise
import Mathlib.Algebra.Order.BigOperators.Group.Finset

/-! A foreman on a store of any kind, which others use too and which may refuse any call. Whatever happens,
no worker of its pool is lost or given two tasks, and so no more tasks are under way than there are workers. -/
namespace TenantQueue

namespace Milestone

def count (kind : Kind) (milestones : List Milestone) : Nat :=
  milestones.countP fun milestone => milestone.kind = kind

/-- Every milestone is done for a worker of the pool. -/
theorem count_eq_sum (kind : Kind) (pool : Nat) (milestones : List Milestone)
    (inside : ∀ milestone ∈ milestones, milestone.worker < pool) :
    count kind milestones = ∑ worker ∈ Finset.range pool, (tasks kind worker milestones).length := by
  induction milestones with
  | nil => simp [count]
  | cons milestone rest ih =>
    have own : milestone.worker < pool := inside milestone (List.mem_cons_self ..)
    have split (worker : Nat) : (tasks kind worker (milestone :: rest)).length =
        (if milestone.worker = worker then if milestone.kind = kind then 1 else 0 else 0) +
          (tasks kind worker rest).length := by
      rw [← List.singleton_append, tasks_append, tasks_singleton, List.length_append]
      by_cases same : milestone.kind = kind <;> by_cases here : milestone.worker = worker <;>
        simp [same, here]
    rw [Finset.sum_congr rfl fun worker _ => split worker, Finset.sum_add_distrib, Finset.sum_ite_eq,
      if_pos (Finset.mem_range.mpr own),
      ← ih fun milestone member => inside milestone (List.mem_cons_of_mem _ member)]
    rw [count, List.countP_cons, Nat.add_comm]
    simp only [decide_eq_true_eq, count]

end Milestone

inductive Shift.Event (σ : Type) where
  | start
  | turn (moment : Moment) (member : Foreman.Member)
  | outside (change : σ → σ)
  | stop
  | finish

/-- A foreman and its store, with what has been done to tasks, how many of their slots the store has taken
back and how many it has refused to, and what the foreman and its workers have reported. -/
structure Shift (σ : Type) where
  foreman : Foreman
  store : σ
  record : List Milestone
  released : Nat
  refused : Nat
  notices : List Notice

namespace Shift
variable {σ : Type}

def begin (foreman : Foreman) (store : σ) : Shift σ := ⟨foreman, store, [], 0, 0, []⟩

def takesBack (backend : Backend σ) (queue : String) (store : σ) (task : Task) : Bool :=
  match (backend.perform (.release queue task.tenant) store).1 with
  | .ok _ => true
  | _ => false

/-- What is reported in a turn, without what a handler reports. -/
def ownReport (notices : List Notice) : Foreman.Member → List Notice
  | .handler _ => []
  | _ => notices

def step (backend : Backend σ) (shift : Shift σ) : Event σ → Shift σ
  | .start =>
    match shift.foreman.start with
    | .ok (foreman, notices) => { shift with foreman, notices := shift.notices ++ notices }
    | .error _ => shift
  | .turn moment member =>
    let (foreman, notices, store) := shift.foreman.advance backend moment member shift.store
    let milestones := shift.foreman.milestones backend moment member shift.store
    let takes (milestone : Milestone) : Bool :=
      takesBack backend shift.foreman.config.queue shift.store milestone.task
    { foreman
      store
      record := shift.record ++ milestones
      released := shift.released + Milestone.count .completed (milestones.filter takes)
      refused := shift.refused +
        Milestone.count .completed (milestones.filter fun milestone => !takes milestone)
      notices := shift.notices ++ ownReport notices member }
  | .outside change => { shift with store := change shift.store }
  | .stop =>
    let (foreman, notices) := shift.foreman.requestStop
    { shift with foreman, notices := shift.notices ++ notices }
  | .finish =>
    if shift.foreman.isOver then
      let (foreman, notices) := shift.foreman.completeStop
      { shift with foreman, notices := shift.notices ++ notices }
    else shift

def after (backend : Backend σ) (shift : Shift σ) (events : List (Event σ)) : Shift σ :=
  events.foldl (step backend) shift

structure Conserved (pool : Nat) (shift : Shift σ) : Prop where
  apart : ∀ index first second, shift.foreman.Stands index first →
    shift.foreman.Stands index second → first = second
  present : shift.foreman.lifecycle = .started → ∀ index < pool,
    ∃! place, shift.foreman.Stands index place
  line : shift.foreman.idle.Nodup ∧ shift.foreman.idle.length ≤ pool
  /-- A worker for whom there is no task finds room in the line. -/
  returns : ∀ index elapsed, shift.foreman.Stands index .hand →
    (shift.foreman.returnIdle index elapsed).1.idle = shift.foreman.idle ++ [index] ∧
      (shift.foreman.returnIdle index elapsed).2 = []
  vacant : shift.foreman.assigner.isOver = false → ∀ index,
    shift.foreman.Stands index .line ∨ shift.foreman.Stands index .hand →
      shift.foreman.slotState index = .vacant
  underWay : Milestone.count .popped shift.record ≤ shift.released + shift.refused + pool
  busy : shift.foreman.counters.busy = shift.foreman.executing ∧ shift.foreman.counters.busy ≤ pool
  stats : shift.foreman.isRunning →
    shift.foreman.stats.idle + shift.foreman.stats.counters.busy = pool
  reported : ∀ queue idle busy, .observed (.workers queue idle busy) ∈ shift.notices → idle + busy = pool

structure Sound (pool : Nat) (shift : Shift σ) : Prop where
  accounted : shift.foreman.Accounted shift.record
  staffed : shift.foreman.Staffed
  discreet : shift.foreman.Discreet
  sized : shift.foreman.config.poolSize = pool
  answered : shift.released + shift.refused = Milestone.count .completed shift.record
  reported : ∀ queue idle busy, .observed (.workers queue idle busy) ∈ shift.notices → idle + busy = pool

end Shift

namespace Foreman
variable {foreman : Foreman}

/-- A task that was popped for a worker keeps it from any other. -/
theorem Staffed.tasks_le (staffed : foreman.Staffed) (orderly : foreman.Orderly) (index : Nat) :
    (foreman.waitingFor index).length + (foreman.underWay index).length ≤ 1 := by
  have waiting := orderly.waitingFor_le index
  have under := foreman.underWay_le index
  by_cases rests : foreman.underWay index = []
  · rw [rests, List.length_nil, Nat.add_zero]
    exact waiting
  · have works : foreman.Stands index .work := by
      unfold Foreman.underWay at rests
      cases found : foreman.workers[index]? with
      | none => simp [found] at rests
      | some worker =>
        obtain ⟨slot, phase⟩ := worker
        refine ⟨_, found, ?_⟩
        cases phase with
        | handling execution progress => rfl
        | releasing execution result program => rfl
        | _ => simp [found, Worker.underWay] at rests
    have unloaded : foreman.slotOf index = [] := by
      cases found : foreman.workers[index]? with
      | none => simp [slotOf, found]
      | some worker =>
        cases loaded : worker.slot with
        | none => simp [slotOf, found, loaded]
        | some task =>
          have stands : foreman.Stands index .slot := ⟨worker, found, by rw [loaded]; rfl⟩
          have same := staffed.stands_unique orderly works stands
          contradiction
    have empty : foreman.handFor index = [] := by
      by_contra busy
      have held : foreman.Stands index .hand := (foreman.held_of_handFor index busy).1
      have same := staffed.stands_unique orderly works held
      contradiction
    rw [waitingFor, unloaded, empty]
    simpa using under

/-- No more tasks are popped and not completed than there are workers. -/
theorem Accounted.popped_le {record : List Milestone} (accounted : foreman.Accounted record)
    (staffed : foreman.Staffed) :
    Milestone.count .popped record ≤ Milestone.count .completed record + foreman.config.poolSize := by
  have each (worker : Nat) : (Milestone.tasks .popped worker record).length ≤
      (Milestone.tasks .completed worker record).length + 1 := by
    have few := staffed.tasks_le accounted.orderly worker
    rw [accounted.popped, accounted.executed, List.length_append, List.length_append]
    omega
  rw [Milestone.count_eq_sum .popped _ record accounted.workers,
    Milestone.count_eq_sum .completed _ record accounted.workers]
  calc ∑ worker ∈ Finset.range foreman.config.poolSize, (Milestone.tasks .popped worker record).length
      ≤ ∑ worker ∈ Finset.range foreman.config.poolSize,
          ((Milestone.tasks .completed worker record).length + 1) :=
        Finset.sum_le_sum fun worker _ => each worker
    _ = _ := by
        rw [Finset.sum_add_distrib, Finset.sum_const_nat fun _ _ => rfl, Finset.card_range, Nat.mul_one]

end Foreman

namespace Shift
variable {σ : Type} {backend : Backend σ} {pool : Nat} {shift : Shift σ}

theorem Sound.conserved (sound : shift.Sound pool) : shift.Conserved pool := by
  have orderly := sound.accounted.orderly
  have staffed := sound.staffed
  have busy : shift.foreman.counters.busy ≤ pool := by
    rw [staffed.busy, ← sound.sized]
    exact Foreman.executing_le orderly
  refine ⟨fun _ _ _ => staffed.stands_unique orderly, ?present, ⟨?once, ?line⟩, ?returns, ?vacant,
    ?underWay, ⟨staffed.busy, busy⟩, ?stats, sound.reported⟩
  case present =>
    intro started index inside
    obtain ⟨place, stands⟩ := staffed.stands_somewhere orderly started (sound.sized.symm ▸ inside)
    exact ⟨place, stands, fun other there => staffed.stands_unique orderly there stands⟩
  case once => exact (List.nodup_append.mp orderly.listed).2.1
  case line =>
    have fewer := staffed.claimed_length_le orderly
    rw [Foreman.claimed, List.length_append, sound.sized] at fewer
    exact Nat.le_of_add_left_le fewer
  case returns =>
    intro index elapsed held
    exact Foreman.returnIdle_room index elapsed (staffed.room orderly held)
  case vacant =>
    intro on index idle
    exact orderly.slotState_claimed on (Foreman.mem_claimed.mpr idle.symm)
  case underWay =>
    rw [sound.answered, ← sound.sized]
    exact sound.accounted.popped_le staffed
  case stats =>
    intro running
    simp only [Foreman.stats, running, if_true, sound.sized]
    exact Nat.sub_add_cancel busy

/-- What is reported where the foreman stands as it does now is right. -/
theorem Sound.reports (sound : shift.Sound pool) {foreman : Foreman} {notices : List Notice}
    (orderly : foreman.Orderly) (staffed : foreman.Staffed) (config : foreman.config = shift.foreman.config)
    (reports : ∀ notice ∈ notices, notice.countsWorkers → notice ∈ foreman.occupancy) :
    ∀ queue idle busy, .observed (.workers queue idle busy) ∈ shift.notices ++ notices →
      idle + busy = pool := by
  intro queue idle busy given
  rcases List.mem_append.mp given with before | new
  · exact sound.reported queue idle busy before
  · rw [← sound.sized, ← config]
    exact (Foreman.occupancy_pool orderly staffed (reports _ new rfl)).2

theorem begin_sound {config : ForemanConfig} {engine : Engine} {registry : Registry} {measured : Bool}
    {foreman : Foreman} (built : Foreman.build config engine registry measured = .ok foreman)
    (store : σ) : (begin foreman store).Sound config.poolSize := by
  obtain ⟨orderly, created⟩ := Foreman.build_orderly config engine registry measured built
  obtain ⟨staffed, discreet, same⟩ := Foreman.build_staffed config engine registry measured built
  exact ⟨Foreman.accounted_created orderly created, staffed, discreet, by rw [← same]; rfl, rfl,
    fun _ _ _ => by simp [begin]⟩

theorem Sound.turn (sound : shift.Sound pool) (steady : backend.Steady) (moment : Moment)
    (member : Foreman.Member) : (shift.step backend (.turn moment member)).Sound pool := by
  have orderly := sound.accounted.orderly
  have move := Foreman.advance_moves backend steady moment member shift.foreman shift.store orderly
  have change : shift.foreman.Change _ (some member) _ := .moves moment.elapsed member _ move
  have accounted := sound.accounted.change change
  obtain ⟨staffed, discreet, reports⟩ :=
    sound.staffed.advance sound.discreet orderly backend steady moment member shift.store
  refine ⟨accounted, staffed, discreet, ?sized, ?answered, ?reported⟩
  case sized =>
    change (shift.foreman.advance backend moment member shift.store).1.config.poolSize = pool
    rw [change.config]
    exact sound.sized
  case answered =>
    simp only [step, Milestone.count, List.countP_append]
    have counted := sound.answered
    have parts (milestones : List Milestone) (kept takes : Milestone → Bool) : milestones.countP kept =
        (milestones.filter takes).countP kept +
          (milestones.filter fun milestone => !takes milestone).countP kept := by
      simpa using List.countP_eq_countP_filter_add milestones kept takes
    rw [Milestone.count] at counted
    rw [parts (shift.foreman.milestones backend moment member shift.store) _ fun milestone =>
      takesBack backend shift.foreman.config.queue shift.store milestone.task]
    omega
  case reported =>
    refine sound.reports accounted.orderly staffed change.config ?_
    cases member with
    | handler index => exact List.forall_mem_nil _
    | worker index => exact reports (by simp)
    | assigner => exact reports (by simp)

theorem Sound.changed (sound : shift.Sound pool) {foreman : Foreman} {notices : List Notice}
    (change : shift.foreman.Change foreman none []) (staffed : foreman.Staffed)
    (discreet : foreman.Discreet)
    (reports : ∀ notice ∈ notices, notice.countsWorkers → notice ∈ foreman.occupancy) :
    Sound pool { shift with foreman, notices := shift.notices ++ notices } := by
  have accounted := sound.accounted.change change
  rw [List.append_nil] at accounted
  exact ⟨accounted, staffed, discreet, change.config ▸ sound.sized, sound.answered,
    sound.reports accounted.orderly staffed change.config reports⟩

theorem Sound.step (sound : shift.Sound pool) (steady : backend.Steady) (event : Event σ) :
    (shift.step backend event).Sound pool := by
  have unheard {foreman : Foreman} {notices : List Notice}
      (silent : ∀ notice ∈ notices, notice.countsWorkers = false) :
      ∀ notice ∈ notices, notice.countsWorkers → notice ∈ foreman.occupancy := by
    intro notice given counts
    rw [silent notice given] at counts
    contradiction
  cases event with
  | turn moment member => exact sound.turn steady moment member
  | outside change =>
    exact ⟨sound.accounted, sound.staffed, sound.discreet, sound.sized, sound.answered, sound.reported⟩
  | start =>
    simp only [Shift.step]
    split
    · rename_i foreman notices started
      obtain ⟨staffed, discreet, reports⟩ :=
        Foreman.start_staffed sound.staffed sound.accounted.orderly started
      exact sound.changed (.starts (by simp only [Foreman.started, started])) staffed discreet reports
    · exact sound
  | stop =>
    obtain ⟨staffed, discreet, silent⟩ := Foreman.requestStop_staffed sound.staffed sound.discreet
    exact sound.changed (.stops rfl) staffed discreet (unheard silent)
  | finish =>
    simp only [Shift.step]
    split
    · rename_i closed
      obtain ⟨staffed, discreet, silent⟩ := Foreman.completeStop_staffed sound.staffed sound.discreet
      exact sound.changed (.finishes (by simp only [Foreman.finished, closed, if_true])) staffed discreet
        (unheard silent)
    · exact sound

theorem Sound.after (sound : shift.Sound pool) (steady : backend.Steady) (events : List (Event σ)) :
    (shift.after backend events).Sound pool := by
  induction events generalizing shift with
  | nil => exact sound
  | cons event rest ih => exact ih (sound.step steady event)

def postman : Foreman :=
  ⟨⟨"q", 1, Duration.ofSeconds 1, Duration.ofSeconds 1⟩, Engine.standard,
    (Registry.empty.register "mail" fun _ _ => .finished).1, true, .created, .zero, [], [], .starting⟩

def post : Disrupted MemoryStore :=
  let letter (content : UInt8) : Bytes := (⟨"mail", ⟨1⟩, [content], ⟨0, 0⟩, 0⟩ : Task).encode
  Disrupted.ofStore ((MemoryStore.empty.perform (.push "q" ⟨1⟩ (letter 0x61) ⟨0⟩)).2.perform
    (.push "q" ⟨1⟩ (letter 0x62) ⟨0⟩)).2

def grudging : Backend (Disrupted MemoryStore) :=
  Disrupted.backend MemoryStore.backend (Fault.disruptions [⟨.release, 0, 8, false⟩])

theorem grudging_steady : grudging.Steady := by
  refine Disrupted.backend_steady MemoryStore.backend_steady (Fault.disruptions_mild ?_)
  simp

def rounds : List (Event (Disrupted MemoryStore)) :=
  let worker : Event (Disrupted MemoryStore) := .turn ⟨0, ⟨0, 0⟩⟩ (.worker 0)
  let assigner : Event (Disrupted MemoryStore) := .turn ⟨0, ⟨0, 0⟩⟩ .assigner
  [.start, worker, worker, assigner] ++ List.replicate 5 assigner ++ List.replicate 6 worker ++
    List.replicate 5 assigner

end Shift
end TenantQueue
