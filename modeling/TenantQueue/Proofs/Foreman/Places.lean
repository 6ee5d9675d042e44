import TenantQueue.Proofs.Foreman.Dispatch
import Mathlib.Data.List.Perm.Subperm

/-! Where the workers of a foreman are. Each of them is in one place at a time at most, and in exactly one
while the foreman is started, so that none is lost and none is given two tasks. -/
namespace TenantQueue

namespace WorkerPhase

def isJoining : WorkerPhase → Bool
  | starting => true
  | announcing => true
  | _ => false

def isResting : WorkerPhase → Bool
  | waiting => true
  | draining => true
  | ended => true
  | _ => false

def isStaying : WorkerPhase → Bool
  | starting => true
  | announcing => true
  | waiting => true
  | handling execution _ => !execution.leaving
  | releasing execution _ _ => !execution.leaving
  | _ => false

end WorkerPhase

def Worker.load (worker : Worker) : Nat := if worker.phase.isExecuting then 1 else 0

namespace Foreman

inductive Place where
  | door
  | line
  | hand
  | slot
  | work
  deriving DecidableEq

def Stands (foreman : Foreman) (index : Nat) : Place → Prop
  | .door => ∃ worker, foreman.workers[index]? = some worker ∧ worker.phase.isJoining
  | .line => index ∈ foreman.idle
  | .hand => foreman.held? = some index
  | .slot => ∃ worker, foreman.workers[index]? = some worker ∧ worker.slot.isSome
  | .work => ∃ worker, foreman.workers[index]? = some worker ∧ worker.phase.isExecuting

def executing (foreman : Foreman) : Nat :=
  foreman.workers.countP fun worker => worker.phase.isExecuting

/-- Those in the line and in the assigner's hand have nothing to do, even where the assigner is gone. While
the foreman is started all workers are there, and those with nothing to do are known to the assigner. -/
structure Staffed (foreman : Foreman) : Prop where
  rests : ∀ index ∈ foreman.claimed, ∃ phase,
    foreman.workers[index]? = some (Worker.mk none phase) ∧ phase.isResting
  full : foreman.lifecycle = .started → foreman.workers.length = foreman.config.poolSize
  assigns : foreman.lifecycle = .started → foreman.assigner.isOver = false
  stays : foreman.lifecycle = .started → ∀ (index : Nat) slot phase,
    foreman.workers[index]? = some (Worker.mk slot phase) → phase.isStaying
  known : foreman.lifecycle = .started → ∀ index : Nat,
    foreman.workers[index]? = some (Worker.mk none .waiting) → index ∈ foreman.claimed
  busy : foreman.counters.busy = foreman.executing

variable {foreman next : Foreman}

theorem mem_claimed {index : Nat} :
    index ∈ foreman.claimed ↔ foreman.Stands index .hand ∨ foreman.Stands index .line := by
  simp [claimed, Stands]

theorem Staffed.rests_at (staffed : foreman.Staffed) {index : Nat} {worker : Worker}
    (listed : index ∈ foreman.claimed) (found : foreman.workers[index]? = some worker) :
    worker.slot = none ∧ worker.phase.isResting := by
  obtain ⟨phase, same, rests⟩ := staffed.rests index listed
  rw [found, Option.some.injEq] at same
  subst same
  exact ⟨rfl, rests⟩

/-- What a worker shows of where it is. One with nothing to do does not show whether it is in the line
or in the assigner's hand. -/
def place? (worker : Worker) : Option Place :=
  if worker.slot.isSome then some .slot
  else if worker.phase.isJoining then some .door
  else if worker.phase.isExecuting then some .work
  else none

theorem Stands.place?_eq {index : Nat} {place : Place} (stands : foreman.Stands index place)
    (orderly : foreman.Orderly) (staffed : foreman.Staffed) :
    ∃ worker, foreman.workers[index]? = some worker ∧
      place? worker = if place = .line ∨ place = .hand then none else some place := by
  have claimed (listed : index ∈ foreman.claimed) :
      ∃ worker, foreman.workers[index]? = some worker ∧ place? worker = none := by
    obtain ⟨phase, found, rests⟩ := staffed.rests index listed
    refine ⟨_, found, ?_⟩
    cases phase <;> first | contradiction | rfl
  cases place with
  | line =>
    simp only [true_or, if_true]
    exact claimed (mem_claimed.mpr (Or.inr stands))
  | hand =>
    simp only [or_true, if_true]
    exact claimed (mem_claimed.mpr (Or.inl stands))
  | slot =>
    obtain ⟨worker, found, loaded⟩ := stands
    exact ⟨worker, found, by simp [place?, loaded]⟩
  | door =>
    obtain ⟨⟨slot, phase⟩, found, joins⟩ := stands
    refine ⟨_, found, ?_⟩
    have closed : phase.isOpen = false := by cases phase <;> first | contradiction | rfl
    have joining : phase.isJoining = true := joins
    simp [place?, orderly.empty found closed, joining]
  | work =>
    obtain ⟨⟨slot, phase⟩, found, works⟩ := stands
    refine ⟨_, found, ?_⟩
    have closed : phase.isOpen = false := by cases phase <;> first | contradiction | rfl
    have apart : phase.isJoining = false := by cases phase <;> first | contradiction | rfl
    have executes : phase.isExecuting = true := works
    simp [place?, orderly.empty found closed, apart, executes]

/-- No worker is in two places. -/
theorem Staffed.stands_unique (staffed : foreman.Staffed) (orderly : foreman.Orderly) {index : Nat}
    {first second : Place} (here : foreman.Stands index first) (there : foreman.Stands index second) :
    first = second := by
  obtain ⟨worker, found, shows⟩ := here.place?_eq orderly staffed
  obtain ⟨other, same, showsToo⟩ := there.place?_eq orderly staffed
  rw [found, Option.some.injEq] at same
  subst same
  rw [shows] at showsToo
  have apart (held : foreman.Stands index .hand) (listed : foreman.Stands index .line) : False := by
    have nodup := orderly.listed
    simp only [Stands] at held listed
    rw [Foreman.claimed, held] at nodup
    exact (List.nodup_cons.mp nodup).1 listed
  cases first <;> cases second <;> first
    | rfl
    | contradiction
    | exact (apart here there).elim
    | exact (apart there here).elim

/-- No worker is lost. -/
theorem Staffed.stands_somewhere (staffed : foreman.Staffed) (orderly : foreman.Orderly)
    (started : foreman.lifecycle = .started) {index : Nat} (inside : index < foreman.config.poolSize) :
    ∃ place, foreman.Stands index place := by
  rw [← staffed.full started] at inside
  have found := List.getElem?_eq_getElem inside
  generalize foreman.workers[index] = worker at found
  obtain ⟨slot, phase⟩ := worker
  have stays := staffed.stays started index slot phase found
  have regular := orderly.regular index slot phase found
  cases slot with
  | some task => exact ⟨.slot, _, found, rfl⟩
  | none =>
    cases phase with
    | starting => exact ⟨.door, _, found, rfl⟩
    | announcing => exact ⟨.door, _, found, rfl⟩
    | handling execution progress => exact ⟨.work, _, found, rfl⟩
    | releasing execution result program => exact ⟨.work, _, found, rfl⟩
    | waiting =>
      rcases mem_claimed.mp (staffed.known started index found) with held | listed
      · exact ⟨.hand, held⟩
      · exact ⟨.line, listed⟩
    | draining => contradiction
    | ended => contradiction
    | lost crash => exact regular.elim

theorem Staffed.claimed_length_le (staffed : foreman.Staffed) (orderly : foreman.Orderly) :
    foreman.claimed.length ≤ foreman.config.poolSize := by
  have inside : foreman.claimed ⊆ List.range foreman.config.poolSize := by
    intro index listed
    obtain ⟨phase, found, _⟩ := staffed.rests index listed
    have bound := (List.getElem?_eq_some_iff.mp found).1
    exact List.mem_range.mpr (Nat.lt_of_lt_of_le bound orderly.crew)
  have fewer := (orderly.listed.subperm inside).length_le
  rwa [List.length_range] at fewer

/-- There is room in the line for the worker in the assigner's hand. -/
theorem Staffed.room (staffed : foreman.Staffed) (orderly : foreman.Orderly) {index : Nat}
    (held : foreman.held? = some index) : foreman.idle.length < foreman.config.poolSize := by
  have fewer := staffed.claimed_length_le orderly
  rw [claimed, held, List.length_append, Option.toList_some, List.length_singleton] at fewer
  omega

theorem returnIdle_room (index elapsed : Nat)
    (room : foreman.idle.length < foreman.config.poolSize) :
    (foreman.returnIdle index elapsed).1.idle = foreman.idle ++ [index] ∧
      (foreman.returnIdle index elapsed).2 = [] := by
  simp only [returnIdle, room, if_true, and_self]

theorem executing_le (orderly : foreman.Orderly) : foreman.executing ≤ foreman.config.poolSize :=
  Nat.le_trans List.countP_le_length orderly.crew

theorem countP_moved (kind : Worker → Bool) {workers : List Worker} {index : Nat} {worker moved : Worker}
    (found : workers[index]? = some worker) :
    (workers.set index moved).countP kind + (if kind worker then 1 else 0) =
      workers.countP kind + if kind moved then 1 else 0 := by
  obtain ⟨inside, same⟩ := List.getElem?_eq_some_iff.mp found
  have counted : (if kind worker then 1 else 0) ≤ workers.countP kind := by
    split
    · rename_i counts
      exact List.countP_pos_iff.mpr ⟨worker, List.mem_of_getElem? found, counts⟩
    · exact Nat.zero_le _
  rw [List.countP_set inside, same]
  omega

theorem executing_set {index : Nat} {worker moved : Worker}
    (found : foreman.workers[index]? = some worker)
    (workers : next.workers = foreman.workers.set index moved) :
    next.executing + worker.load = foreman.executing + moved.load := by
  rw [executing, workers]
  exact countP_moved (fun worker => worker.phase.isExecuting) found

end Foreman
end TenantQueue
