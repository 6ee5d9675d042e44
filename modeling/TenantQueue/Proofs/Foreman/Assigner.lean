import TenantQueue.Foreman.Assign
import TenantQueue.Proofs.Engine.Logging

/-! What a turn of the assigner leaves as it is, whatever its phase, and which notices it gives: its own are log
records, and so are those of the programs that it begins. -/
namespace TenantQueue

def AssignerPhase.Notes (Allowed : Notice → Prop) : AssignerPhase → Prop
  | popping _ program => program.Notes Allowed
  | handingBack program => program.Notes Allowed
  | _ => True

namespace Foreman
variable {σ : Type}

def setup (foreman : Foreman) : ForemanConfig × Engine × Registry × Bool :=
  (foreman.config, foreman.engine, foreman.registry, foreman.measured)

theorem setup_eq_iff {foreman other : Foreman} : foreman.setup = other.setup ↔
    foreman.config = other.config ∧ foreman.engine = other.engine ∧ foreman.registry = other.registry ∧
      foreman.measured = other.measured := by
  simp only [setup, Prod.mk.injEq]

structure AssignerTurn (Allowed : Notice → Prop) (foreman next : Foreman) (notices : List Notice) :
    Prop where
  setup : next.setup = foreman.setup
  lifecycle : next.lifecycle = foreman.lifecycle
  counters : next.counters = foreman.counters
  workers : next.workers.map Worker.phase = foreman.workers.map Worker.phase
  following : next.assigner.Notes Allowed
  notices : ∀ notice ∈ notices, Allowed notice

section
variable {Allowed : Notice → Prop} (logs : ∀ severity text, Allowed (.log severity text))
include logs

theorem returnIdle_turn (foreman : Foreman) (index elapsed : Nat) :
    foreman.AssignerTurn Allowed (foreman.returnIdle index elapsed).1 (foreman.returnIdle index elapsed).2 := by
  unfold returnIdle
  split
  · exact ⟨rfl, rfl, rfl, rfl, trivial, List.forall_mem_nil _⟩
  · exact ⟨rfl, rfl, rfl, rfl, trivial, List.forall_mem_singleton.mpr (logs _ _)⟩

theorem notes_handBack (foreman : Foreman) (task : Task) : (foreman.handBack task).Notes Allowed := by
  refine Program.notes_bind _ _
    (Program.notes_attempt _ (Engine.notes_enqueueAt logs _ _ _ _ _ _)) fun entered => ?_
  have gives : (Engine.releaseSlot foreman.config.queue task.tenant).Notes Allowed :=
    Engine.notes_releaseSlot logs _ _
  cases entered with
  | ok value => exact gives
  | error failure => exact Program.notes_bind _ _ (Program.notes_log _ _ (logs _ _)) fun _ => gives

theorem assign_turn (foreman : Foreman) (index : Nat) (task : Task) (notes : foreman.assigner.Notes Allowed) :
    foreman.AssignerTurn Allowed (foreman.assign index task).1 (foreman.assign index task).2 := by
  unfold assign
  cases foreman.slotState index with
  | vacant =>
    refine ⟨rfl, rfl, rfl, ?_, trivial, List.forall_mem_nil _⟩
    refine List.ext_getElem? fun other => ?_
    rw [List.getElem?_map, List.getElem?_map, List.getElem?_modify]
    cases foreman.workers[other]? with
    | none => rfl
    | some worker =>
      simp only [Option.map_eq_map, Option.map_some]
      split <;> rfl
  | taken => exact ⟨rfl, rfl, rfl, rfl, notes, List.forall_mem_nil _⟩
  | closed =>
    exact ⟨rfl, rfl, rfl, rfl, notes_handBack logs foreman task, List.forall_mem_singleton.mpr (logs _ _)⟩
  | unknown =>
    exact ⟨rfl, rfl, rfl, rfl, notes_handBack logs foreman task, List.forall_mem_singleton.mpr (logs _ _)⟩

theorem advanceAssigner_turn (backend : Backend σ) (moment : Moment) (foreman : Foreman) (state : σ)
    (notes : foreman.assigner.Notes Allowed) :
    foreman.AssignerTurn Allowed (foreman.advanceAssigner backend moment state).1
      (foreman.advanceAssigner backend moment state).2.1 := by
  have enters (phase : AssignerPhase) (line : List Nat) (kept : phase.Notes Allowed) :
      foreman.AssignerTurn Allowed { foreman with assigner := phase, idle := line } [] :=
    ⟨rfl, rfl, rfl, rfl, kept, List.forall_mem_nil _⟩
  have stops : foreman.AssignerTurn Allowed foreman.stopAssigner.1 foreman.stopAssigner.2 :=
    ⟨rfl, rfl, rfl, rfl, trivial, List.forall_mem_singleton.mpr (logs _ _)⟩
  have waits : foreman.AssignerTurn Allowed foreman [] := ⟨rfl, rfl, rfl, rfl, notes, List.forall_mem_nil _⟩
  cases phase : foreman.assigner with
  | starting =>
    simp only [advanceAssigner, phase]
    exact ⟨rfl, rfl, rfl, rfl, trivial, List.forall_mem_singleton.mpr (logs _ _)⟩
  | listening =>
    simp only [advanceAssigner, phase]
    split
    · exact stops
    · split
      · exact waits
      · exact enters _ _ trivial
  | holding index =>
    simp only [advanceAssigner, phase]
    split
    · exact stops
    · exact enters _ foreman.idle (Engine.notes_next logs _)
  | popping index program =>
    have returned := returnIdle_turn logs foreman index moment.elapsed
    rw [phase] at notes
    simp only [advanceAssigner, phase]
    split
    · obtain ⟨following, given⟩ := program.step_notes backend state notes
      exact ⟨rfl, rfl, rfl, rfl, following, given⟩
    · exact enters _ foreman.idle trivial
    · exact returned
    · exact ⟨returned.setup, returned.lifecycle, returned.counters, returned.workers, returned.following,
        List.forall_mem_cons.mpr ⟨logs _ _, returned.notices⟩⟩
    · exact enters _ foreman.idle trivial
  | assigning index task =>
    simp only [advanceAssigner, phase]
    exact assign_turn logs foreman index task notes
  | handingBack program =>
    rw [phase] at notes
    simp only [advanceAssigner, phase]
    split
    · obtain ⟨following, given⟩ := program.step_notes backend state notes
      exact ⟨rfl, rfl, rfl, rfl, following, given⟩
    · exact enters _ foreman.idle trivial
    · exact enters _ foreman.idle trivial
  | pausing till =>
    simp only [advanceAssigner, phase]
    split
    · exact stops
    · split
      · exact enters _ foreman.idle trivial
      · exact waits
  | ended =>
    simp only [advanceAssigner, phase]
    exact waits
  | lost crash =>
    simp only [advanceAssigner, phase]
    exact waits

end

end Foreman
end TenantQueue
