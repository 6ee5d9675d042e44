import TenantQueue.Proofs.Foreman.Dispatch

/-! Foremen on one store, in any number. Whose turn it is next is open: a member of any foreman takes a
step, somebody else makes a call, or a foreman is hired, started or stopped. -/
namespace TenantQueue

structure Site where
  store : MemoryStore
  foremen : List Foreman

inductive Turn where
  | hire (config : ForemanConfig) (engine : Engine) (registry : Registry) (measured : Bool)
  | start (place : Nat)
  | member (place : Nat) (member : Foreman.Member) (moment : Moment)
  | outside (call : Call)
  | stop (place : Nat)
  | finish (place : Nat)

def Turn.mover (place : Nat) : Turn → Option Foreman.Member
  | .member other mover _ => if other = place then some mover else none
  | _ => none

namespace Foreman

def started (foreman : Foreman) : Foreman :=
  match foreman.start with
  | .ok (next, _) => next
  | .error _ => foreman

def finished (foreman : Foreman) : Foreman :=
  if foreman.isOver then foreman.completeStop.1 else foreman

end Foreman

namespace Site

def change (site : Site) (place : Nat) (moved : Foreman → Foreman) : Site :=
  { site with foremen := site.foremen.modify place moved }

def step (site : Site) : Turn → Site
  | .hire config engine registry measured =>
    match Foreman.build config engine registry measured with
    | .ok foreman => { site with foremen := site.foremen ++ [foreman] }
    | .error _ => site
  | .start place => site.change place Foreman.started
  | .member place member moment =>
    match site.foremen[place]? with
    | some foreman =>
      let (next, _, store) := foreman.advance MemoryStore.backend moment member site.store
      ⟨store, site.foremen.set place next⟩
    | none => site
  | .outside call => { site with store := (site.store.perform call).2 }
  | .stop place => site.change place fun foreman => foreman.requestStop.1
  | .finish place => site.change place Foreman.finished

def milestones (place : Nat) (site : Site) : Turn → List Milestone
  | .member other member moment =>
    if other = place then
      match site.foremen[place]? with
      | some foreman => foreman.milestones MemoryStore.backend moment member site.store
      | none => []
    else []
  | _ => []

end Site

/-- A store and the turns that are taken on it without end. -/
structure Course where
  store : MemoryStore
  turns : Nat → Turn

namespace Course

def site (course : Course) : Nat → Site
  | 0 => ⟨course.store, []⟩
  | time + 1 => (course.site time).step (course.turns time)

def record (course : Course) (place : Nat) : Nat → List Milestone
  | 0 => []
  | time + 1 => course.record place time ++ (course.site time).milestones place (course.turns time)

def tasks (course : Course) (place : Nat) (kind : Milestone.Kind) (worker time : Nat) : List Task :=
  Milestone.tasks kind worker (course.record place time)

end Course

namespace Foreman
variable {foreman next : Foreman} {mover : Option Member} {milestones : List Milestone}

inductive Change (foreman next : Foreman) : Option Member → List Milestone → Prop
  | rests (same : next = foreman) : Change foreman next none []
  | moves (elapsed : Nat) (member : Member) (milestones : List Milestone)
    (move : foreman.MemberMove next elapsed member milestones) : Change foreman next (some member) milestones
  | starts (same : next = foreman.started) : Change foreman next none []
  | stops (same : next = foreman.requestStop.1) : Change foreman next none []
  | finishes (same : next = foreman.finished) : Change foreman next none []

theorem finished_orderly (orderly : foreman.Orderly) : foreman.finished.Orderly := by
  unfold finished
  split
  · rename_i closed
    exact completeStop_orderly orderly closed
  · exact orderly

theorem started_orderly (orderly : foreman.Orderly) : foreman.started.Orderly := by
  unfold started
  split
  · rename_i next notices started
    exact start_orderly orderly started
  · exact orderly

theorem Change.orderly (change : foreman.Change next mover milestones) (orderly : foreman.Orderly) :
    next.Orderly := by
  cases change with
  | rests same => exact same ▸ orderly
  | moves elapsed member milestones move => exact move.orderly orderly
  | starts same => exact same ▸ started_orderly orderly
  | stops same => exact same ▸ requestStop_orderly orderly
  | finishes same => exact same ▸ finished_orderly orderly

structure Alike (foreman next : Foreman) : Prop where
  config : next.config = foreman.config
  assigner : next.assigner = foreman.assigner
  workers : next.workers = foreman.workers

theorem requestStop_alike (foreman : Foreman) : foreman.Alike foreman.requestStop.1 := by
  unfold requestStop
  split <;> exact ⟨rfl, rfl, rfl⟩

theorem finished_alike (foreman : Foreman) : foreman.Alike foreman.finished := by
  unfold finished
  split
  · unfold completeStop
    split <;> exact ⟨rfl, rfl, rfl⟩
  · exact ⟨rfl, rfl, rfl⟩

theorem started_cases (foreman : Foreman) :
    foreman.started = foreman ∨ foreman.lifecycle = .created ∧
      foreman.started = { foreman with
        lifecycle := .started
        workers := List.replicate foreman.config.poolSize ⟨none, .starting⟩ } := by
  unfold started start
  cases stage : foreman.lifecycle with
  | created => exact Or.inr ⟨rfl, rfl⟩
  | started => exact Or.inl rfl
  | stopping => exact Or.inl rfl
  | stopped => exact Or.inl rfl

/-- A turn of no member changes at most the stage of life, or it brings the workers. -/
theorem Change.alike_or_starts (change : foreman.Change next none milestones) :
    milestones = [] ∧ (foreman.Alike next ∨ foreman.lifecycle = .created ∧
      next = { foreman with
        lifecycle := .started
        workers := List.replicate foreman.config.poolSize ⟨none, .starting⟩ }) := by
  cases change with
  | rests same => exact ⟨rfl, Or.inl (same ▸ ⟨rfl, rfl, rfl⟩)⟩
  | stops same => exact ⟨rfl, Or.inl (same ▸ requestStop_alike foreman)⟩
  | finishes same => exact ⟨rfl, Or.inl (same ▸ finished_alike foreman)⟩
  | starts same =>
    rcases foreman.started_cases with still | ⟨created, started⟩
    · rw [same, still]
      exact ⟨rfl, Or.inl ⟨rfl, rfl, rfl⟩⟩
    · exact ⟨rfl, Or.inr ⟨created, same.trans started⟩⟩

theorem Alike.conserves (alike : foreman.Alike next) : foreman.Conserves next [] := by
  intro index
  rw [waitingFor, waitingFor, slotOf, slotOf, handFor, handFor, hand?, hand?, underWay, underWay,
    alike.workers, alike.assigner]
  simp

theorem Change.conserves (change : foreman.Change next mover milestones) (orderly : foreman.Orderly) :
    foreman.Conserves next milestones := by
  cases mover with
  | some member =>
    cases change with
    | moves elapsed member milestones move => exact move.conserves
  | none =>
    obtain ⟨rfl, alike | ⟨created, started⟩⟩ := change.alike_or_starts
    · exact alike.conserves
    · obtain ⟨workers, _, _⟩ := orderly.created created
      intro index
      have fresh (worker : Worker) (found : next.workers[index]? = some worker) :
          worker = ⟨none, .starting⟩ := by
        rw [started] at found
        exact List.eq_of_mem_replicate (List.mem_of_getElem? found)
      have empty : next.slotOf index = [] ∧ next.underWay index = [] := by
        rw [slotOf, underWay]
        cases found : next.workers[index]? with
        | none => exact ⟨rfl, rfl⟩
        | some worker =>
          rw [fresh worker found]
          exact ⟨rfl, rfl⟩
      have hand : next.handFor index = foreman.handFor index := by
        rw [started]
        rfl
      rw [waitingFor, waitingFor, empty.1, empty.2, hand, slotOf, underWay, workers]
      simp

theorem Change.worker_lt (change : foreman.Change next mover milestones) (orderly : foreman.Orderly) :
    ∀ milestone ∈ milestones, milestone.worker < foreman.config.poolSize := by
  cases change with
  | moves elapsed member milestones move => exact move.worker_lt orderly
  | _ => exact List.forall_mem_nil _

theorem Change.config (change : foreman.Change next mover milestones) : next.config = foreman.config := by
  cases mover with
  | none =>
    obtain ⟨_, alike | ⟨_, started⟩⟩ := change.alike_or_starts
    · exact alike.config
    · rw [started]
  | some member =>
    cases change with
    | moves elapsed member milestones move =>
      cases move with
      | waits member blocked same => rw [same]
      | worker index worker moved added milestones found moves => exact moves.keeps.config
      | handler index slot execution progress after found works same =>
        rw [same]
        rfl
      | assigner milestones running keeps move => exact keeps.config

/-- Where the stop signal is given it stays so, and no pop begins. -/
theorem Change.stopping (change : foreman.Change next mover milestones) (stopping : foreman.isStopping) :
    next.isStopping ∧ popCount milestones + next.assigner.popsUnderWay ≤ foreman.assigner.popsUnderWay := by
  have quiet (alike : foreman.Alike next) :
      popCount [] + next.assigner.popsUnderWay ≤ foreman.assigner.popsUnderWay := by
    rw [alike.assigner]
    exact Nat.le_of_eq (Nat.zero_add _)
  cases change with
  | rests same =>
    rw [same]
    exact ⟨stopping, Nat.le_of_eq (Nat.zero_add _)⟩
  | moves elapsed member milestones move => exact move.stopping stopping
  | starts same =>
    rcases foreman.started_cases with still | ⟨created, _⟩
    · rw [same, still]
      exact ⟨stopping, Nat.le_of_eq (Nat.zero_add _)⟩
    · simp [isStopping, created] at stopping
  | stops same =>
    refine ⟨?_, quiet (same ▸ requestStop_alike foreman)⟩
    rw [same]
    unfold requestStop
    split
    · rfl
    · exact stopping
    · rfl
  | finishes same =>
    refine ⟨?_, quiet (same ▸ finished_alike foreman)⟩
    rw [same]
    unfold finished completeStop
    split
    · split
      · rfl
      · exact stopping
    · exact stopping

end Foreman

namespace Site

theorem getElem?_change (site : Site) (other place : Nat) (moved : Foreman → Foreman) :
    (site.change other moved).foremen[place]? =
      if other = place then site.foremen[place]?.map moved else site.foremen[place]? := by
  rw [change, List.getElem?_modify]
  split <;> simp

theorem step_changes (site : Site) (turn : Turn) (place : Nat) (foreman : Foreman)
    (found : site.foremen[place]? = some foreman) (orderly : foreman.Orderly) :
    ∃ next, (site.step turn).foremen[place]? = some next ∧
      foreman.Change next (turn.mover place) (site.milestones place turn) := by
  cases turn with
  | hire config engine registry measured =>
    refine ⟨foreman, ?_, .rests rfl⟩
    simp only [step]
    split
    · obtain ⟨inside, _⟩ := List.getElem?_eq_some_iff.mp found
      rw [List.getElem?_append_left inside]
      exact found
    · exact found
  | outside call => exact ⟨foreman, found, .rests rfl⟩
  | start other =>
    rw [step, getElem?_change, found]
    split
    · exact ⟨_, rfl, .starts rfl⟩
    · exact ⟨foreman, rfl, .rests rfl⟩
  | stop other =>
    rw [step, getElem?_change, found]
    split
    · exact ⟨_, rfl, .stops rfl⟩
    · exact ⟨foreman, rfl, .rests rfl⟩
  | finish other =>
    rw [step, getElem?_change, found]
    split
    · exact ⟨_, rfl, .finishes rfl⟩
    · exact ⟨foreman, rfl, .rests rfl⟩
  | member other member moment =>
    simp only [step, milestones, Turn.mover]
    by_cases own : other = place
    · subst own
      obtain ⟨inside, _⟩ := List.getElem?_eq_some_iff.mp found
      simp only [found, if_true]
      exact ⟨_, List.getElem?_set_self inside, .moves moment.elapsed member _
        (Foreman.advance_moves MemoryStore.backend MemoryStore.backend_steady moment member foreman
          site.store orderly)⟩
    · simp only [own, if_false]
      refine ⟨foreman, ?_, .rests rfl⟩
      split
      · rw [List.getElem?_set_ne own]
        exact found
      · exact found

theorem step_hires (site : Site) (turn : Turn) (place : Nat)
    (vacant : site.foremen[place]? = none) :
    site.milestones place turn = [] ∧
      ∀ foreman, (site.step turn).foremen[place]? = some foreman →
        foreman.Orderly ∧ foreman.lifecycle = .created := by
  have changed (other : Nat) (moved : Foreman → Foreman) (foreman : Foreman)
      (found : (site.change other moved).foremen[place]? = some foreman) : False := by
    rw [getElem?_change, vacant] at found
    split at found <;> contradiction
  cases turn with
  | hire config engine registry measured =>
    refine ⟨rfl, ?_⟩
    intro foreman found
    simp only [step] at found
    split at found
    · rename_i hired built
      rw [List.getElem?_append_right (List.getElem?_eq_none_iff.mp vacant)] at found
      rw [List.mem_singleton.mp (List.mem_of_getElem? found)]
      exact Foreman.build_orderly config engine registry measured built
    · rw [vacant] at found
      contradiction
  | outside call =>
    refine ⟨rfl, ?_⟩
    intro foreman found
    rw [step, vacant] at found
    contradiction
  | start other => exact ⟨rfl, fun foreman found => (changed _ _ foreman found).elim⟩
  | stop other => exact ⟨rfl, fun foreman found => (changed _ _ foreman found).elim⟩
  | finish other => exact ⟨rfl, fun foreman found => (changed _ _ foreman found).elim⟩
  | member other member moment =>
    refine ⟨by simp [milestones, vacant], ?_⟩
    intro foreman found
    simp only [step] at found
    split at found
    · have absent : site.foremen.length ≤ place := List.getElem?_eq_none_iff.mp vacant
      rw [List.getElem?_eq_none (by rwa [List.length_set])] at found
      contradiction
    · rw [vacant] at found
      contradiction

end Site

namespace Foreman

/-- What has been done to the tasks of a foreman, up to where they are now. -/
structure Accounted (foreman : Foreman) (record : List Milestone) : Prop where
  orderly : foreman.Orderly
  popped : ∀ worker, Milestone.tasks .popped worker record =
    Milestone.tasks .executed worker record ++ foreman.waitingFor worker
  executed : ∀ worker, Milestone.tasks .executed worker record =
    Milestone.tasks .completed worker record ++ foreman.underWay worker
  workers : ∀ milestone ∈ record, milestone.worker < foreman.config.poolSize

theorem accounted_created {foreman : Foreman} (orderly : foreman.Orderly)
    (created : foreman.lifecycle = .created) : foreman.Accounted [] := by
  obtain ⟨workers, _, assigner⟩ := orderly.created created
  refine ⟨orderly, ?_, ?_, List.forall_mem_nil _⟩
  · intro worker
    simp [waitingFor, slotOf, handFor, hand?, workers, assigner]
  · intro worker
    simp [underWay, workers]

theorem Accounted.change {foreman next : Foreman} {mover : Option Member} {record milestones : List Milestone}
    (accounted : foreman.Accounted record) (change : foreman.Change next mover milestones) :
    next.Accounted (record ++ milestones) where
  orderly := change.orderly accounted.orderly
  popped worker := by
    have conserves := (change.conserves accounted.orderly worker).1
    rw [Milestone.tasks_append, Milestone.tasks_append, accounted.popped, List.append_assoc, ← conserves,
      List.append_assoc]
  executed worker := by
    have conserves := (change.conserves accounted.orderly worker).2
    rw [Milestone.tasks_append, Milestone.tasks_append, accounted.executed, List.append_assoc, ← conserves,
      List.append_assoc]
  workers := by
    rw [change.config]
    intro milestone done
    rcases List.mem_append.mp done with before | new
    · exact accounted.workers milestone before
    · exact change.worker_lt accounted.orderly milestone new

end Foreman

namespace Course

theorem accounted (course : Course) (place time : Nat) :
    ((course.site time).foremen[place]? = none → course.record place time = []) ∧
      ∀ foreman, (course.site time).foremen[place]? = some foreman →
        foreman.Accounted (course.record place time) := by
  induction time with
  | zero => exact ⟨fun _ => rfl, fun foreman found => by simp [site] at found⟩
  | succ time ih =>
    cases before : (course.site time).foremen[place]? with
    | none =>
      obtain ⟨quiet, hired⟩ := (course.site time).step_hires (course.turns time) place before
      rw [record, ih.1 before, quiet, List.append_nil]
      refine ⟨fun _ => rfl, ?_⟩
      intro foreman found
      obtain ⟨orderly, created⟩ := hired foreman found
      exact Foreman.accounted_created orderly created
    | some foreman =>
      have accounted := ih.2 foreman before
      obtain ⟨next, after, change⟩ :=
        (course.site time).step_changes (course.turns time) place foreman before accounted.orderly
      refine ⟨?_, ?_⟩
      · intro vacant
        rw [site, after] at vacant
        contradiction
      · intro other found
        rw [site, after, Option.some.injEq] at found
        exact found ▸ accounted.change change

theorem orderly_at (course : Course) (place time : Nat) {foreman : Foreman}
    (found : (course.site time).foremen[place]? = some foreman) : foreman.Orderly :=
  ((course.accounted place time).2 foreman found).orderly

end Course
end TenantQueue
