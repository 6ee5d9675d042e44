import TenantQueue.Foreman.Step
import TenantQueue.Sweeper

/-! Foremen and sweepers at work on one store in virtual time. Those that can take a step do so
in the order in which they became able to, each until it has to wait. When all wait, time
goes on to the end of the next pause. -/
namespace TenantQueue

inductive LooseWork where
  | handler (progress : Job.Progress)
  | release (program : Program Unit)

inductive Actor where
  | foreman (index : Nat) (member : Foreman.Member)
  | loose (index : Nat)
  | sweeper (index : Nat)
  deriving DecidableEq

structure Timeline where
  disruptions : Disruptions
  start : Instant
  store : Disrupted MemoryStore
  metrics : Metrics
  /-- Milliseconds of virtual time. -/
  elapsed : Nat
  /-- Microseconds by which the clock has gone on. -/
  ticks : Nat
  foremen : List Foreman
  loose : List LooseWork
  sweepers : List Sweeper
  /-- Those that can take a step, or could when they were entered. -/
  ready : List Actor
  pausing : List Actor
  /-- Notices with the time at which they were given, the latest first. -/
  notices : List (Nat × Notice)

namespace LooseWork

def canAdvance (elapsed : Nat) : LooseWork → Bool
  | handler progress => progress.canAdvance elapsed
  | release program => program.outcome?.isNone

def wake? : LooseWork → Option Nat
  | handler progress => progress.wake?
  | release _ => none

variable {σ : Type}

/-- One step. Loose work never sees the stop signal. -/
def advance (backend : Backend σ) (moment : Moment) (work : LooseWork) (state : σ) :
    LooseWork × List Notice × σ :=
  match work with
  | handler progress =>
    let (progress, notices, state) := progress.advance backend moment false state
    (handler progress, notices, state)
  | release program =>
    let (program, notices, state) := program.step backend state
    (release program, notices, state)

end LooseWork

namespace Timeline

def begin (disruptions : Disruptions) (start : Instant) : Timeline :=
  ⟨disruptions, start, Disrupted.ofStore .empty, .empty, 0, 0, [], [], [], [], [], []⟩

def backend (timeline : Timeline) : Backend (Disrupted MemoryStore) :=
  Disrupted.backend MemoryStore.backend timeline.disruptions

def reading (timeline : Timeline) : Instant :=
  (timeline.start.plus? ⟨timeline.ticks * 1000⟩).getD timeline.start

def moment (timeline : Timeline) : Moment := ⟨timeline.elapsed, timeline.reading⟩

def tick (timeline : Timeline) : Timeline := { timeline with ticks := timeline.ticks + 1 }

def noteOne (timeline : Timeline) : Notice → Timeline
  | .observed observation => { timeline with metrics := timeline.metrics.record observation }
  | notice => { timeline with notices := (timeline.elapsed, notice) :: timeline.notices }

def note (timeline : Timeline) (notices : List Notice) : Timeline := notices.foldl noteOne timeline

/-- Runs a program to its end before anybody else takes a step. -/
def perform {α : Type} (timeline : Timeline) (program : Program α) : Outcome α × Timeline :=
  let (outcome, notices, store) := program.run timeline.backend timeline.store
  (outcome, ({ timeline with store }.note notices).tick)

def canAdvance (timeline : Timeline) (elapsed : Nat) : Actor → Bool
  | .foreman index member =>
    match timeline.foremen[index]? with
    | some foreman => foreman.canAdvance elapsed member
    | none => false
  | .loose index =>
    match timeline.loose[index]? with
    | some work => work.canAdvance elapsed
    | none => false
  | .sweeper index =>
    match timeline.sweepers[index]? with
    | some sweeper => sweeper.canAdvance elapsed
    | none => false

def wake? (timeline : Timeline) : Actor → Option Nat
  | .foreman index member => timeline.foremen[index]?.bind fun foreman => foreman.wake? member
  | .loose index => timeline.loose[index]?.bind LooseWork.wake?
  | .sweeper index => timeline.sweepers[index]?.bind Sweeper.wake?

/-- Enters those concerned by a change that can take a step after it and could not before, and those
whose pauses began with it. -/
def settle (before after : Timeline) (concerned : List Actor) : Timeline :=
  let woken := concerned.filter fun actor =>
    after.canAdvance after.elapsed actor && !before.canAdvance before.elapsed actor
  let changed := concerned.filter fun actor => after.wake? actor ≠ before.wake? actor
  { after with
    ready := after.ready ++ woken
    pausing := after.pausing.filter (fun actor => actor ∉ changed) ++
      changed.filter fun actor => (after.wake? actor).isSome }

def setForeman (timeline : Timeline) (index : Nat) (foreman : Foreman) : Timeline :=
  timeline.settle { timeline with foremen := timeline.foremen.set index foreman }
    (foreman.members.map (.foreman index))

def setLoose (timeline : Timeline) (index : Nat) (work : LooseWork) : Timeline :=
  timeline.settle { timeline with loose := timeline.loose.set index work } [.loose index]

def setSweeper (timeline : Timeline) (index : Nat) (sweeper : Sweeper) : Timeline :=
  timeline.settle { timeline with sweepers := timeline.sweepers.set index sweeper } [.sweeper index]

def advance (timeline : Timeline) : Actor → Timeline
  | .foreman index member =>
    match timeline.foremen[index]? with
    | some foreman =>
      let (foreman, notices, store) :=
        foreman.advance timeline.backend timeline.moment member timeline.store
      (({ timeline with store }.setForeman index foreman).note notices).tick
    | none => timeline
  | .loose index =>
    match timeline.loose[index]? with
    | some work =>
      let (work, notices, store) := work.advance timeline.backend timeline.moment timeline.store
      (({ timeline with store }.setLoose index work).note notices).tick
    | none => timeline
  | .sweeper index =>
    match timeline.sweepers[index]? with
    | some sweeper =>
      let (sweeper, notices, store) :=
        sweeper.advance timeline.backend timeline.moment timeline.store
      (({ timeline with store }.setSweeper index sweeper).note notices).tick
    | none => timeline

def nextWake? (timeline : Timeline) : Option Nat :=
  (timeline.pausing.filterMap timeline.wake?).filter (timeline.elapsed < ·) |>.min?

/-- Time goes on. Those whose pauses end together can take a step again in the order in which
they began to pause. -/
def moveTo (timeline : Timeline) (elapsed : Nat) : Timeline :=
  let woken := timeline.pausing.filter fun actor =>
    timeline.canAdvance elapsed actor && !timeline.canAdvance timeline.elapsed actor
  { timeline with elapsed, ready := timeline.ready ++ woken }

/-- Goes on until all wait and the end is seen, or until the horizon is reached. The fuel bounds
the number of steps. -/
def run (isEnd : Timeline → Bool) (horizon : Option Nat) : Nat → Timeline → Timeline
  | 0, timeline => timeline
  | fuel + 1, timeline =>
    match timeline.ready with
    | actor :: rest =>
      if timeline.canAdvance timeline.elapsed actor then
        run isEnd horizon fuel (timeline.advance actor)
      else run isEnd horizon fuel { timeline with ready := rest }
    | [] =>
      if isEnd timeline then timeline
      else
        match horizon, timeline.nextWake? with
        | none, none => timeline
        | none, some next => run isEnd horizon fuel (timeline.moveTo next)
        | some last, none => timeline.moveTo last
        | some last, some next =>
          if last ≤ next then timeline.moveTo last
          else run isEnd horizon fuel (timeline.moveTo next)

/-- More steps than are ever taken between two ends of pauses. -/
def fuel : Nat := 1000000000000

end Timeline
end TenantQueue
