import TenantQueue.Timeline.Basic

/-! What is asked of foremen, handlers and sweepers from outside while time goes on. -/
namespace TenantQueue.Timeline

def sleepUntil (timeline : Timeline) (elapsed : Nat) : Timeline :=
  if elapsed ≤ timeline.elapsed then timeline
  else timeline.run (fun _ => false) (some elapsed) fuel

def sleep (timeline : Timeline) (milliseconds : Nat) : Timeline :=
  timeline.sleepUntil (timeline.elapsed + milliseconds)

def addForeman (timeline : Timeline) (foreman : Foreman) : Nat × Timeline :=
  (timeline.foremen.length, { timeline with foremen := timeline.foremen ++ [foreman] })

def startForeman (timeline : Timeline) (index : Nat) (foreman : Foreman) :
    Except Failure Timeline := do
  let (started, notices) ← foreman.start
  return (timeline.setForeman index started).note notices

def stopForeman (timeline : Timeline) (index : Nat) : Timeline :=
  match timeline.foremen[index]? with
  | none => timeline
  | some foreman =>
    let (signalled, notices) := foreman.requestStop
    let timeline := (timeline.note notices).setForeman index signalled
    if signalled.lifecycle = .stopping then
      let isOver (timeline : Timeline) : Bool :=
        timeline.foremen[index]?.all Foreman.isOver
      let timeline := timeline.run isOver none fuel
      match timeline.foremen[index]? with
      | none => timeline
      | some foreman =>
        let (stopped, notices) := foreman.completeStop
        (timeline.setForeman index stopped).note notices
    else timeline

/-- Takes a foreman away. The handlers under way go on, and the slots of their tasks are given
back. -/
def dismissForeman (timeline : Timeline) (index : Nat) : Timeline :=
  match timeline.foremen[index]? with
  | none => timeline
  | some foreman =>
    let loose := foreman.slotsHeld.map .release ++ foreman.handlersUnderWay.map .handler
    let places := (List.range loose.length).map fun place => timeline.loose.length + place
    let dismissed := { foreman with workers := [], assigner := .ended }
    let emptied := timeline.settle
      { timeline with foremen := timeline.foremen.set index dismissed }
      (foreman.members.map (.foreman index))
    emptied.settle { emptied with loose := emptied.loose ++ loose } (places.map .loose)

/-- Carries out a job from outside, letting the others work while it pauses. -/
def runJob : Nat → Job.Progress → Timeline → Job.Ending × Timeline
  | 0, _, timeline => (.crashed (.raised none), timeline)
  | fuel + 1, progress, timeline =>
    match progress.ending? with
    | some ending => (ending, timeline)
    | none =>
      if progress.canAdvance timeline.elapsed then
        let (progress, notices, store) :=
          progress.advance timeline.backend timeline.moment false timeline.store
        runJob fuel progress ({ timeline with store }.note notices).tick
      else
        runJob fuel progress (timeline.sleepUntil (progress.wake?.getD (timeline.elapsed + 1)))

def addSweeper (timeline : Timeline) (sweeper : Sweeper) : Nat × Timeline :=
  let index := timeline.sweepers.length
  (index, { timeline with
    sweepers := timeline.sweepers ++ [sweeper]
    ready := timeline.ready ++ [.sweeper index] })

def signalSweeper (timeline : Timeline) (index : Nat) : Timeline :=
  match timeline.sweepers[index]? with
  | some sweeper => timeline.setSweeper index sweeper.requestStop
  | none => timeline

/-- Waits until a sweeper is over. Tells the crash that broke it off, if one did. -/
def joinSweeper (timeline : Timeline) (index : Nat) : Option Crash × Timeline :=
  let isOver (timeline : Timeline) : Bool := timeline.sweepers[index]?.all Sweeper.isOver
  let timeline := timeline.run isOver none fuel
  match timeline.sweepers[index]? with
  | some ⟨_, _, _, .lost crash⟩ => (some crash, timeline)
  | _ => (none, timeline)

def runSweeper (timeline : Timeline) (sweeper : Sweeper) (milliseconds : Nat) :
    Option Crash × Timeline :=
  let (index, timeline) := timeline.addSweeper sweeper
  ((timeline.sleep milliseconds).signalSweeper index).joinSweeper index

def startForemen (timeline : Timeline) : List Nat → Except Failure Timeline
  | [] => .ok timeline
  | index :: rest =>
    match timeline.foremen[index]? with
    | none => startForemen timeline rest
    | some foreman => do
      let started ← timeline.startForeman index foreman
      startForemen started rest

def logInfo (timeline : Timeline) (text : String) : Timeline := timeline.note [.log .info text]

/-- Lets foremen and a sweeper work side by side for some time, then stops all of them. -/
def serve (timeline : Timeline) (foremen : List Foreman) (sweeper : Option Sweeper)
    (milliseconds : Nat) : Except Failure (List ForemanStats × Timeline) := do
  let places := (List.range foremen.length).map fun place => timeline.foremen.length + place
  let timeline ← { timeline with foremen := timeline.foremen ++ foremen }.startForemen places
  let timeline := timeline.logInfo ("Started " ++ Nat.repr foremen.length ++ " foremen")
  let (sweeping, timeline) := match sweeper with
    | none => (none, timeline)
    | some sweeper =>
      let (index, timeline) := timeline.addSweeper sweeper
      (some index, timeline)
  let timeline := (timeline.sleep milliseconds).logInfo "Initiating graceful shutdown"
  let timeline := match sweeping with
    | none => timeline
    | some index => timeline.signalSweeper index
  let timeline := places.foldl stopForeman timeline
  let timeline := match sweeping with
    | none => timeline
    | some index =>
      match timeline.joinSweeper index with
      | (none, timeline) => timeline
      | (some crash, timeline) =>
        timeline.note [.log .error ("Sweeper ended abnormally: panicked with message " ++
          Text.quoted (crash.message?.getD ""))]
  let stats := places.filterMap fun index => (timeline.foremen[index]?).map Foreman.stats
  return (stats, timeline.logInfo "Server stopped")

end TenantQueue.Timeline
