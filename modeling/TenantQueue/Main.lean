import Std.Time.DateTime.Timestamp
import TenantQueue.Session

/-! The command line. A command given in words is carried out on a queue in memory; without
words, commands are read line by line and carried out on one and the same. -/
namespace TenantQueue

/-- The time of day. -/
def readClock : IO Instant := do
  let now ← Std.Time.Timestamp.now
  let nanoseconds := now.toNanosecondsSinceUnixEpoch.val
  return ⟨nanoseconds / 1000000000, (nanoseconds % 1000000000).toNat⟩

def openSession : IO (Except Failure Session) := do
  return Session.begin .standard [] (fun _ _ => none) (← readClock)

/-- The session goes on at the time of day. -/
def resume (session : Session) : IO Session := do
  let start ← readClock
  return { session with timeline := { session.timeline with start, ticks := 0 } }

def carryOutCommand (session : Session) (words : List String) : IO (UInt32 × Session) := do
  match Command.ofWords words with
  | .error usage =>
    IO.eprintln usage.message
    return (2, session)
  | .ok command =>
    match (← resume session).carryOut command with
    | (.printed output none, session) =>
      IO.print output
      return (0, session)
    | (.printed output (some problem), session) =>
      IO.print output
      IO.eprintln ("Error: " ++ problem)
      return (1, session)
    | (_, session) => return (1, session)

partial def carryOutLines (input : IO.FS.Stream) (session : Session) : IO UInt32 := do
  let line ← input.getLine
  if line.isEmpty then return 0
  let words := (line.split Char.isWhitespace).toList.map toString |>.filter (!·.isEmpty)
  if words.isEmpty then carryOutLines input session
  else
    let (_, session) ← carryOutCommand session words
    carryOutLines input session

partial def sweepRepeatedly (session : Session) (queues : List String) (seconds : Nat) :
    IO UInt32 := do
  IO.sleep (UInt32.ofNat (1000 * seconds))
  let (_, session) := (← resume session).carryOut (.sweep queues none)
  sweepRepeatedly session queues seconds

end TenantQueue

def main (words : List String) : IO UInt32 := do
  match ← TenantQueue.openSession with
  | .error failure =>
    IO.eprintln ("Error: " ++ failure.message)
    return 1
  | .ok session =>
    if words.isEmpty then TenantQueue.carryOutLines (← IO.getStdin) session
    else
      match TenantQueue.Command.ofWords words with
      | .ok (.sweep queues (some (seconds + 1))) =>
        TenantQueue.sweepRepeatedly session queues (seconds + 1)
      | _ => return (← TenantQueue.carryOutCommand session words).1
