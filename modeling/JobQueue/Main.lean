import JobQueue.Identifier
import JobQueue.Program
import Std.Async.Signal
import Std.Time.DateTime.Timestamp

/-!
The command line: runs the program on the variables of its environment, in real time, until it
is interrupted.
-/

namespace JobQueue.Main

open JobQueue.Time (Clock Instant)

def variableNames : List String :=
  ["DB_ENDPOINT", "DB_NAMESPACE", "DB_DATABASE", "DB_USER", "DB_PASS", "JOBS_WORKER_COUNT",
   "JOBS_RESERVATION_WINDOW_SECS", "JOBS_ENQUEUE_TIMEOUT_SECS", "JOBS_RESULT_TIMEOUT_SECS",
   "POLL_INTERVAL_SECS", "RUST_LOG"]

def readVariables : IO Variables := do
  let found ← variableNames.filterMapM fun name => do
    return (← IO.getEnv name).map fun value => (name, value)
  return fun name => (found.find? fun v => v.1 = name).map Prod.snd

def readNanoseconds : IO Nat := do
  return (← Std.Time.Timestamp.now).toNanosecondsSinceUnixEpoch.val.toNat

def readClock : IO Clock := do
  let nanoseconds ← readNanoseconds
  return .startingAt ((Instant.ofMicroseconds? (nanoseconds / 1000 : Nat)).getD .epoch)

def newIdentifier : IO String := do
  let nanoseconds ← readNanoseconds
  let bytes ← IO.getRandomBytes 10
  return Identifier.ofParts (nanoseconds / 1000000)
    (bytes.toList.foldl (fun n b => n * 256 + b.toNat) 0)

def print (filter : Log.Filter) (log : List Log.Entry) : IO Unit := do
  (log.filterMap filter.line?).forM IO.println
  (← IO.getStdout).flush

/-- Sleeps, but not beyond an interrupt; says whether one came. -/
partial def rest (interrupt : Std.Async.AsyncTask Int) (milliseconds : Nat) : IO Bool := do
  if (← interrupt.getState) = .finished then return true
  if milliseconds = 0 then return false
  let slice := min milliseconds 100
  IO.sleep slice.toUInt32
  rest interrupt (milliseconds - slice)

/-- Polls until an interrupt comes. -/
partial def pollOn (filter : Log.Filter) (interrupt : Std.Async.AsyncTask Int) (p : Program) :
    IO Program := do
  let p := { p with server := { p.server with clock := ← readClock } }
  let before := p.server.now
  let (p, log) := p.poll
  print filter log
  let elapsed := p.server.now - before
  if ← rest interrupt (max elapsed (p.pollSeconds * 1000)) then return p
  pollOn filter interrupt p

end JobQueue.Main

open JobQueue JobQueue.Main in
def main : IO UInt32 := do
  let vars ← readVariables
  let filter := filterOf vars
  let (started, log) := Program.start vars (← readClock) (← newIdentifier)
  print filter log
  match started with
  | .error e =>
    IO.eprintln s!"Error: {e.described}"
    return 1
  | .ok p =>
    let interrupt ← (← Std.Async.Signal.Waiter.mk .sigint false).wait
    let p ← pollOn filter interrupt p
    let (failure, log) := p.stop
    print filter log
    match failure with
    | none => return 0
    | some e =>
      IO.eprintln s!"Error: {e.described}"
      return 1
