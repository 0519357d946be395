import JobQueue.Log.Filter
import JobQueue.Server

/-!
The program around the server: it starts the server, runs the due jobs at once and then at every
interval, and shuts down when it is interrupted. What it logs and how it ends is all that is seen
of it.
-/

namespace JobQueue

open Time (Clock Span)

def defaultPollSeconds : Nat := 5

def shutdownTimeout : Span := .ofSeconds 30

inductive ProgramError
  | interval (fault : NumberFault)
  | start (e : StartError)
  | stop (e : ProcessorError)
  deriving DecidableEq, Repr

namespace ProgramError

def describedFault : NumberFault → String
  | .empty => "Empty"
  | .invalidDigit => "InvalidDigit"
  | .tooLarge => "PosOverflow"

def describedDatabase : Database.Error → String
  | .invalidSettings text => s!"InvalidConfig({Text.quote text})"
  | .engine fault => s!"Connection({Text.quote fault.message})"
  | .query text => s!"Query({Text.quote text})"
  | .notFound id => s!"NotFound({Text.quote id})"
  | .serialization text => s!"Serialization({Text.quote text})"

def describedStore : StoreError → String
  | .notFound id => s!"NotFound({Text.quote id})"
  | .backend text => s!"Backend({Text.quote text})"
  | .serialization text => s!"Serialization({Text.quote text})"

def describedRegistry : RegistryError → String
  | .duplicate jobType => s!"Duplicate({Text.quote jobType})"
  | .notFound jobType => s!"NotFound({Text.quote jobType})"
  | .emptyType => "EmptyType"

def describedProcessor : ProcessorError → String
  | .notInitialized => "NotInitialized"
  | .registry e => s!"Registry({describedRegistry e})"
  | .store e => s!"Store({describedStore e})"
  | .shutdown (.deadlineExceeded busy) =>
    s!"Shutdown(DeadlineExceeded \x7b busy: {busy} \x7d)"

def describedSetting (e : SettingError) : String :=
  let parts :=
    [s!"key: {Text.quote e.key}", s!"value: {Text.quote e.value}",
      s!"reason: {Text.quote e.reason.message}"]
  "Invalid \x7b " ++ ", ".intercalate parts ++ " \x7d"

/-- The error with its kind and parts named, as the program shows it at its end. -/
def described : ProgramError → String
  | interval fault => s!"ParseIntError \x7b kind: {describedFault fault} \x7d"
  | start (.database e) => describedDatabase e
  | start (.setting e) => describedSetting e
  | start (.processor e) => describedProcessor e
  | start (.store e) => describedStore e
  | stop e => describedProcessor e

end ProgramError

def pollSeconds (vars : Variables) : Except NumberFault Nat :=
  match vars "POLL_INTERVAL_SECS" with
  | none => .ok defaultPollSeconds
  | some raw => (readNumber (Text.trim raw)).map (max 1)

def filterOf (vars : Variables) : Log.Filter :=
  ((vars "RUST_LOG").bind Log.Filter.ofText?).getD .default

structure Program where
  server : Server
  processor : Nat
  pollSeconds : Nat

namespace Program

/-- Starts the program. The identifier is for the first job. -/
def start (vars : Variables) (clock : Clock) (id : String) :
    Except ProgramError Program × List Log.Entry :=
  match JobQueue.pollSeconds vars with
  | .error fault => (.error (.interval fault), [])
  | .ok seconds =>
    match Server.init (.idle clock) vars id with
    | (.error e, _, log) => (.error (.start e), log)
    | (.ok processor, server, log) =>
      (.ok ⟨server, processor, seconds⟩,
        log ++ [.info .server s!"Polling for due jobs every {seconds}s"])

def loggedSince (server : Server) (count : Nat) : List Log.Entry :=
  (server.seen.take (server.seen.length - count)).reverse.filterMap fun s =>
    match s.event with
    | .worker _ (.logged e) => some e
    | _ => none

def failedEntry? (o : JobOutcome) : Option Log.Entry :=
  match o.outcome with
  | .ok () => none
  | .error e =>
    some { level := .warn, source := .server, message := s!"Job failed: {e.message}",
           fields := [("job_id", o.jobId)] }

def pollEntries (outcomes : List JobOutcome) : List Log.Entry :=
  if outcomes.isEmpty then []
  else
    let failed := outcomes.filterMap failedEntry?
    .info .server s!"Processed {outcomes.length} job(s), {failed.length} failed" :: failed

/-- Runs the due jobs, as many as the queue of the pool holds. -/
def poll (p : Program) : Program × List Log.Entry :=
  let limit := ((p.server.host.pool? p.processor).map Pool.capacity).getD 0
  let count := p.server.seen.length
  let (result, server) := p.server.processDue p.processor limit
  let log :=
    match result with
    | .ok outcomes => pollEntries outcomes
    | .error e =>
      [{ level := .error, source := .server, message := s!"Failed to poll due jobs: {e.message}" }]
  ({ p with server }, loggedSince server count ++ log)

def rest (p : Program) : Program :=
  { p with server := p.server.sleep (p.pollSeconds * 1000) }

def stop (p : Program) : Option ProgramError × List Log.Entry :=
  let received := Log.Entry.info .server "Received Ctrl-C, shutting down..."
  match (p.server.stop shutdownTimeout).1 with
  | .ok () => (none, [received, .info .server "Shutdown complete"])
  | .error e => (some (.stop e), [received])

/-- Polls until an interrupt comes, of which what was logged so far decides; at most `budget`
times. -/
def pollUntil (interrupted : List Log.Entry → Bool) :
    (budget : Nat) → Program → List Log.Entry → Program × List Log.Entry
  | 0, p, log => (p, log)
  | budget + 1, p, log =>
    -- an interrupt during a poll is noticed after it
    let (p, more) := p.poll
    let log := log ++ more
    if interrupted log then (p, log) else pollUntil interrupted budget p.rest log

structure Result where
  failure : Option ProgramError
  log : List Log.Entry

def Result.exitCode (r : Result) : Nat := if r.failure.isSome then 1 else 0

def Result.complaint (r : Result) : String :=
  match r.failure with
  | some e => s!"Error: {e.described}"
  | none => ""

/-- Runs the program until it is interrupted, at most through `budget` polls. -/
def run (vars : Variables) (clock : Clock) (id : String) (interrupted : List Log.Entry → Bool)
    (budget : Nat) : Result :=
  match start vars clock id with
  | (.error e, log) => ⟨some e, log⟩
  | (.ok p, log) =>
    let (p, log) := pollUntil interrupted budget p log
    let (failure, last) := p.stop
    ⟨failure, log ++ last⟩

end Program

end JobQueue
