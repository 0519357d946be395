import JobQueue.Pool.State

/-!
What can happen in a pool, one move at a time. `step?` gives the pool after a move, or nothing
when the move is not possible; every run of a pool is a list of possible moves. Which of them
happens when is left open: a wait may end whenever what it waits for is not there.

Between two moves any other one may come, but no move is seen half done, and some take together
what a pool does in several steps. `take?` receives a record, counts its worker as busy and goes
on to the worker's first question to the store; `work?` and `act?` go on to whatever the worker
waits for next. `deadline?` tells the workers to leave and counts the busy ones. `finish` ends a
feeder at once, where one that is just being run would go on to its next wait.
-/

namespace JobQueue.Pool

open Time (Instant)

inductive Move
  /-- A caller submits a batch under a ticket. -/
  | submit (ticket : Nat) (records : List Record)
  /-- The next batch gets its turn. -/
  | begin
  /-- The feeder brings its record into the queue. -/
  | feed
  /-- The feeder's wait for room in the queue ends. -/
  | giveUp
  /-- The feeder finds that all workers have left. -/
  | refuse
  /-- The feeder reports a record that it did not get rid of. -/
  | post
  /-- A free worker takes the next record. -/
  | take (seat : Nat)
  /-- A free worker leaves. -/
  | leave (seat : Nat)
  /-- A busy worker gets an answer of the store. -/
  | work (seat : Nat)
  /-- A busy worker carries out the next action of its handler. -/
  | act (seat : Nat)
  /-- A worker hands its report over. -/
  | handOver (seat : Nat)
  /-- The batch takes the next report. -/
  | collect
  /-- The batch's wait for a report ends. -/
  | expire
  /-- A caller asks for the pool to be shut down. -/
  | shutdown
  /-- The call that waits for the workers sees that all have left. -/
  | drained
  /-- The deadline of that call passes. -/
  | deadline
  deriving DecidableEq, Repr

inductive Event
  /-- A call returned the outcomes of its batch. -/
  | returned (ticket : Nat) (outcomes : List JobOutcome)
  /-- A call to shut the pool down returned. -/
  | shut (result : Except ShutdownError Unit)
  | worker (seat : Nat) (event : Worker.Event)
  deriving Repr

variable {σ : Type}

abbrev Next (σ : Type) := Pool σ × σ × List Event

def refusal (records : List Record) : List JobOutcome :=
  records.map fun r => ⟨r.id, .error .poolClosed⟩

/-- Takes a batch into the line. An empty one is returned at once. -/
def submit (p : Pool σ) (ticket : Nat) (records : List Record) : Pool σ × List Event :=
  if records.isEmpty then (p, [.returned ticket []])
  else ({ p with line := p.line ++ [⟨ticket, records⟩] }, [])

def begin? (p : Pool σ) : Option (Pool σ × List Event) :=
  match p.turn, p.line with
  | none, next :: rest =>
    let batch := p.nextBatch
    let p := { p with line := rest, nextBatch := batch + 1 }
    if p.accepting then
      some
        ({ p with
            turn := some
              ⟨next.ticket, .ofRecords batch next.records, Feeder.ofRecords? batch next.records⟩ },
          [])
    else some (p, [.returned next.ticket (refusal next.records)])
  | _, _ => none

def withFeeder (p : Pool σ) (feeder : Option Feeder) : Pool σ :=
  { p with turn := p.turn.map fun t => { t with feeder } }

def feed? (p : Pool σ) : Option (Pool σ) :=
  match p.feeder? with
  | some ⟨batch, .record record, rest⟩ =>
    if p.queue.length < p.capacity ∧ !p.isEmpty then
      let p := { p with queue := p.queue ++ [Assignment.mk batch record] }
      some (p.withFeeder (Feeder.ofRecords? batch rest))
    else none
  | _ => none

def reject (p : Pool σ) (f : Feeder) (record : Record) (e : JobError) : Pool σ :=
  p.withFeeder (some { f with load := .report ⟨f.batch, record.id, .error e⟩ })

def giveUp? (p : Pool σ) : Option (Pool σ) :=
  match p.feeder? with
  | some ⟨batch, .record record, rest⟩ =>
    if p.capacity ≤ p.queue.length ∧ !p.isEmpty then
      some (p.reject ⟨batch, .record record, rest⟩ record .enqueueTimeout)
    else none
  | _ => none

def refuse? (p : Pool σ) : Option (Pool σ) :=
  match p.feeder? with
  | some ⟨batch, .record record, rest⟩ =>
    if p.isEmpty then some (p.reject ⟨batch, .record record, rest⟩ record .poolClosed) else none
  | _ => none

def post? (p : Pool σ) : Option (Pool σ) :=
  match p.feeder? with
  | some ⟨batch, .report report, rest⟩ =>
    if p.results.length < p.capacity then
      some ({ p with results := p.results ++ [report] }.withFeeder (Feeder.ofRecords? batch rest))
    else none
  | _ => none

def withSeat (p : Pool σ) (seat : Nat) (s : Seat σ) : Pool σ :=
  { p with seats := p.seats.set seat s }

def seen (seat : Nat) (events : List Worker.Event) : List Event :=
  events.map (.worker seat)

def take? (p : Pool σ) (now : Instant) (seat : Nat) : Option (Pool σ × List Event) :=
  match p.seats[seat]?, p.queue with
  | some .free, a :: rest =>
    if p.stopping then none
    else
      let (stage, events) := (p.worker seat).begin now a.record
      some
        ({ p with queue := rest }.withSeat seat (.ofStage a.batch a.record.id stage),
          seen seat events)
  | _, _ => none

/-- A free worker leaves, if it is told to or nothing is left to do. What waits in the queue
when the last worker leaves is lost. -/
def leave? (p : Pool σ) (seat : Nat) : Option (Pool σ) :=
  match p.seats[seat]? with
  | some .free =>
    if p.stopping ∨ (p.isFed ∧ p.queue.isEmpty) then
      -- nobody is left to take what the queue holds once the last worker is gone
      let p := p.withSeat seat .left
      some { p with queue := if p.isEmpty then [] else p.queue }
    else none
  | _ => none

def work? [RecordStore σ] (p : Pool σ) (now : Instant) (seat : Nat) (store : σ) :
    Option (Next σ) :=
  match p.seats[seat]? with
  | some (.working batch jobId stage _) =>
    if stage.asksStore then
      let ((stage, events), store) := (p.worker seat).call p.registry.find? now stage store
      some (p.withSeat seat (.ofStage batch jobId stage), store, seen seat events)
    else none
  | _ => none

def act? (p : Pool σ) (now : Instant) (seat : Nat) (store : σ) : Option (Next σ) :=
  match p.seats[seat]? with
  | some (.working batch jobId (.handling record context job handler) plan) =>
    -- the end of a plan is success
    let (verdict?, logged?, store, rest) :=
      match plan with
      | [] => (some Verdict.succeeded, none, store, [])
      | action :: rest =>
        let (verdict?, logged?, store) := action.perform now store
        (verdict?, logged?, store, rest)
    let logged := (logged?.map Worker.Event.logged).toList
    match verdict? with
    | some verdict =>
      let (stage, events) := Worker.onVerdict record context verdict
      some (p.withSeat seat (.ofStage batch jobId stage), store, seen seat (logged ++ events))
    | none =>
      some
        (p.withSeat seat (.working batch jobId (.handling record context job handler) rest),
          store, seen seat logged)
  | _ => none

def handOver? (p : Pool σ) (seat : Nat) : Option (Pool σ) :=
  match p.seats[seat]? with
  | some (.reporting report) =>
    if p.results.length < p.capacity then
      some ({ p with results := p.results ++ [report] }.withSeat seat .free)
    else none
  | _ => none

/-- Ends the turn of a batch, and with it its feeder. -/
def finish (p : Pool σ) (t : Turn) (c : Collection) : Pool σ × List Event :=
  ({ p with turn := none }, [.returned t.ticket c.outcomes])

def settle (p : Pool σ) (t : Turn) (c : Collection) : Pool σ × List Event :=
  if c.isComplete then p.finish t c else ({ p with turn := some { t with collection := c } }, [])

def collect? (p : Pool σ) : Option (Pool σ × List Event) :=
  match p.turn, p.results with
  | some t, r :: rest => some ({ p with results := rest }.settle t (t.collection.receive r))
  | _, _ => none

def expire? (p : Pool σ) : Option (Pool σ × List Event) :=
  match p.turn, p.results with
  | some t, [] =>
    match t.collection.expire? with
    | some c => some (p.settle t c)
    | none => some (p.finish t t.collection)
  | _, _ => none

/-- Closes the pool to new batches. Only the first call waits for the workers. -/
def shutdown (p : Pool σ) : Pool σ × List Event :=
  match p.closing with
  | .notAsked => ({ p with accepting := false, closing := .draining }, [])
  | _ => ({ p with accepting := false }, [.shut (.ok ())])

def drained? (p : Pool σ) : Option (Pool σ × List Event) :=
  if p.closing = .draining ∧ p.isEmpty then some ({ p with closing := .over }, [.shut (.ok ())])
  else none

/-- The answer of a shutdown whose deadline has passed: an error only if a job is running. -/
def deadlineResult (p : Pool σ) : Except ShutdownError Unit :=
  if p.busyCount = 0 then .ok () else .error (.deadlineExceeded p.busyCount)

def deadline? (p : Pool σ) : Option (Pool σ × List Event) :=
  if p.closing = .draining ∧ !p.isEmpty then
    some ({ p with closing := .over, stopping := true }, [.shut p.deadlineResult])
  else none

def step? [RecordStore σ] (now : Instant) (p : Pool σ) (store : σ) (m : Move) :
    Option (Next σ) :=
  let quiet (p? : Option (Pool σ)) : Option (Next σ) := p?.map fun p => (p, store, [])
  let loud (p? : Option (Pool σ × List Event)) : Option (Next σ) :=
    p?.map fun (p, events) => (p, store, events)
  match m with
  | .submit ticket records => loud (some (p.submit ticket records))
  | .begin => loud p.begin?
  | .feed => quiet p.feed?
  | .giveUp => quiet p.giveUp?
  | .refuse => quiet p.refuse?
  | .post => quiet p.post?
  | .take seat => loud (p.take? now seat)
  | .leave seat => quiet (p.leave? seat)
  | .work seat => p.work? now seat store
  | .act seat => p.act? now seat store
  | .handOver seat => quiet (p.handOver? seat)
  | .collect => loud p.collect?
  | .expire => loud p.expire?
  | .shutdown => loud (some p.shutdown)
  | .drained => loud p.drained?
  | .deadline => loud p.deadline?

end JobQueue.Pool
