import JobQueue.Host
import JobQueue.Time.Clock

/-!
Pools in virtual time. Nothing takes time but sleeping and waiting: whatever can happen at a
moment happens, and when nothing can, time goes on to the next moment at which a wait ends. Of
the moves that are possible, `Waits.next?` chooses: a wait ends only when its time has come and
what it waits for is still not there. So every run is a run of the pools.

A caller that waits is served after everybody else. Callers who are not waited for begin when
the first wait begins. A store answers at once, or after everybody else has had a turn.
-/

namespace JobQueue

open Time (Clock Span)

inductive Actor
  | feeder
  | worker (seat : Nat)
  | batch
  | closer
  deriving DecidableEq, Repr

/-- The waits in a pool. Times are in milliseconds. -/
structure Waits where
  /-- When the feeder gives its record up. -/
  feedBy : Nat
  /-- When the batch gives up on a slot. -/
  collectBy : Nat
  /-- When the shutdown is over. -/
  closeBy : Nat
  /-- When the worker of a seat wakes up. -/
  wakeups : List (Option Nat)
  /-- Who waits for room among the results, the first to come first. -/
  posters : List Actor
  deriving Repr

namespace Waits

variable {σ : Type}

def none (workers : Nat) : Waits :=
  { feedBy := 0, collectBy := 0, closeBy := 0, wakeups := List.replicate workers .none,
    posters := [] }

def canPost (w : Waits) (p : Pool σ) (a : Actor) : Bool :=
  p.results.length < p.capacity &&
    match w.posters with
    | [] => true
    | first :: _ => first = a

def isPosting (p : Pool σ) : Actor → Bool
  | .feeder =>
    match p.feeder? with
    | some ⟨_, .report _, _⟩ => true
    | _ => false
  | .worker seat =>
    match p.seats[seat]? with
    | some (.reporting _) => true
    | _ => false
  | _ => false

def sleepOf? (p : Pool σ) (seat : Nat) : Option Nat :=
  match p.seats[seat]? with
  | some (.working _ _ (.handling _ _ _ _) (.sleep span :: _)) => some span.waitMilliseconds
  | _ => .none

def nextOfFeeder? (w : Waits) (p : Pool σ) (now : Nat) : Option Pool.Move :=
  match p.feeder? with
  | .none => .none
  | some ⟨_, .record _, _⟩ =>
    if p.isEmpty then some .refuse
    else if p.queue.length < p.capacity then some .feed
    else if w.feedBy ≤ now then some .giveUp
    else .none
  | some ⟨_, .report _, _⟩ => if w.canPost p .feeder then some .post else .none

def nextOfWorker? (w : Waits) (p : Pool σ) (now seat : Nat) : Option Pool.Move :=
  match p.seats[seat]? with
  | some .free =>
    if p.stopping then some (.leave seat)
    else if !p.queue.isEmpty then some (.take seat)
    else if p.isFed then some (.leave seat)
    else .none
  | some (.working _ _ stage _) =>
    if stage.asksStore then some (.work seat)
    else
      match w.wakeups[seat]? with
      | some (some time) => if time ≤ now then some (.act seat) else .none
      | _ => some (.act seat)
  | some (.reporting _) => if w.canPost p (.worker seat) then some (.handOver seat) else .none
  | _ => .none

def nextOfBatch? (w : Waits) (p : Pool σ) (now : Nat) : Option Pool.Move :=
  match p.turn with
  | .none => if p.line.isEmpty then .none else some .begin
  | some _ =>
    if !p.results.isEmpty then some .collect
    else if w.collectBy ≤ now then some .expire
    else .none

def nextOfCloser? (w : Waits) (p : Pool σ) (now : Nat) : Option Pool.Move :=
  if p.closing = .draining then
    if p.isEmpty then some .drained
    else if w.closeBy ≤ now then some .deadline
    else .none
  else .none

def next? (w : Waits) (p : Pool σ) (now : Nat) : Actor → Option Pool.Move
  | .feeder => w.nextOfFeeder? p now
  | .worker seat => w.nextOfWorker? p now seat
  | .batch => w.nextOfBatch? p now
  | .closer => w.nextOfCloser? p now

/-- Puts an actor that finds no room for its report at the end of those who wait for it. -/
def joinPosters (w : Waits) (p : Pool σ) (a : Actor) : Waits :=
  if isPosting p a && !w.posters.contains a then { w with posters := w.posters ++ [a] } else w

def afterMove (w : Waits) (now : Nat) (a : Actor) (m : Pool.Move) (p : Pool σ) : Waits :=
  let feedBy := now + p.settings.enqueueTimeout.waitMilliseconds
  let collectBy := now + p.settings.resultTimeout.waitMilliseconds
  let w :=
    match m with
    | .feed => { w with feedBy }
    | .post => { w with feedBy, posters := w.posters.erase a }
    | .handOver _ => { w with posters := w.posters.erase a }
    | .begin => { w with feedBy, collectBy }
    | .collect | .expire => { w with collectBy }
    | _ => w
  -- a feeder whose batch is over waits for nothing
  let w := if p.feeder?.isNone then { w with posters := w.posters.erase .feeder } else w
  match a with
  | .worker seat => { w with wakeups := w.wakeups.set seat ((sleepOf? p seat).map (now + ·)) }
  | _ => w

def dues (w : Waits) (p : Pool σ) (now : Nat) : List Nat :=
  let feeding :=
    match p.feeder? with
    | some ⟨_, .record _, _⟩ => [w.feedBy]
    | _ => []
  let collecting := if p.turn.isSome then [w.collectBy] else []
  let closing := if p.closing = .draining then [w.closeBy] else []
  (feeding ++ collecting ++ closing ++ w.wakeups.filterMap id).filter (now < ·)

end Waits

structure Sighting where
  processor : Nat
  event : Pool.Event
  deriving Repr

structure Timeline (σ : Type) where
  now : Nat
  clock : Clock
  host : Host σ
  /-- The waits at the processors. -/
  waits : List Waits
  /-- What was seen, the latest first. -/
  seen : List Sighting
  /-- Batches whose callers have not begun, by processor. -/
  unbegun : List (Nat × Submission)
  nextTicket : Nat
  /-- How many moves there were. -/
  moves : Nat
  /-- Whether workers that ask the store let others move before the answer. -/
  answersLater : Bool

namespace Timeline

variable {σ : Type}

def start (clock : Clock) (host : Host σ) : Timeline σ :=
  { now := 0
    clock
    host
    waits := host.processors.map fun p => .none p.pool.seats.length
    seen := []
    unbegun := []
    nextTicket := 0
    moves := 0
    answersLater := false }

/-- Changes the host. A processor that is new has no waits. -/
def withHost (t : Timeline σ) (host : Host σ) : Timeline σ :=
  let new := (host.processors.drop t.waits.length).map fun p => Waits.none p.pool.seats.length
  { t with host, waits := t.waits ++ new }

def withWaits (t : Timeline σ) (processor : Nat) (w : Waits) : Timeline σ :=
  { t with waits := t.waits.set processor w }

def move? [RecordStore σ] (t : Timeline σ) (processor : Nat) (a : Actor) (m : Pool.Move) :
    Option (Timeline σ) := do
  let w ← t.waits[processor]?
  let (host, events) ← t.host.move? t.clock.now processor m
  let pool ← host.pool? processor
  return {
    t.withWaits processor (w.afterMove t.now a m pool) with
    host
    clock := t.clock.next
    seen := events.reverse.map (Sighting.mk processor) ++ t.seen
    moves := t.moves + 1 }

def advance? [RecordStore σ] (t : Timeline σ) (processor : Nat) (a : Actor) :
    Option (Timeline σ) := do
  let w ← t.waits[processor]?
  let pool ← t.host.pool? processor
  let m ← w.next? pool t.now a
  t.move? processor a m

/-- Puts an actor in line for the results, if it has a report that finds no room. -/
def enlist (t : Timeline σ) (processor : Nat) (a : Actor) : Timeline σ :=
  match t.waits[processor]?, t.host.pool? processor with
  | some w, some pool => t.withWaits processor (w.joinPosters pool a)
  | _, _ => t

/-- Whether an actor that moved is to let others move: a worker does after every record, and
while it waits for a store that answers later. -/
def yields (t : Timeline σ) (processor : Nat) : Actor → Bool
  | .worker seat =>
    match (t.host.pool? processor).bind fun pool => pool.seats[seat]? with
    | some .free => true
    | some (.working _ _ stage _) => t.answersLater && stage.asksStore
    | _ => false
  | _ => false

/-- Lets an actor move as long as it can, at most `budget` times. -/
def exhaust [RecordStore σ] (processor : Nat) (a : Actor) :
    (budget : Nat) → Timeline σ → Timeline σ
  | 0, t => t
  | budget + 1, t =>
    match t.advance? processor a with
    | none => t.enlist processor a
    | some t => if t.yields processor a then t else exhaust processor a budget t

def foremost? (t : Timeline σ) (processor : Nat) : Option Nat :=
  (t.host.pool? processor).bind fun pool =>
    match pool.turn, pool.line with
    | some turn, _ => some turn.ticket
    | none, next :: _ => some next.ticket
    | none, [] => none

def isAwaited (t : Timeline σ) (awaited : List Nat) (processor : Nat) : Bool :=
  (t.foremost? processor).any awaited.contains

/-- Lets everybody at a processor move in turn, except the callers that are waited for. -/
def roundAt [RecordStore σ] (budget : Nat) (awaited : List Nat) (t : Timeline σ)
    (processor : Nat) : Timeline σ :=
  match t.host.pool? processor with
  | none => t
  | some pool =>
    -- records are brought in before workers look for them, reports before the batch does
    let t := exhaust processor .feeder budget t
    let t := (List.range pool.seats.length).foldl
      (fun t seat => exhaust processor (.worker seat) budget t) t
    if t.isAwaited awaited processor then t else exhaust processor .batch budget t

def round [RecordStore σ] (budget : Nat) (awaited : List Nat) (t : Timeline σ) : Timeline σ :=
  (List.range t.host.processors.length).foldl (roundAt budget awaited) t

/-- Lets everybody move until nobody can, except the callers that are waited for. -/
def quiesce [RecordStore σ] (awaited : List Nat) : (budget : Nat) → Timeline σ → Timeline σ
  | 0, t => t
  | budget + 1, t =>
    let next := t.round (budget + 1) awaited
    if next.moves = t.moves then next else quiesce awaited budget next

def serveBatches [RecordStore σ] (awaited : List Nat) (processor : Nat) :
    (budget : Nat) → Timeline σ → Timeline σ
  | 0, t => t
  | budget + 1, t =>
    if t.isAwaited awaited processor then
      match t.advance? processor .batch with
      | some t => serveBatches awaited processor budget t
      | none => t
    else t

/-- Lets the callers that are waited for move: batches and shutdowns. -/
def serve [RecordStore σ] (budget : Nat) (awaited : List Nat) (t : Timeline σ) : Timeline σ :=
  (List.range t.host.processors.length).foldl
    (fun t processor =>
      exhaust processor .closer budget (serveBatches awaited processor budget t)) t

def beginAll [RecordStore σ] (t : Timeline σ) : Timeline σ :=
  t.unbegun.foldl
    (fun t (processor, s) => (t.move? processor .batch (.submit s.ticket s.records)).getD t)
    { t with unbegun := [] }

def nextDue? (t : Timeline σ) (wakeAt? : Option Nat) : Option Nat :=
  let dues := (t.waits.zip t.host.processors).flatMap fun (w, p) => w.dues p.pool t.now
  (dues ++ wakeAt?.toList.filter (t.now < ·)).min?

/-- Goes on until `isOver`, for a caller who waits for some batches or sleeps until a time. -/
def runUntil [RecordStore σ] (isOver : Timeline σ → Bool) (awaited : List Nat)
    (wakeAt? : Option Nat) : (budget : Nat) → Timeline σ → Timeline σ
  | 0, t => t
  | budget + 1, t =>
    -- first everybody else, then the caller; time goes on only when nobody could move
    let t := t.beginAll.quiesce awaited (budget + 1)
    let served := t.serve (budget + 1) awaited
    if isOver served then served
    else if served.moves ≠ t.moves then runUntil isOver awaited wakeAt? budget served
    else
      match served.nextDue? wakeAt? with
      | some time => runUntil isOver awaited wakeAt? budget { served with now := time }
      | none => served

/-- More moves than any run makes. -/
def patience : Nat := 0x10000000000

/-- A caller waits: it is served at once, and then after everybody else, until `isOver`. -/
def await [RecordStore σ] (isOver : Timeline σ → Bool) (awaited : List Nat)
    (wakeAt? : Option Nat) (t : Timeline σ) : Timeline σ :=
  let t := t.serve patience awaited
  if isOver t then t else runUntil isOver awaited wakeAt? patience t

def returned? (t : Timeline σ) (ticket : Nat) : Option (List JobOutcome) :=
  t.seen.findSome? fun s =>
    match s.event with
    | .returned n outcomes => if n = ticket then some outcomes else none
    | _ => none

def newTicket (t : Timeline σ) : Nat × Timeline σ :=
  (t.nextTicket, { t with nextTicket := t.nextTicket + 1 })

def submitAll [RecordStore σ] (processor : Nat) : List (List Record) → Timeline σ →
    List Nat × Timeline σ
  | [], t => ([], t)
  | records :: rest, t =>
    let (ticket, t) := t.newTicket
    let t := (t.move? processor .batch (.submit ticket records)).getD t
    let (tickets, t) := submitAll processor rest t
    (ticket :: tickets, t)

def haveReturned (tickets : List Nat) (t : Timeline σ) : Bool :=
  tickets.all fun n => (t.returned? n).isSome

def awaitBatches [RecordStore σ] (tickets : List Nat) (t : Timeline σ) :
    List (List JobOutcome) × Timeline σ :=
  let t := t.await (haveReturned tickets) tickets none
  (tickets.map fun n => (t.returned? n).getD [], t)

def join [RecordStore σ] (ticket : Nat) (t : Timeline σ) : List JobOutcome × Timeline σ :=
  let t := t.await (haveReturned [ticket]) [] none
  ((t.returned? ticket).getD [], t)

def processBatches [RecordStore σ] (processor : Nat) (batches : List (List Record))
    (t : Timeline σ) : List (List JobOutcome) × Timeline σ :=
  let (tickets, t) := submitAll processor batches t
  t.awaitBatches tickets

def processJobs [RecordStore σ] (processor : Nat) (records : List Record) (t : Timeline σ) :
    List JobOutcome × Timeline σ :=
  let (outcomes, t) := t.processBatches processor [records]
  (outcomes.flatten, t)

def processDue [RecordStore σ] (processor limit : Nat) (t : Timeline σ) :
    Except StoreError (List JobOutcome) × Timeline σ :=
  match t.host.pool? processor with
  | none => (.ok [], t)
  | some pool =>
    let now := t.clock.now
    match t.host.ask? now processor (.listDue now pool.settings.reservationWindow limit) with
    | none => (.ok [], t)
    | some (answer, host) =>
      let t := { t with host, clock := t.clock.next }
      match answer with
      | .error e => (.error e, t)
      | .ok due =>
        let (outcomes, t) := t.processJobs processor due
        (.ok outcomes, t)

def processLater (processor : Nat) (records : List Record) (t : Timeline σ) :
    Nat × Timeline σ :=
  let (ticket, t) := t.newTicket
  (ticket, { t with unbegun := t.unbegun ++ [(processor, ⟨ticket, records⟩)] })

def sleep [RecordStore σ] (milliseconds : Nat) (t : Timeline σ) : Timeline σ :=
  let wakeAt := t.now + milliseconds
  t.await (fun t => wakeAt ≤ t.now) [] (some wakeAt)

/-- How many calls to shut a processor down have returned, and with what the last did. -/
def shutResults (t : Timeline σ) (processor : Nat) : List (Except ShutdownError Unit) :=
  t.seen.filterMap fun s =>
    match s.event with
    | .shut result => if s.processor = processor then some result else none
    | _ => none

def shutdown [RecordStore σ] (processor : Nat) (timeout : Span) (t : Timeline σ) :
    Except ShutdownError Unit × Timeline σ :=
  let before := (t.shutResults processor).length
  let t :=
    match t.waits[processor]? with
    | some w => t.withWaits processor { w with closeBy := t.now + timeout.waitMilliseconds }
    | none => t
  let t := (t.move? processor .closer .shutdown).getD t
  let t := t.await (fun t => before < (t.shutResults processor).length) [] none
  (((t.shutResults processor).head?).getD (.ok ()), t)

def stop [RecordStore σ] (timeout : Span) (t : Timeline σ) :
    Except ProcessorError Unit × Timeline σ :=
  let (running?, host) := t.host.forget
  let t := { t with host }
  match running? with
  | none => (.ok (), t)
  | some processor =>
    let (result, t) := t.shutdown processor timeout
    (result.mapError .shutdown, t)

end Timeline

end JobQueue
