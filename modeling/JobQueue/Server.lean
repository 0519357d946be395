import JobQueue.Database.Store
import JobQueue.Handler.Demo
import JobQueue.Timeline

/-!
The server: a host whose processors work on tables of a database and run the demo jobs. Starting
it opens the database that the variables name, starts the processor, registers the handlers and
puts a first job into a queue in which nothing waits.
-/

namespace JobQueue

open Time (Instant)

inductive StartError
  | database (e : Database.Error)
  | setting (e : SettingError)
  | processor (e : ProcessorError)
  | store (e : StoreError)
  deriving DecidableEq, Repr

abbrev Server := Timeline Database.TableStore

namespace Server

/-- A server that runs nothing. A database takes its time to answer. -/
def idle (clock : Time.Clock) : Server :=
  { Timeline.start clock (.ofStores []) with answersLater := true }

def demoPayload : Json.Value :=
  .object
    [("type", .string "echo"), ("name", .string "Demo echo"),
     ("description", .string "Seeded at startup"), ("message", .string "hello")]

/-- Registers handlers one after the other, up to the first that is refused, and logs those that
were registered. -/
def registerAll (h : Host Database.TableStore) (processor : Nat) :
    List (String × Handler Database.TableStore) →
    Except RegistryError (Host Database.TableStore) × List Log.Entry
  | [] => (.ok h, [])
  | (jobType, handler) :: rest =>
    match h.register processor jobType handler with
    | .error e => (.error e, [])
    | .ok h =>
      let (result, log) := registerAll h processor rest
      (result, Registry.registered jobType :: log)

def askStore (s : Server) (store : Nat) (q : Request) :
    Except StartError q.Answer × Server :=
  match s.host.stores[store]? with
  | none => (.error (.store (.backend "no store")), s)
  | some content =>
    let (answer, content) := RecordStore.answer s.clock.now q content
    (answer.mapError .store,
      { s with
        host := { s.host with stores := s.host.stores.set store content }
        clock := s.clock.next })

/-- Puts a first job, with the identifier it is given, into a store in which nothing is due. -/
def seed (s : Server) (store : Nat) (settings : Settings) (id : String) :
    Except StartError Unit × Server × List Log.Entry :=
  match askStore s store (.listDue s.clock.now settings.reservationWindow 1) with
  | (.error e, s) => (.error e, s, [])
  | (.ok (_ :: _), s) => (.ok (), s, [])
  | (.ok [], s) =>
    let seeding := Log.Entry.info .startup "Seeding demo job..."
    let record := Record.ofPayload id demoPayload s.clock.now
    match askStore { s with clock := s.clock.next } store (.save record) with
    | (.error e, s) => (.error e, s, [seeding])
    | (.ok (), s) => (.ok (), s, [seeding, .info .startup s!"Seeded demo job: {id}"])

/-- Starts the server and gives the processor that runs. A new database is opened even if a
processor runs already, which then stays on its own. The identifier is for the first job. -/
def init (s : Server) (vars : Variables) (id : String) :
    Except StartError Nat × Server × List Log.Entry :=
  let starting := Log.Entry.info .startup "Initializing job processor..."
  match Database.Settings.ofVariables vars with
  | .error e => (.error (.database e), s, [starting])
  | .ok databaseSettings =>
    match Settings.ofVariables vars with
    | .error e => (.error (.setting e), s, [starting])
    | .ok settings =>
      match Database.TableStore.connect databaseSettings queueCollection with
      | (.error e, log) => (.error (.database e), s, starting :: log)
      | (.ok table, log) =>
        -- while a processor runs, this gives that one, and its handlers are there already
        let (store, host) := s.host.addStore table
        let (processor, host) := host.start settings store
        match registerAll host processor Handler.demo with
        | (.error e, registered) =>
          (.error (.processor (.registry e)), s.withHost host, starting :: log ++ registered)
        | (.ok host, registered) =>
          let running := ((host.pool? processor).map Pool.settings).getD settings
          let (result, s, seeded) := seed (s.withHost host) store running id
          let log := starting :: log ++ registered ++ seeded
          match result with
          | .error e => (.error e, s, log)
          | .ok () => (.ok processor, s, log ++ [.info .startup "Job processor initialized"])

end Server

end JobQueue
