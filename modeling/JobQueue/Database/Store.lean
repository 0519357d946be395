import JobQueue.Database.Settings
import JobQueue.Database.Table
import JobQueue.Log

/-!
The store over a table of a database. A database in memory starts empty and knows no users; a
table is opened under a name of letters, digits and underscores, which is also the collection of
the records that come from it.
-/

namespace JobQueue.Database

open Time (Instant)

structure NamedTable where
  name : String
  table : Table

abbrev Tables := Keyed NamedTable NamedTable.name

/-- A table by name; one that was never written to is empty. -/
def Tables.get (d : Tables) (name : String) : Table :=
  match d.find? name with
  | some t => t.table
  | none => .empty

def connect (s : Settings) : Except Error Tables × List Log.Entry :=
  let connecting := Log.Entry.info .connection s!"Connecting to database: {s.endpoint}"
  if s.endpoint ≠ Settings.memoryEndpoint then
    (.error (.engine (.unknownEndpoint s.endpoint)), [connecting])
  else
    match s.credentials with
    | some c => (.error (.engine (.unknownUser c.user)), [connecting])
    | none =>
      (.ok .empty,
        [connecting, .info .connection s!"Connected to database: {s.space}/{s.database}"])

def isTableName (name : String) : Bool :=
  name ≠ "" && name.toList.all fun c => c.isAlphanum || c = '_'

structure TableStore where
  tables : Tables
  name : String

namespace TableStore

def openTable (tables : Tables) (name : String) : Except Error TableStore × List Log.Entry :=
  if isTableName name then
    (.ok ⟨tables, name⟩,
      [.info .schema s!"Initializing database schema for table {name}...",
       .info .schema "Database schema initialized"])
  else (.error (.query s!"invalid table name: {Text.quote name}"), [])

def connect (s : Settings) (name : String) : Except Error TableStore × List Log.Entry :=
  match Database.connect s with
  | (.error e, log) => (.error e, log)
  | (.ok tables, log) =>
    let (opened, more) := openTable tables name
    (opened, log ++ more)

def table (s : TableStore) : Table := s.tables.get s.name

def withTable (s : TableStore) (table : Table) : TableStore :=
  { s with tables := s.tables.put ⟨s.name, table⟩ }

/-- What the database answers, with its own errors. -/
def perform (now : Instant) (q : Request) (s : TableStore) : Except Error q.Answer × TableStore :=
  match q with
  | .get id => (s.table.find s.name id, s)
  | .save r =>
    let (a, t) := s.table.upsert now r
    (a, s.withTable t)
  | .reserve id expected time =>
    let (a, t) := s.table.compareAndReserve s.name now id expected time
    (a, s.withTable t)
  | .recordFailure id time =>
    let (a, t) := s.table.countFailure s.name id time
    (a, s.withTable t)
  | .delete id =>
    let (a, t) := s.table.remove id
    (a, s.withTable t)
  | .listDue now window limit => (s.table.due s.name now window limit, s)

/-- Writes a row past the store, as another program may. -/
def writeRow (s : TableStore) (id : String) (row : Row) : TableStore :=
  s.withTable (s.table.write id row)

instance : RecordStore TableStore where
  answer now q s :=
    let (a, s) := perform now q s
    (a.mapError Error.toStoreError, s)

end TableStore

end JobQueue.Database
