import JobQueue.Database.Error
import JobQueue.Json.Value
import JobQueue.Text.Quoted
import JobQueue.Time.Stamp

/-!
Rows: records as a table holds them. Times are whole microseconds, and a reservation is a text
of fixed width, so that the texts compare like the times, or the empty text. What a table holds
need not be a record: a row is read in two steps, first its columns, then its reservation.
-/

namespace JobQueue.Database

open Time (Instant)

/-- The text of a reservation: a stamp with six digits of a second, or nothing. -/
def reservationText : Option Instant → String
  | some time => String.ofList (time.stampChars .micros)
  | none => ""

def readReservation (raw : String) : Except Error (Option Instant) :=
  if raw = "" then .ok none
  else
    match Instant.ofStamp? raw with
    | .ok time => .ok (some time)
    | .error fault => .error (.serialization
        s!"invalid reservation timestamp {Text.quote raw}: {fault.message}")

/-- A row of a table. Times are microseconds from the start of 1970. -/
structure Row where
  payload : String
  attempts : Int
  reservedAt : String
  createdAt : Option Int
  updatedAt : Option Int
  deriving DecidableEq, Repr

/-- The columns of a row, read as what a record needs, with the reservation still as text. -/
structure Columns where
  payload : String
  attempts : UInt32
  reservedAt : String
  createdAt : Instant
  updatedAt : Instant
  deriving DecidableEq, Repr

/-- The least integer that a column can hold, in 64 bits. -/
def minInteger : Int := -0x8000000000000000

def maxInteger : Int := 0x7fffffffffffffff

namespace Row

def ofRecord (r : Record) : Row :=
  { payload := r.payload
    attempts := r.attempts.toNat
    reservedAt := reservationText r.reservedAt
    createdAt := some r.createdAt.microseconds
    updatedAt := some r.updatedAt.microseconds }

def readStamp (name : String) (value? : Option Int) : Except Error Instant :=
  match value?.bind Instant.ofMicroseconds? with
  | some time => .ok time
  | none => .error (.engine (.unreadableColumn name))

def readAttempts (n : Int) : Except Error UInt32 :=
  if 0 ≤ n ∧ n.toNat < UInt32.size then .ok (UInt32.ofNat n.toNat)
  else .error (.engine (.unreadableColumn "attempts"))

def columns (row : Row) : Except Error Columns := do
  let attempts ← readAttempts row.attempts
  let createdAt ← readStamp "created_at" row.createdAt
  let updatedAt ← readStamp "updated_at" row.updatedAt
  return { payload := row.payload, attempts, reservedAt := row.reservedAt, createdAt, updatedAt }

end Row

def Columns.record (c : Columns) (id collection : String) : Except Error Record := do
  let reservedAt ← readReservation c.reservedAt
  return {
    id
    collection
    payload := c.payload
    attempts := c.attempts
    reservedAt
    createdAt := c.createdAt
    updatedAt := c.updatedAt }

def Row.record (row : Row) (id collection : String) : Except Error Record := do
  let c ← row.columns
  c.record id collection

def integer? : Json.Value → Option Int
  | .number (.whole n) => if minInteger ≤ n ∧ n ≤ maxInteger then some n else none
  | _ => none

/-- A column that has a default when it is missing, and is refused when it is of another type. -/
def column? {α : Type} (o : Json.Object) (name : String) (default : α)
    (read : Json.Value → Option α) : Option α :=
  match o.get? name with
  | none | some .null => some default
  | some v => read v

/-- The row that another program writes as JSON: the typed columns have to be of their types,
and the payload has to be there. -/
def Row.ofJson? (v : Json.Value) : Option Row := do
  let o ← v.object?
  let payload ← (o.get? "payload").bind Json.Value.string?
  let attempts ← column? o "attempts" 0 integer?
  let reservedAt ← column? o "reserved_at" "" Json.Value.string?
  return {
    payload
    attempts
    reservedAt
    createdAt := (o.get? "created_at").bind integer?
    updatedAt := (o.get? "updated_at").bind integer? }

end JobQueue.Database
