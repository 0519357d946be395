import JobQueue.Database.Row
import JobQueue.Keyed

/-!
Tables of rows, and the statements that stores run on them. A statement that changes a row does
so before the row is read back, so a row that cannot be read is changed all the same.
-/

namespace JobQueue.Database

open Time (Instant Span)

structure Entry where
  id : String
  row : Row
  deriving DecidableEq, Repr

abbrev Table := Keyed Entry Entry.id

namespace Table

def row? (t : Table) (id : String) : Option Row :=
  (t.find? id).map Entry.row

def write (t : Table) (id : String) (row : Row) : Table :=
  t.put ⟨id, row⟩

def find (t : Table) (collection id : String) : Except Error (Option Record) :=
  match t.row? id with
  | none => .ok none
  | some row => (row.record id collection).map some

def upsert (t : Table) (now : Instant) (r : Record) : Except Error Unit × Table :=
  let row := Row.ofRecord { r with updatedAt := now }
  (row.columns.map fun _ => (), t.write r.id row)

/-- Claims the row of a key, if its reservation has the text of the expected one. -/
def compareAndReserve (t : Table) (collection : String) (now : Instant) (id : String)
    (expected : Option Instant) (time : Instant) : Except Error Bool × Table :=
  if id = "" then (.error (.engine .emptyKey), t)
  else
    match t.row? id with
    | none => (.error (.notFound id), t)
    | some row =>
      -- texts are compared, not instants: another program may have written the row
      if row.reservedAt = reservationText expected then
        let claimed :=
          { row with
            reservedAt := reservationText (some time), updatedAt := some now.microseconds }
        (claimed.columns.map fun _ => true, t.write id claimed)
      else ((row.record id collection).map fun _ => false, t)

def countFailure (t : Table) (collection : String) (id : String) (time : Instant) :
    Except Error Record × Table :=
  if id = "" then (.error (.engine .emptyKey), t)
  else
    match t.row? id with
    | none => (.error (.notFound id), t)
    | some row =>
      if maxInteger ≤ row.attempts then (.error (.engine .counterOverflow), t)
      else
        let counted :=
          { row with
            attempts := row.attempts + 1, reservedAt := "", updatedAt := some time.microseconds }
        (counted.record id collection, t.write id counted)

def remove (t : Table) (id : String) : Except Error Unit × Table :=
  match t.row? id with
  | none => (.error (.notFound id), t)
  | some row => (row.columns.map fun _ => (), t.erase id)

def cutoff (now : Instant) (window : Span) : Instant :=
  (now.before? window.capped).getD .earliest

/-- Whether the older row, or the one with the smaller key. A row without a time of creation
comes first. The statement orders by the time of creation alone: that rows of one time come by
key is assumed of the engine. -/
def olderEntry (e f : Entry) : Bool :=
  match e.row.createdAt, f.row.createdAt with
  | none, none => e.id ≤ f.id
  | none, some _ => true
  | some _, none => false
  | some m, some n => m < n || (m = n && e.id ≤ f.id)

/-- The first rows, the oldest first, whose reservation is empty or not after the cutoff, as
texts. -/
def dueEntries (t : Table) (cutoff : Instant) (limit : Nat) : List Entry :=
  let bound := reservationText (some cutoff)
  ((t.items.filter fun e => e.row.reservedAt = "" ∨ e.row.reservedAt ≤ bound).mergeSort
    olderEntry).take limit

/-- The due records. All columns are read before any reservation. -/
def due (t : Table) (collection : String) (now : Instant) (window : Span) (limit : Nat) :
    Except Error (List Record) := do
  if maxInteger < (limit : Int) then .error (.engine .negativeLimit)
  else
    -- one unreadable row fails the whole list
    let read ← (t.dueEntries (cutoff now window) limit).mapM fun e => do
      return (e.id, ← e.row.columns)
    read.mapM fun (id, columns) => columns.record id collection

end Table

end JobQueue.Database
