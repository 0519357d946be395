import JobQueue.Record

/-!
What a store of records can be asked. Each request concerns one record, or lists the due ones,
and is answered in one step: with an answer of its type or with an error. `RecordStore` is the
interface; nothing is assumed of an implementation.
-/

namespace JobQueue

open Time (Instant Span)

inductive StoreError
  | notFound (id : String)
  | backend (text : String)
  | serialization (text : String)
  deriving DecidableEq, Repr

def StoreError.message : StoreError → String
  | notFound id => s!"record not found: {id}"
  | backend text => s!"store backend error: {text}"
  | serialization text => s!"serialization error: {text}"

/-- What a store can be asked. A reservation is only made over the expected one; a failure is
counted on what is stored; the due records are those without a reservation younger than the
window, the oldest first. -/
inductive Request
  | get (id : String)
  | save (record : Record)
  | reserve (id : String) (expected : Option Instant) (time : Instant)
  | recordFailure (id : String) (time : Instant)
  | delete (id : String)
  | listDue (now : Instant) (window : Span) (limit : Nat)
  deriving Repr

/-- What a request is answered with. A reservation is answered with whether it was made. -/
abbrev Request.Answer : Request → Type
  | get _ => Option Record
  | save _ => Unit
  | reserve _ _ _ => Bool
  | recordFailure _ _ => Record
  | delete _ => Unit
  | listDue _ _ _ => List Record

/-- A store of records: what it answers at a time, and what it holds after that. -/
class RecordStore (σ : Type) where
  answer : (now : Instant) → (q : Request) → σ → Except StoreError q.Answer × σ

end JobQueue
