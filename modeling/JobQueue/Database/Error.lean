import JobQueue.Store

/-!
Why a database gives no answer. A store over a database reports missing and unreadable records
as what they are, and everything else as a failure behind the store.
-/

namespace JobQueue.Database

inductive EngineFault
  | unknownEndpoint (endpoint : String)
  | unknownUser (name : String)
  | emptyKey
  | unreadableColumn (name : String)
  | counterOverflow
  | negativeLimit
  deriving DecidableEq, Repr

def EngineFault.message : EngineFault → String
  | unknownEndpoint endpoint => s!"no engine for endpoint {endpoint}"
  | unknownUser name => s!"no user {name}"
  | emptyKey => "a record key must not be empty"
  | unreadableColumn name => s!"column {name} cannot be read"
  | counterOverflow => "the attempt counter is full"
  | negativeLimit => "a limit must not be negative"

inductive Error
  | invalidSettings (text : String)
  | engine (fault : EngineFault)
  | query (text : String)
  | notFound (id : String)
  | serialization (text : String)
  deriving DecidableEq, Repr

namespace Error

def message : Error → String
  | invalidSettings text => s!"invalid database config: {text}"
  | engine fault => s!"Connection error: {fault.message}"
  | query text => s!"Query error: {text}"
  | notFound id => s!"Not found: {id}"
  | serialization text => s!"Serialization error: {text}"

def toStoreError : Error → StoreError
  | notFound id => .notFound id
  | serialization text => .serialization text
  | other => .backend other.message

end Error

end JobQueue.Database
