import JobQueue.Database.Error
import JobQueue.Settings

/-!
Where a database is and how it is entered. The settings come from named variables; one that is
absent or blank leaves the default, blanks around a value are dropped, and credentials are
given whole or not at all.
-/

namespace JobQueue.Database

structure Credentials where
  user : String
  password : String
  deriving DecidableEq, Repr

structure Settings where
  endpoint : String
  space : String
  database : String
  credentials : Option Credentials
  deriving DecidableEq, Repr

namespace Settings

def memoryEndpoint : String := "mem://"

/-- A database in memory; the settings where nothing is said. -/
def memory : Settings :=
  { endpoint := memoryEndpoint, space := "jobs", database := "main", credentials := none }

instance : Inhabited Settings := ⟨memory⟩

def file (path : String) : Settings :=
  { memory with endpoint := "file://" ++ path }

def rocksDb (path : String) : Settings :=
  { memory with endpoint := "rocksdb://" ++ path }

def withNamespace (s : Settings) (name : String) : Settings :=
  { s with space := name }

def withDatabase (s : Settings) (name : String) : Settings :=
  { s with database := name }

def withCredentials (s : Settings) (user password : String) : Settings :=
  { s with credentials := some ⟨user, password⟩ }

end Settings

/-- The value of a variable without blanks around it, unless that leaves nothing. -/
def setting? (vars : Variables) (key : String) : Option String :=
  ((vars key).map Text.trim).filter (· ≠ "")

def hasInfix (part : List Char) : List Char → Bool
  | [] => part.isEmpty
  | c :: rest => part.isPrefixOf (c :: rest) || hasInfix part rest

/-- A user and a password: both or neither. -/
def credentials? : Option String → Option String → Except Error (Option Credentials)
  | some user, some password => .ok (some ⟨user, password⟩)
  | none, none => .ok none
  | _, _ => .error (.invalidSettings "DB_USER and DB_PASS must be set together")

/-- The settings that the variables give. An endpoint has to name its scheme. -/
def Settings.ofVariables (vars : Variables) : Except Error Settings := do
  let endpoint := (setting? vars "DB_ENDPOINT").getD memory.endpoint
  if !hasInfix [':', '/', '/'] endpoint.toList then
    .error (.invalidSettings
      s!"DB_ENDPOINT={endpoint} is not a connection URL (expected mem://, file://, rocksdb://)")
  else
    let credentials ← credentials? (setting? vars "DB_USER") (setting? vars "DB_PASS")
    return {
      endpoint
      space := (setting? vars "DB_NAMESPACE").getD memory.space
      database := (setting? vars "DB_DATABASE").getD memory.database
      credentials }

end JobQueue.Database
