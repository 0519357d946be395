import JobQueue.Text.Blank
import JobQueue.Text.Quoted
import JobQueue.Time.Span

/-!
Settings of a worker pool: how many workers, how long a reservation holds, and how long a batch
waits for room and for results. They come from named variables; one that is absent or blank
leaves the default, and any other has to be a whole number below 2 to the 64th, with an optional
plus sign and blanks around it.
-/

namespace JobQueue

open Time (Span)

structure Settings where
  workers : Nat
  reservationWindowSecs : Nat
  enqueueTimeoutSecs : Nat
  resultTimeoutSecs : Nat
  deriving DecidableEq, Repr

namespace Settings

def defaultWorkers : Nat := 5

def default : Settings :=
  { workers := defaultWorkers
    reservationWindowSecs := 300
    enqueueTimeoutSecs := 30
    resultTimeoutSecs := 300 }

instance : Inhabited Settings := ⟨default⟩

def withWorkers (s : Settings) (workers : Nat) : Settings :=
  { s with workers }

/-- Sets the reservation window, a started second counted whole. -/
def withReservationWindow (s : Settings) (window : Span) : Settings :=
  { s with reservationWindowSecs := window.wholeSeconds }

def withEnqueueTimeout (s : Settings) (timeout : Span) : Settings :=
  { s with enqueueTimeoutSecs := timeout.wholeSeconds }

def withResultTimeout (s : Settings) (timeout : Span) : Settings :=
  { s with resultTimeoutSecs := timeout.wholeSeconds }

def workerCount (s : Settings) : Nat :=
  if s.workers = 0 then defaultWorkers else s.workers

def reservationWindow (s : Settings) : Span := .ofSeconds s.reservationWindowSecs

def enqueueTimeout (s : Settings) : Span := .ofSeconds s.enqueueTimeoutSecs

def resultTimeout (s : Settings) : Span := .ofSeconds s.resultTimeoutSecs

end Settings

/-- The first number that a variable cannot hold: it has 64 bits. -/
def numberLimit : Nat := UInt64.size

inductive NumberFault
  | empty
  | invalidDigit
  | tooLarge
  deriving DecidableEq, Repr

def NumberFault.message : NumberFault → String
  | empty => "cannot parse integer from empty string"
  | invalidDigit => "invalid digit found in string"
  | tooLarge => "number too large to fit in target type"

/-- Takes up digits from the left, and stops at the first that does not fit or is none. -/
def takeUpDigits (n : Nat) : List Char → Except NumberFault Nat
  | [] => .ok n
  | c :: rest =>
    if !c.isDigit then .error .invalidDigit
    else
      let next := n * 10 + (c.toNat - 48)
      if next < numberLimit then takeUpDigits next rest else .error .tooLarge

def readNumber (text : String) : Except NumberFault Nat :=
  match text.toList with
  | [] => .error .empty
  | ['+'] => .error .invalidDigit
  | '+' :: rest => takeUpDigits 0 rest
  | cs => takeUpDigits 0 cs

structure SettingError where
  key : String
  value : String
  reason : NumberFault
  deriving DecidableEq, Repr

def SettingError.message (e : SettingError) : String :=
  s!"invalid value for {e.key}: {Text.quote e.value} ({e.reason.message})"

abbrev Variables := String → Option String

def Variables.number (vars : Variables) (key : String) (default : Nat) :
    Except SettingError Nat :=
  match vars key with
  | none => .ok default
  | some raw =>
    if Text.blank raw then .ok default
    else
      match readNumber (Text.trim raw) with
      | .ok n => .ok n
      | .error reason => .error ⟨key, raw, reason⟩

/-- The settings that the variables give. The first variable that is wrong is reported. -/
def Settings.ofVariables (vars : Variables) : Except SettingError Settings := do
  let d := Settings.default
  let workers ← vars.number "JOBS_WORKER_COUNT" d.workers
  let window ← vars.number "JOBS_RESERVATION_WINDOW_SECS" d.reservationWindowSecs
  let enqueue ← vars.number "JOBS_ENQUEUE_TIMEOUT_SECS" d.enqueueTimeoutSecs
  let result ← vars.number "JOBS_RESULT_TIMEOUT_SECS" d.resultTimeoutSecs
  return ⟨workers, window, enqueue, result⟩

end JobQueue
