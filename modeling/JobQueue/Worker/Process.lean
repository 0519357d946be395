import JobQueue.Time.Clock
import JobQueue.Worker

/-!
A whole run of one worker with nobody else about: from the record to its outcome. Sleeping is
counted, not waited for.
-/

namespace JobQueue.Worker

open Time (Clock)

variable {σ : Type}

/-- What a run works with: the store, the clock, what was seen so far, and how long handlers
slept. -/
structure Desk (σ : Type) where
  store : σ
  clock : Clock
  seen : List Event
  sleptMilliseconds : Nat

def Desk.ofStore (store : σ) (clock : Clock) : Desk σ := ⟨store, clock, [], 0⟩

def carryOut (desk : Desk σ) : List (Action σ) → Verdict × Desk σ
  | [] => (.succeeded, desk)
  | action :: rest =>
    let (verdict?, logged?, store) := action.perform desk.clock.now desk.store
    let slept :=
      match action with
      | .sleep span => span.waitMilliseconds
      | _ => 0
    let desk :=
      { store
        clock := desk.clock.next
        seen := desk.seen ++ (logged?.map Event.logged).toList
        sleptMilliseconds := desk.sleptMilliseconds + slept }
    match verdict? with
    | some verdict => (verdict, desk)
    | none => carryOut desk rest

def Desk.see (desk : Desk σ) (seen : List Event) : Desk σ :=
  { desk with seen := desk.seen ++ seen }

def ask [RecordStore σ] (w : Worker) (handler? : String → Option (Handler σ))
    (stage : Stage (Handler σ)) (desk : Desk σ) : Stage (Handler σ) × Desk σ :=
  let next := w.call handler? desk.clock.now stage desk.store
  (next.1.1, { desk.see next.1.2 with store := next.2, clock := desk.clock.next })

def handle (record : Record) (context : Context) (plan : List (Action σ)) (desk : Desk σ) :
    Stage (Handler σ) × Desk σ :=
  let done := carryOut desk plan
  let next := onVerdict record context done.1
  (next.1, done.2.see next.2)

def runFrom [RecordStore σ] (w : Worker) (handler? : String → Option (Handler σ))
    (stage : Stage (Handler σ)) (desk : Desk σ) : Outcome × Desk σ :=
  match stage with
  | .claiming record time =>
    let next := w.ask handler? (.claiming record time) desk
    w.runFrom handler? next.1 next.2
  | .losing record time =>
    let next := w.ask handler? (.losing record time) desk
    w.runFrom handler? next.1 next.2
  | .handling record context job handler =>
    let next := handle record context (handler.plan context job) desk
    w.runFrom handler? next.1 next.2
  | .completing record =>
    let next := w.ask handler? (.completing record) desk
    w.runFrom handler? next.1 next.2
  | .failing record cause =>
    let next := w.ask handler? (.failing record cause) desk
    w.runFrom handler? next.1 next.2
  | .done outcome => (outcome, desk)
termination_by stage.stepsLeft
decreasing_by
  · exact stepsLeft_call_lt w handler? _ _ _ rfl
  · exact stepsLeft_call_lt w handler? _ _ _ rfl
  · exact Nat.lt_of_le_of_lt (Nat.le_of_eq (stepsLeft_onVerdict record context _))
      (Nat.lt_succ_self 1)
  · exact stepsLeft_call_lt w handler? _ _ _ rfl
  · exact stepsLeft_call_lt w handler? _ _ _ rfl

def process [RecordStore σ] (w : Worker) (handler? : String → Option (Handler σ))
    (record : Record) (desk : Desk σ) : Outcome × Desk σ :=
  let start := w.begin desk.clock.now record
  w.runFrom handler? start.1 { desk.see start.2 with clock := desk.clock.next }

end JobQueue.Worker
