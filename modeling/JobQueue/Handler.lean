import JobQueue.Context

/-!
Handlers: what is done for a job of a type. Given an attempt, a handler plans a list of actions;
the run of the plan ends with its first verdict, or at its end with success. Actions may use
what the records are stored in.
-/

namespace JobQueue

open Time (Instant Span)

/-- How a handler's run ended. A panic may carry a text. -/
inductive Verdict
  | succeeded
  | failed (text : String)
  | panicked (text : Option String)
  deriving DecidableEq, Repr

def unknownPanic : String := "unknown panic"

inductive Action (σ : Type)
  | sleep (span : Span)
  | log (entry : Log.Entry)
  | use (f : Instant → σ → σ)
  | stop (verdict : Verdict)

/-- What an action does at `now`: a verdict if it ends the run, an entry if it logs one, and what
is stored after it. Only a verdict ends a run. -/
def Action.perform {σ : Type} (now : Instant) (store : σ) :
    Action σ → Option Verdict × Option Log.Entry × σ
  | sleep _ => (none, none, store)
  | log entry => (none, some entry, store)
  | use f => (none, none, f now store)
  | stop verdict => (some verdict, none, store)

structure Handler (σ : Type) where
  plan : Context → Job → List (Action σ)

def verdictOf {σ : Type} : List (Action σ) → Verdict
  | [] => .succeeded
  | .stop v :: _ => v
  | _ :: rest => verdictOf rest

end JobQueue
