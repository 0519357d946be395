import JobQueue.Handler

/-!
Handlers written as scripts: lists of instructions, each of which becomes an action in the light
of the job and the attempt.
-/

namespace JobQueue

open Time (Instant)

inductive Instruction (σ : Type)
  | sleep (milliseconds : Nat)
  /-- Sleeps as many milliseconds as the payload says at the key. -/
  | sleepField (key : String)
  | fail (text : String)
  /-- Fails with the name of the job. -/
  | refuse
  /-- Fails unless the payload has a text at the key. -/
  | require (key : String)
  /-- Fails before the given attempt. -/
  | failBelow (attempt : Nat)
  | debug (text : String)
  | panic (text : Option String)
  | use (f : Instant → σ → σ)

def defaultSleep : Nat := 200

def Instruction.action? {σ : Type} (context : Context) (job : Job) :
    Instruction σ → Option (Action σ)
  | sleep milliseconds => some (.sleep (.ofMilliseconds milliseconds))
  | sleepField key =>
    let milliseconds := ((job.get? key).bind Json.Value.natural?).getD defaultSleep
    some (.sleep (.ofMilliseconds milliseconds))
  | fail text => some (.stop (.failed text))
  | refuse => some (.stop (.failed s!"refusing {job.name}"))
  | require key =>
    if (job.string? key).isSome then none else some (.stop (.failed s!"missing {key}"))
  | failBelow attempt =>
    if context.attempt.toNat < attempt then
      some (.stop (.failed s!"attempt {context.attempt.toNat} refused"))
    else none
  | debug text => some (.log (context.debug text))
  | panic text => some (.stop (.panicked text))
  | use f => some (.use f)

def Handler.ofScript {σ : Type} (script : List (Instruction σ)) : Handler σ where
  plan context job := script.filterMap (Instruction.action? context job)

end JobQueue
