import JobQueue.Handler
import JobQueue.Json.Printer

/-!
Four handlers to try a queue with: one that echoes, one that sleeps, one that fails and one that
panics. They use no store.
-/

namespace JobQueue.Handler

open Time (Span)

variable {σ : Type}

def demoSleepSeconds : Nat := 5

def echo : Handler σ where
  plan context job :=
    [.log (context.entry .info .startup s!"Echo job: {job.payload.described}" []),
     .log (context.debug "echoed payload")]

def sleeper : Handler σ where
  plan context job :=
    let seconds := ((job.get? "seconds").bind Json.Value.natural?).getD demoSleepSeconds
    [.log (context.entry .info .startup s!"Sleeping for {seconds} seconds" []),
     .sleep (.ofSeconds seconds)]

def failing : Handler σ where
  plan _ job :=
    if ((job.get? "fail").bind Json.Value.bool?).getD true then
      [.stop (.failed "Intentional failure")]
    else []

def panicking : Handler σ where
  plan _ job := [.stop (.panicked (some s!"Intentional panic in job {job.id}"))]

def demo : List (String × Handler σ) :=
  [("echo", echo), ("sleep", sleeper), ("fail", failing), ("panic", panicking)]

end JobQueue.Handler
