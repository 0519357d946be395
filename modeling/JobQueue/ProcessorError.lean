import JobQueue.Registry
import JobQueue.Store

/-!
What can go wrong with a processor as a whole, apart from the jobs that it runs.
-/

namespace JobQueue

inductive ShutdownError
  | deadlineExceeded (busy : Nat)
  deriving DecidableEq, Repr

def ShutdownError.message : ShutdownError → String
  | deadlineExceeded busy => s!"shutdown deadline exceeded with {busy} job(s) still running"

inductive ProcessorError
  | notInitialized
  | registry (e : RegistryError)
  | store (e : StoreError)
  | shutdown (e : ShutdownError)
  deriving DecidableEq, Repr

/-- The error in words; an inner error speaks for itself. -/
def ProcessorError.message : ProcessorError → String
  | notInitialized => "processor is not initialized"
  | registry e => e.message
  | store e => e.message
  | shutdown e => e.message

end JobQueue
