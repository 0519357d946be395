import JobQueue.Log
import JobQueue.Text.Blank
import JobQueue.Text.Quoted

/-!
The registry of handlers: one for each job type, the first that was registered. Types are
compared as they are, without trimming.
-/

namespace JobQueue

inductive RegistryError
  | duplicate (jobType : String)
  | notFound (jobType : String)
  | emptyType
  deriving DecidableEq, Repr

def RegistryError.message : RegistryError → String
  | duplicate jobType => s!"handler already registered for job type: {jobType}"
  | notFound jobType => s!"no handler registered for job type: {jobType}"
  | emptyType => "handler job type must not be empty"

/-- Handlers by job type, in the order of their registration. -/
structure Registry (α : Type) where
  handlers : List (String × α)
  nodup : (handlers.map Prod.fst).Nodup

namespace Registry

variable {α : Type}

def empty : Registry α := ⟨[], List.nodup_nil⟩

instance : Inhabited (Registry α) := ⟨empty⟩

def find? (g : Registry α) (jobType : String) : Option α :=
  (g.handlers.find? fun h => h.1 = jobType).map Prod.snd

def get (g : Registry α) (jobType : String) : Except RegistryError α :=
  match g.find? jobType with
  | some h => .ok h
  | none => .error (.notFound jobType)

def has (g : Registry α) (jobType : String) : Bool :=
  g.handlers.any fun h => h.1 = jobType

def types (g : Registry α) : List String :=
  (g.handlers.map Prod.fst).mergeSort (fun a b => decide (a ≤ b))

def size (g : Registry α) : Nat := g.handlers.length

def isEmpty (g : Registry α) : Bool := g.handlers.isEmpty

def register (g : Registry α) (jobType : String) (handler : α) :
    Except RegistryError (Registry α) :=
  if Text.blank jobType then .error .emptyType
  else if h : jobType ∈ g.handlers.map Prod.fst then .error (.duplicate jobType)
  else
    .ok
      { handlers := g.handlers ++ [(jobType, handler)]
        nodup := by
          rw [List.map_append, List.nodup_append]
          refine ⟨g.nodup, by simp, ?_⟩
          intro a ha b hb
          simp only [List.map_cons, List.map_nil, List.mem_singleton] at hb
          rintro rfl
          exact h (hb ▸ ha) }

def registered (jobType : String) : Log.Entry :=
  { level := .info, source := .registry, message := "Registered job handler",
    fields := [("job_type", jobType)] }

def describe (g : Registry α) : String :=
  "HandlerRegistry \x7b handlers: [" ++ ", ".intercalate (g.types.map Text.quote) ++ "] \x7d"

end Registry

end JobQueue
