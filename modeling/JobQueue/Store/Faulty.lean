import JobQueue.Store

/-!
A store that refuses requests of chosen kinds with chosen errors and passes all others on.
-/

namespace JobQueue

inductive Request.Kind
  | get
  | save
  | reserve
  | recordFailure
  | delete
  | listDue
  deriving DecidableEq, Repr

def Request.kind : Request → Kind
  | get _ => .get
  | save _ => .save
  | reserve _ _ _ => .reserve
  | recordFailure _ _ => .recordFailure
  | delete _ => .delete
  | listDue _ _ _ => .listDue

/-- A store with the errors that some kinds of requests are refused with. -/
structure FaultyStore (σ : Type) where
  store : σ
  faults : List (Request.Kind × StoreError)

namespace FaultyStore

variable {σ : Type}

def ofStore (store : σ) : FaultyStore σ := ⟨store, []⟩

def fault? (s : FaultyStore σ) (kind : Request.Kind) : Option StoreError :=
  (s.faults.find? fun f => f.1 = kind).map Prod.snd

/-- Sets the error that a kind of requests is refused with, or clears it. -/
def setFault (s : FaultyStore σ) (kind : Request.Kind) (error? : Option StoreError) :
    FaultyStore σ :=
  let others := s.faults.filter fun f => f.1 ≠ kind
  { s with faults := (error?.map fun e => (kind, e)).toList ++ others }

def onStore (s : FaultyStore σ) (f : σ → σ) : FaultyStore σ :=
  { s with store := f s.store }

instance [RecordStore σ] : RecordStore (FaultyStore σ) where
  answer now q s :=
    match s.fault? q.kind with
    | some e => (.error e, s)
    | none =>
      let (a, store) := RecordStore.answer now q s.store
      (a, { s with store })

end FaultyStore

end JobQueue
