import JobQueue.Pool.Move

/-!
A host runs one processor at a time: a pool of workers, with the store that it works on. Starting
again gives the running processor; stopping forgets it, and a processor started after that is a
new one. Stopped processors stay known by their numbers, for those who still have them at hand.
-/

namespace JobQueue

open Time (Instant)

structure Processor (σ : Type) where
  pool : Pool σ
  store : Nat

/-- Stores, the processors that were started on them, in order, and the one that runs. -/
structure Host (σ : Type) where
  stores : List σ
  processors : List (Processor σ)
  current : Option Nat

namespace Host

variable {σ : Type}

def ofStores (stores : List σ) : Host σ := ⟨stores, [], none⟩

def addStore (h : Host σ) (store : σ) : Nat × Host σ :=
  (h.stores.length, { h with stores := h.stores ++ [store] })

def pool? (h : Host σ) (processor : Nat) : Option (Pool σ) :=
  (h.processors[processor]?).map Processor.pool

def storeOf? (h : Host σ) (processor : Nat) : Option σ :=
  (h.processors[processor]?).bind fun p => h.stores[p.store]?

def withPool (h : Host σ) (processor : Nat) (pool : Pool σ) : Host σ :=
  { h with processors := h.processors.modify processor fun p => { p with pool } }

def withStoreOf (h : Host σ) (processor : Nat) (store : σ) : Host σ :=
  match h.processors[processor]? with
  | some p => { h with stores := h.stores.set p.store store }
  | none => h

def start (h : Host σ) (settings : Settings) (store : Nat) : Nat × Host σ :=
  match h.current with
  | some running => (running, h)
  | none =>
    let processor := h.processors.length
    (processor,
      { h with
        processors := h.processors ++ [⟨.start settings .empty, store⟩]
        current := some processor })

def get (h : Host σ) : Except ProcessorError Nat :=
  match h.current with
  | some running => .ok running
  | none => .error .notInitialized

/-- Forgets the processor that runs; it is the caller's to shut down. -/
def forget (h : Host σ) : Option Nat × Host σ :=
  (h.current, { h with current := none })

def register (h : Host σ) (processor : Nat) (jobType : String) (handler : Handler σ) :
    Except RegistryError (Host σ) :=
  match h.pool? processor with
  | none => .ok h
  | some pool =>
    match pool.registry.register jobType handler with
    | .ok registry => .ok (h.withPool processor { pool with registry })
    | .error e => .error e

def ask? [RecordStore σ] (h : Host σ) (now : Instant) (processor : Nat) (q : Request) :
    Option (Except StoreError q.Answer × Host σ) :=
  (h.storeOf? processor).map fun store =>
    let (a, store) := RecordStore.answer now q store
    (a, h.withStoreOf processor store)

def move? [RecordStore σ] (h : Host σ) (now : Instant) (processor : Nat) (m : Pool.Move) :
    Option (Host σ × List Pool.Event) := do
  let pool ← h.pool? processor
  let store ← h.storeOf? processor
  let (pool, store, events) ← pool.step? now store m
  return ((h.withPool processor pool).withStoreOf processor store, events)

end Host

end JobQueue
