import JobQueue.Store

/-!
# Calls of a store

A store is called again and again, each time at what the clock then shows. What is said of every
call of such a run is said of the store as that call finds it (`Along`).
-/

namespace JobQueue

open Time (Instant)

structure Call where
  now : Instant
  request : Request
  deriving Repr

namespace RecordStore

variable {σ : Type} [RecordStore σ]

def reply (s : σ) (c : Call) : Except StoreError c.request.Answer :=
  (answer c.now c.request s).1

def next (s : σ) (c : Call) : σ :=
  (answer c.now c.request s).2

def Along (P : σ → Call → Prop) (s : σ) : List Call → Prop
  | [] => True
  | c :: calls => P s c ∧ Along P (next s c) calls

instance decidableAlong {P : σ → Call → Prop} [∀ s c, Decidable (P s c)] :
    (s : σ) → (calls : List Call) → Decidable (Along P s calls)
  | _, [] => .isTrue trivial
  | s, c :: calls =>
    have := decidableAlong (P := P) (next s c) calls
    inferInstanceAs (Decidable (_ ∧ _))

end RecordStore

end JobQueue
