import JobQueue.Decimal.Binary64

/-!
JSON values. Objects keep their fields in the order in which the keys first appeared; writing
a key again keeps its place and replaces its value.
-/

namespace JobQueue.Json

open Decimal (Binary64)

inductive Number
  | whole (n : Int)
  | double (x : Binary64)
  deriving DecidableEq, Repr

inductive Value
  | null
  | bool (b : Bool)
  | number (n : Number)
  | string (s : String)
  | array (items : List Value)
  | object (fields : List (String × Value))
  deriving Repr

/-- The fields of an object, in the order in which their keys first appeared. -/
abbrev Object := List (String × Value)

namespace Object

def get? : Object → String → Option Value
  | [], _ => none
  | (k, v) :: rest, key => if k = key then some v else get? rest key

/-- Sets a key: at its place if it is there, else at the end. -/
def insert : Object → String → Value → Object
  | [], key, value => [(key, value)]
  | (k, v) :: rest, key, value =>
    if k = key then (k, value) :: rest else (k, v) :: insert rest key value

@[simp] theorem get?_nil (key : String) : get? [] key = none := rfl

theorem get?_insert (o : Object) (key other : String) (value : Value) :
    (o.insert key value).get? other = if key = other then some value else o.get? other := by
  induction o with
  | nil => rfl
  | cons field rest ih =>
    obtain ⟨k, v⟩ := field
    by_cases h : k = key
    · subst h
      by_cases ho : k = other <;> simp [insert, get?, ho]
    · by_cases ho : k = other
      · subst ho
        have ne : ¬ key = k := fun e => h e.symm
        simp [insert, get?, h, ne]
      · simp [insert, get?, h, ho, ih]

theorem insert_of_notMem {o : Object} {key : String} (value : Value)
    (h : key ∉ o.map Prod.fst) : o.insert key value = o ++ [(key, value)] := by
  induction o with
  | nil => rfl
  | cons field rest ih =>
    simp only [List.map_cons, List.mem_cons, not_or] at h
    have ne : ¬ field.1 = key := fun e => h.1 e.symm
    simp [insert, ne, ih h.2]

end Object

namespace Value

def string? : Value → Option String
  | string s => some s
  | _ => none

def natural? : Value → Option Nat
  | number (.whole n) => if 0 ≤ n then some n.toNat else none
  | _ => none

def bool? : Value → Option Bool
  | bool b => some b
  | _ => none

def array? : Value → Option (List Value)
  | array items => some items
  | _ => none

def object? : Value → Option Object
  | object fields => some fields
  | _ => none

/-- A field of an object; none of any other value. -/
def get? (v : Value) (key : String) : Option Value :=
  v.object?.bind fun fields => Object.get? fields key

mutual

/-- How deep arrays and objects are nested: zero for a scalar. -/
def depth : Value → Nat
  | null | bool _ | number _ | string _ => 0
  | array items => depthOfItems items + 1
  | object fields => depthOfFields fields + 1

def depthOfItems : List Value → Nat
  | [] => 0
  | v :: rest => max v.depth (depthOfItems rest)

def depthOfFields : List (String × Value) → Nat
  | [] => 0
  | (_, v) :: rest => max v.depth (depthOfFields rest)

end

end Value

end JobQueue.Json
