import JobQueue.Json.Reader
import JobQueue.Time.Stamp

/-!
Reading JSON texts of a known shape: an object with named fields of given kinds, or an array
with these fields in order. Fields may come in any order, a field that the shape does not know
is passed over, and one that comes twice is refused. Which fields may be missing is for the
caller to say. What is refused first decides the class of the fault.
-/

namespace JobQueue.Json

open Time (Instant)

inductive Kind
  | text
  | natural (limit : Nat)
  | stamp
  | optionalStamp
  | object
  deriving DecidableEq, Repr

inductive Field
  | text (s : String)
  | natural (n : Nat)
  | stamp (t : Instant)
  | optionalStamp (t? : Option Instant)
  | object (o : Object)
  deriving Repr

/-- The names and kinds of the fields, in the order of the array form. -/
abbrev Shape := List (String × Kind)

abbrev Fields := List (String × Field)

namespace Fields

def get? (fields : Fields) (name : String) : Option Field :=
  (fields.find? fun f => f.1 = name).map Prod.snd

def text? (fields : Fields) (name : String) : Option String :=
  match fields.get? name with
  | some (.text s) => some s
  | _ => none

def natural? (fields : Fields) (name : String) : Option Nat :=
  match fields.get? name with
  | some (.natural n) => some n
  | _ => none

def stamp? (fields : Fields) (name : String) : Option Instant :=
  match fields.get? name with
  | some (.stamp t) => some t
  | _ => none

def optionalStamp (fields : Fields) (name : String) : Option Instant :=
  match fields.get? name with
  | some (.optionalStamp t?) => t?
  | _ => none

def object? (fields : Fields) (name : String) : Option Object :=
  match fields.get? name with
  | some (.object o) => some o
  | _ => none

end Fields

mutual

/-- Passes over a value that nobody asked for. Neither its depth nor the size of its numbers
matters. Each step takes a character or leaves a bracket, so a budget of twice the text and two
more suffices. -/
def skipValue : (budget : Nat) → List Char → Except Fault (List Char)
  | 0, _ => .error (.here .endInValue [])
  | budget + 1, s =>
    match skipGap s with
    | [] => .error (.here .endInValue [])
    | 'n' :: rest => identifier ['u', 'l', 'l'] rest
    | 't' :: rest => identifier ['r', 'u', 'e'] rest
    | 'f' :: rest => identifier ['a', 'l', 's', 'e'] rest
    | '"' :: rest => skipString rest
    | '-' :: rest => skipNumber rest
    | '[' :: rest =>
      match skipGap rest with
      | [] => .error (.here .endInList [])
      | ']' :: rest => .ok rest
      | rest => skipItems budget rest
    | '\x7b' :: rest =>
      match skipGap rest with
      | [] => .error (.here .endInObject [])
      | '\x7d' :: rest => .ok rest
      | rest => skipFields budget rest
    | c :: rest =>
      if c.isDigit then skipNumber (c :: rest) else .error (.atNext .expectedValue (c :: rest))

def skipItems : (budget : Nat) → List Char → Except Fault (List Char)
  | 0, _ => .error (.here .endInList [])
  | budget + 1, s => do
    let rest ← skipValue budget s
    match skipGap rest with
    | [] => .error (.here .endInList [])
    | ']' :: rest => .ok rest
    | ',' :: rest => skipItems budget rest
    | rest => .error (.atNext .expectedListCommaOrEnd rest)

def skipFields : (budget : Nat) → List Char → Except Fault (List Char)
  | 0, _ => .error (.here .endInObject [])
  | budget + 1, s =>
    match skipGap s with
    | [] => .error (.here .endInObject [])
    | '"' :: rest => do
      let rest ← skipString rest
      let rest ← colon rest
      let rest ← skipValue budget rest
      match skipGap rest with
      | [] => .error (.here .endInObject [])
      | '\x7d' :: rest => .ok rest
      | ',' :: rest => skipFields budget rest
      | rest => .error (.atNext .expectedObjectCommaOrEnd rest)
    | rest => .error (.atNext .keyNotString rest)

end

/-- The fault of a value of another kind than the one asked for. A scalar is read first, and
what is wrong with it comes before its kind. -/
def otherKind (s : List Char) : Fault :=
  let after (read : Except Fault (List Char)) : Fault :=
    match read with
    | .error f => f
    | .ok rest => .here .mismatch rest
  match s with
  | [] => .here .endInValue []
  | 'n' :: rest => after (identifier ['u', 'l', 'l'] rest)
  | 't' :: rest => after (identifier ['r', 'u', 'e'] rest)
  | 'f' :: rest => after (identifier ['a', 'l', 's', 'e'] rest)
  | '"' :: rest => after ((stringBody [] rest).map Prod.snd)
  | c :: rest =>
    if c = '[' ∨ c = '\x7b' then .here .mismatch (c :: rest)
    else if c = '-' ∨ c.isDigit then after ((number (c :: rest)).map Prod.snd)
    else .atNext .expectedValue (c :: rest)

def readText (s : List Char) : Except Fault (String × List Char) :=
  match skipGap s with
  | '"' :: rest => stringBody [] rest
  | rest => .error (otherKind rest)

def readNatural (limit : Nat) (s : List Char) : Except Fault (Nat × List Char) :=
  match skipGap s with
  | [] => .error (.here .endInValue [])
  | c :: rest =>
    if c = '-' ∨ c.isDigit then
      match number (c :: rest) with
      | .error f => .error f
      | .ok (.whole n, rest) =>
        if 0 ≤ n ∧ n ≤ limit then .ok (n.toNat, rest) else .error (.here .mismatch rest)
      | .ok (.double _, rest) => .error (.here .mismatch rest)
    else .error (otherKind (c :: rest))

def readStamp (s : List Char) : Except Fault (Instant × List Char) := do
  let (text, rest) ← readText s
  match Instant.ofText? text with
  | some t => .ok (t, rest)
  | none => .error (.here .mismatch rest)

def readOptionalStamp (s : List Char) : Except Fault (Option Instant × List Char) :=
  match skipGap s with
  | 'n' :: rest => do return (none, ← identifier ['u', 'l', 'l'] rest)
  | rest => do
    let (t, rest) ← readStamp rest
    return (some t, rest)

def readObject (room : Nat) (s : List Char) : Except Fault (Object × List Char) :=
  match skipGap s with
  | '\x7b' :: rest =>
    match room with
    | 0 => .error (.atNext .tooDeep ('\x7b' :: rest))
    | room + 1 => fields (value room) (rest.length + 1) [] true rest
  | rest => .error (otherKind rest)

def readField (room : Nat) (kind : Kind) (s : List Char) : Except Fault (Field × List Char) :=
  match kind with
  | .text => (readText s).map fun p => (.text p.1, p.2)
  | .natural limit => (readNatural limit s).map fun p => (.natural p.1, p.2)
  | .stamp => (readStamp s).map fun p => (.stamp p.1, p.2)
  | .optionalStamp => (readOptionalStamp s).map fun p => (.optionalStamp p.1, p.2)
  | .object => (readObject room s).map fun p => (.object p.1, p.2)

def namedField (shape : Shape) (room : Nat) (acc : Fields) (s : List Char) :
    Except Fault (Fields × List Char) := do
  let (name, rest) ← stringBody [] s
  match shape.find? fun f => f.1 = name with
  | none =>
    let rest ← colon rest
    let rest ← skipValue (2 * rest.length + 2) rest
    return (acc, rest)
  | some (_, kind) =>
    if (acc.get? name).isSome then .error (.here .mismatch rest)
    else
      let rest ← colon rest
      let (field, rest) ← readField room kind rest
      return (acc ++ [(name, field)], rest)

/-- The fields of the object form, from after its brace, or from after a field when `first` is
false. -/
def namedFields (shape : Shape) (room : Nat) :
    (budget : Nat) → (acc : Fields) → (first : Bool) → List Char →
    Except Fault (Fields × List Char)
  | 0, _, _, _ => .error (.here .endInObject [])
  | budget + 1, acc, first, s =>
    match skipGap s with
    | [] => .error (.here .endInObject [])
    | '\x7d' :: rest => .ok (acc, rest)
    | c :: rest =>
      if first then
        if c ≠ '"' then .error (.atNext .keyNotString (c :: rest))
        else do
          let (acc, rest) ← namedField shape room acc rest
          namedFields shape room budget acc false rest
      else if c ≠ ',' then .error (.atNext .expectedObjectCommaOrEnd (c :: rest))
      else
        match skipGap rest with
        | [] => .error (.here .endInValue [])
        | '"' :: rest => do
          let (acc, rest) ← namedField shape room acc rest
          namedFields shape room budget acc false rest
        | '\x7d' :: rest => .error (.atNext .trailingComma ('\x7d' :: rest))
        | rest => .error (.atNext .keyNotString rest)

def endOfList (s : List Char) : Except Fault (List Char) :=
  match skipGap s with
  | ']' :: rest => .ok rest
  | [] => .error (.here .endInList [])
  | ',' :: rest =>
    match skipGap rest with
    | ']' :: rest => .error (.atNext .trailingComma (']' :: rest))
    | rest => .error (.atNext .trailingCharacters rest)
  | rest => .error (.atNext .trailingCharacters rest)

/-- The fields of the array form, from after its bracket, or from after a field when `first` is
false. It may end early. -/
def listedFields (room : Nat) (acc : Fields) (first : Bool) :
    Shape → List Char → Except Fault (Fields × List Char)
  | [], s => do return (acc, ← endOfList s)
  | (name, kind) :: more, s =>
    match skipGap s with
    | [] => .error (.here .endInList [])
    | ']' :: rest => .ok (acc, rest)
    | c :: rest =>
      if first then do
        let (field, rest) ← readField room kind (c :: rest)
        listedFields room (acc ++ [(name, field)]) false more rest
      else if c ≠ ',' then .error (.atNext .expectedListCommaOrEnd (c :: rest))
      else
        match skipGap rest with
        | [] => .error (.here .endInValue [])
        | ']' :: rest => .error (.atNext .trailingComma (']' :: rest))
        | rest => do
          let (field, rest) ← readField room kind rest
          listedFields room (acc ++ [(name, field)]) false more rest

def Shape.read (shape : Shape) (s : List Char) : Except Fault (Fields × List Char) :=
  match skipGap s with
  | '[' :: rest => listedFields (depthLimit - 1) [] true shape rest
  | '\x7b' :: rest => namedFields shape (depthLimit - 1) (rest.length + 1) [] true rest
  | rest => .error (otherKind rest)

/-- The value that a text of a shape holds. A value that lacks a field is refused before
anything that follows it. -/
def Shape.ofText? {α : Type} (shape : Shape) (assemble : Fields → Option α) (text : String) :
    Except Fault α := do
  let (fields, rest) ← shape.read text.toList
  match assemble fields with
  | none => .error (.here .mismatch rest)
  | some a =>
    finish rest
    return a

end JobQueue.Json
