import JobQueue.Json.Reader.String
import JobQueue.Json.Reader.Number

/-!
Reading JSON texts. `Value.ofText?` accepts one value with blanks around it, nested at most
`depthLimit` deep, and says of any other text what is wrong with it and where.
-/

namespace JobQueue.Json

/-- The arrays and objects that may be open at once. -/
def depthLimit : Nat := 127

/-- The blanks between the parts of a text: space, line feed, tab and carriage return. -/
def isGap (c : Char) : Bool :=
  c = ' ' || c = '\n' || c = '\t' || c = '\r'

def skipGap (s : List Char) : List Char :=
  s.dropWhile isGap

/-- The rest of a word whose first letter is known. -/
def identifier (expected : List Char) (s : List Char) : Except Fault (List Char) :=
  match expected, s with
  | [], s => .ok s
  | _ :: _, [] => .error (.here .endInValue [])
  | e :: expected, c :: rest =>
    if c = e then identifier expected rest else .error (.atNext .expectedIdentifier (c :: rest))

def colon (s : List Char) : Except Fault (List Char) :=
  match skipGap s with
  | ':' :: rest => .ok rest
  | [] => .error (.here .endInObject [])
  | rest => .error (.atNext .expectedColon rest)

/-- The items of an array, from after its bracket, or from after an item when `first` is
false. Each item takes at least one character, so `budget` need not exceed the text. -/
def items (item : List Char → Except Fault (Value × List Char)) :
    (budget : Nat) → (acc : List Value) → (first : Bool) → List Char →
    Except Fault (List Value × List Char)
  | 0, _, _, _ => .error (.here .endInList [])
  | budget + 1, acc, first, s =>
    match skipGap s with
    | [] => .error (.here .endInList [])
    | ']' :: rest => .ok (acc.reverse, rest)
    | c :: rest =>
      if first then do
        let (v, rest) ← item (c :: rest)
        items item budget (v :: acc) false rest
      else if c ≠ ',' then .error (.atNext .expectedListCommaOrEnd (c :: rest))
      else
        -- after a comma an item must follow
        match skipGap rest with
        | [] => .error (.here .endInValue [])
        | ']' :: rest => .error (.atNext .trailingComma (']' :: rest))
        | rest => do
          let (v, rest) ← item rest
          items item budget (v :: acc) false rest

def field (item : List Char → Except Fault (Value × List Char)) (s : List Char) :
    Except Fault ((String × Value) × List Char) := do
  let (key, rest) ← stringBody [] s
  let rest ← colon rest
  let (v, rest) ← item rest
  return ((key, v), rest)

def fields (item : List Char → Except Fault (Value × List Char)) :
    (budget : Nat) → (acc : Object) → (first : Bool) → List Char →
    Except Fault (Object × List Char)
  | 0, _, _, _ => .error (.here .endInObject [])
  | budget + 1, acc, first, s =>
    match skipGap s with
    | [] => .error (.here .endInObject [])
    | '\x7d' :: rest => .ok (acc, rest)
    | c :: rest =>
      if first then
        if c ≠ '"' then .error (.atNext .keyNotString (c :: rest))
        else do
          let ((key, v), rest) ← field item rest
          fields item budget (acc.insert key v) false rest
      else if c ≠ ',' then .error (.atNext .expectedObjectCommaOrEnd (c :: rest))
      else
        -- after a comma a key must follow
        match skipGap rest with
        | [] => .error (.here .endInValue [])
        | '"' :: rest => do
          let ((key, v), rest) ← field item rest
          fields item budget (acc.insert key v) false rest
        | '\x7d' :: rest => .error (.atNext .trailingComma ('\x7d' :: rest))
        | rest => .error (.atNext .keyNotString rest)

def value (room : Nat) (s : List Char) : Except Fault (Value × List Char) :=
  match skipGap s with
  | [] => .error (.here .endInValue [])
  | 'n' :: rest => do return (.null, ← identifier ['u', 'l', 'l'] rest)
  | 't' :: rest => do return (.bool true, ← identifier ['r', 'u', 'e'] rest)
  | 'f' :: rest => do return (.bool false, ← identifier ['a', 'l', 's', 'e'] rest)
  | '"' :: rest => do
    let (text, rest) ← stringBody [] rest
    return (.string text, rest)
  | '[' :: rest =>
    match room with
    | 0 => .error (.atNext .tooDeep ('[' :: rest))
    | room + 1 => do
      let (vs, rest) ← items (value room) (rest.length + 1) [] true rest
      return (.array vs, rest)
  | '\x7b' :: rest =>
    match room with
    | 0 => .error (.atNext .tooDeep ('\x7b' :: rest))
    | room + 1 => do
      let (o, rest) ← fields (value room) (rest.length + 1) [] true rest
      return (.object o, rest)
  | c :: rest =>
    if c = '-' ∨ c.isDigit then do
      let (n, rest) ← number (c :: rest)
      return (.number n, rest)
    else .error (.atNext .expectedValue (c :: rest))

def finish (s : List Char) : Except Fault Unit :=
  match skipGap s with
  | [] => .ok ()
  | rest => .error (.atNext .trailingCharacters rest)

def Value.ofText? (text : String) : Except Fault Value := do
  let (v, rest) ← value depthLimit text.toList
  finish rest
  return v

end JobQueue.Json
