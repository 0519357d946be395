/-!
What is wrong with a JSON text, and where. A fault keeps the bytes that were left when it was
noticed, not a position, so readers need no running count; the position follows from the text.
Some faults are noticed at a character before it is taken, others after it: the former count
one byte of it as read, so a position may lie inside a character.
-/

namespace JobQueue.Json

inductive Cause
  | endInList
  | endInObject
  | endInString
  | endInValue
  | expectedColon
  | expectedListCommaOrEnd
  | expectedObjectCommaOrEnd
  | expectedIdentifier
  | expectedValue
  | invalidEscape
  | invalidNumber
  | numberOutOfRange
  | controlCharacter
  | keyNotString
  | loneSurrogate
  | endOfSurrogatePair
  | trailingComma
  | trailingCharacters
  | tooDeep
  | mismatch
  deriving DecidableEq, Repr

/-- The three classes of faults: the text ends too early, it is not JSON, or it is JSON of
another shape than the one asked for. -/
inductive Category
  | ended
  | syntactic
  | shape
  deriving DecidableEq, Repr

namespace Cause

def message : Cause → String
  | endInList => "EOF while parsing a list"
  | endInObject => "EOF while parsing an object"
  | endInString => "EOF while parsing a string"
  | endInValue => "EOF while parsing a value"
  | expectedColon => "expected `:`"
  | expectedListCommaOrEnd => "expected `,` or `]`"
  | expectedObjectCommaOrEnd => "expected `,` or `\x7d`"
  | expectedIdentifier => "expected ident"
  | expectedValue => "expected value"
  | invalidEscape => "invalid escape"
  | invalidNumber => "invalid number"
  | numberOutOfRange => "number out of range"
  | controlCharacter => "control character (\\u0000-\\u001F) found while parsing a string"
  | keyNotString => "key must be a string"
  | loneSurrogate => "lone leading surrogate in hex escape"
  | endOfSurrogatePair => "unexpected end of hex escape"
  | trailingComma => "trailing comma"
  | trailingCharacters => "trailing characters"
  | tooDeep => "recursion limit exceeded"
  | mismatch => "value of another shape"

def category : Cause → Category
  | endInList | endInObject | endInString | endInValue => .ended
  | mismatch => .shape
  | _ => .syntactic

end Cause

/-- A cause, and how many bytes of the text had not been read. -/
structure Fault where
  cause : Cause
  left : Nat
  deriving DecidableEq, Repr

def byteCount : List Char → Nat
  | [] => 0
  | c :: rest => c.utf8Size + byteCount rest

/-- A fault noticed when all up to `rest` had been read. -/
def Fault.here (cause : Cause) (rest : List Char) : Fault :=
  ⟨cause, byteCount rest⟩

/-- A fault noticed at the next character: one byte of it counts as read. -/
def Fault.atNext (cause : Cause) (rest : List Char) : Fault :=
  ⟨cause, byteCount rest - 1⟩

/-- A place in a text: lines count from one, columns are the bytes since the last line feed. -/
structure Position where
  line : Nat
  column : Nat
  deriving DecidableEq, Repr

def Position.advance (start : Position) : List Char → (count : Nat) → Position
  | [], _ => start
  | c :: rest, count =>
    if count < c.utf8Size then { start with column := start.column + count }
    else if c = '\n' then Position.advance ⟨start.line + 1, 0⟩ rest (count - c.utf8Size)
    else Position.advance { start with column := start.column + c.utf8Size } rest
      (count - c.utf8Size)

def Fault.position (f : Fault) (text : List Char) : Position :=
  Position.advance ⟨1, 0⟩ text (byteCount text - f.left)

def Fault.message (f : Fault) (text : String) : String :=
  let p := f.position text.toList
  s!"{f.cause.message} at line {p.line} column {p.column}"

end JobQueue.Json
