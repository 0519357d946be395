import JobQueue.Json.Fault
import JobQueue.Json.Value

/-!
Numbers in a JSON text. Digits are gathered into a significand as long as it stays below two
to the 64th; whole digits beyond that only count as powers of ten, and further fraction digits
not at all. A number without a fraction or an exponent whose digits fit is whole; a negative
zero and every other number is a double.
-/

namespace JobQueue.Json

open Decimal (Binary64)

/-- The first significand that does not fit into 64 bits. -/
def significandLimit : Nat := UInt64.size

/-- The first exponent that does not fit into 31 bits. -/
def exponentLimit : Nat := 0x80000000

/-- The magnitude of the least whole number that is held as such: two to the 63. -/
def leastMagnitude : Nat := 0x8000000000000000

def digitValue (c : Char) : Nat := c.toNat - 48

/-- Gathers digits into a significand, up to the first that would take it past the limit. -/
def gather (significand : Nat) : List Char → Nat × List Char
  | [] => (significand, [])
  | c :: rest =>
    if !c.isDigit then (significand, c :: rest)
    else if significand * 10 + digitValue c < significandLimit then
      gather (significand * 10 + digitValue c) rest
    else (significand, c :: rest)

def passDigits : List Char → Nat × List Char
  | [] => (0, [])
  | c :: rest =>
    if c.isDigit then ((passDigits rest).1 + 1, (passDigits rest).2) else (0, c :: rest)

def doubleOf (negative : Bool) (significand : Nat) (exponent : Int) (rest : List Char) :
    Except Fault (Number × List Char) :=
  match Binary64.ofParts? negative significand exponent with
  | some x => .ok (.double x, rest)
  | none => .error (.here .numberOutOfRange rest)

/-- Gathers exponent digits, up to and with the first that takes it to the limit. -/
def gatherExponent (exponent : Nat) : List Char → Option Nat × List Char
  | [] => (some exponent, [])
  | c :: rest =>
    if !c.isDigit then (some exponent, c :: rest)
    else if exponent * 10 + digitValue c < exponentLimit then
      gatherExponent (exponent * 10 + digitValue c) rest
    else (none, rest)

/-- The exponent, from after its letter. One beyond the limit makes a number too large, unless
it is negative or the significand is zero: then the number is zero. -/
def exponentPart (negative : Bool) (significand : Nat) (shift : Int) (s : List Char) :
    Except Fault (Number × List Char) :=
  let (down, s) : Bool × List Char :=
    match s with
    | '+' :: rest => (false, rest)
    | '-' :: rest => (true, rest)
    | _ => (false, s)
  match s with
  | [] => .error (.here .endInValue [])
  | c :: rest =>
    if !c.isDigit then .error (.atNext .invalidNumber s)
    else
      match gatherExponent (digitValue c) rest with
      | (some exponent, rest) =>
        doubleOf negative significand (if down then shift - exponent else shift + exponent) rest
      | (none, rest) =>
        if significand ≠ 0 ∧ !down then .error (.here .numberOutOfRange rest)
        else doubleOf negative 0 0 (passDigits rest).2

def afterFraction (negative : Bool) (significand : Nat) (shift : Int) (s : List Char) :
    Except Fault (Number × List Char) :=
  match s with
  | 'e' :: rest | 'E' :: rest => exponentPart negative significand shift rest
  | _ => doubleOf negative significand shift s

def fractionPart (negative : Bool) (significand : Nat) (shift : Int) (s : List Char) :
    Except Fault (Number × List Char) :=
  match s with
  | [] => .error (.here .endInValue [])
  | c :: _ =>
    if !c.isDigit then .error (.atNext .invalidNumber s)
    else
      let (gathered, rest) := gather significand s
      -- digits that did not fit are passed over, so they shift nothing
      let taken := s.length - rest.length
      afterFraction negative gathered (shift - taken) (passDigits rest).2

def wholeOf (negative : Bool) (significand : Nat) (rest : List Char) :
    Except Fault (Number × List Char) :=
  if !negative then .ok (.whole significand, rest)
  else if 0 < significand ∧ significand ≤ leastMagnitude then .ok (.whole (-significand), rest)
  else doubleOf true significand 0 rest

/-- What may follow the digits of the whole part, `dropped` of which did not fit. -/
def afterWhole (negative : Bool) (significand dropped : Nat) (s : List Char) :
    Except Fault (Number × List Char) :=
  match s with
  | '.' :: rest => fractionPart negative significand dropped rest
  | 'e' :: rest | 'E' :: rest => exponentPart negative significand dropped rest
  | _ =>
    if dropped = 0 then wholeOf negative significand s else doubleOf negative significand dropped s

def unsignedNumber (negative : Bool) (s : List Char) : Except Fault (Number × List Char) :=
  match s with
  | [] => .error (.here .endInValue [])
  | '0' :: rest =>
    match rest with
    | c :: _ =>
      if c.isDigit then .error (.atNext .invalidNumber rest) else afterWhole negative 0 0 rest
    | [] => afterWhole negative 0 0 []
  | c :: _ =>
    if !c.isDigit then .error (.atNext .invalidNumber s)
    else
      -- whole digits that did not fit still count as powers of ten
      let (significand, rest) := gather 0 s
      let (dropped, rest) := passDigits rest
      afterWhole negative significand dropped rest

def number (s : List Char) : Except Fault (Number × List Char) :=
  match s with
  | '-' :: rest => unsignedNumber true rest
  | _ => unsignedNumber false s

def skipExponent (s : List Char) : Except Fault (List Char) :=
  let s :=
    match s with
    | '+' :: rest | '-' :: rest => rest
    | _ => s
  match s with
  | [] => .error (.here .invalidNumber [])
  | c :: rest =>
    if c.isDigit then .ok (passDigits rest).2 else .error (.atNext .invalidNumber s)

def skipAfterFraction (s : List Char) : Except Fault (List Char) :=
  match s with
  | 'e' :: rest | 'E' :: rest => skipExponent rest
  | _ => .ok s

def skipAfterWhole (s : List Char) : Except Fault (List Char) :=
  match s with
  | '.' :: rest =>
    match passDigits rest with
    | (0, _) => .error (.atNext .invalidNumber rest)
    | (_, rest) => skipAfterFraction rest
  | _ => skipAfterFraction s

/-- Passes over a number, from after its sign. Its size does not matter, and a missing digit
is always a wrong one. -/
def skipNumber (s : List Char) : Except Fault (List Char) :=
  match s with
  | [] => .error (.here .invalidNumber [])
  | '0' :: rest =>
    match rest with
    | c :: _ => if c.isDigit then .error (.atNext .invalidNumber rest) else skipAfterWhole rest
    | [] => .ok []
  | c :: rest =>
    if c.isDigit then skipAfterWhole (passDigits rest).2 else .error (.atNext .invalidNumber s)

end JobQueue.Json
