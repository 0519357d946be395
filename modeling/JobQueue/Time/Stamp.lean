import JobQueue.Time.Instant
import JobQueue.Text.Blank

/-!
Instants as text. A stamp is an RFC 3339 date and time in UTC; years outside 0000 to 9999 carry
their sign. There are two readers. The exact one takes four-digit years and fixed widths and
says what is wrong; the lenient one takes signed years, short fields, blanks around separators
and a zone of either spelling.
-/

namespace JobQueue.Time

/-- A number in decimal, with zeros in front up to a width. -/
def padded (width n : Nat) : List Char :=
  let digits := Nat.toDigits 10 n
  List.replicate (width - digits.length) '0' ++ digits

/-- A year: four digits, or a sign and at least four. -/
def yearText (year : Int) : List Char :=
  if 0 ≤ year ∧ year ≤ 9999 then padded 4 year.toNat
  else (if year < 0 then '-' else '+') :: padded 4 year.natAbs

inductive Precision
  | shortest
  | micros
  deriving DecidableEq, Repr

/-- The fraction of a second with its point: 0, 3, 6 or 9 digits, the fewest that lose nothing,
or always six, rounded down. -/
def fractionText (p : Precision) (nano : Nat) : List Char :=
  match p with
  | .micros => '.' :: padded 6 (nano / 1000)
  | .shortest =>
    if nano = 0 then []
    else if nano % 1000000 = 0 then '.' :: padded 3 (nano / 1000000)
    else if nano % 1000 = 0 then '.' :: padded 6 (nano / 1000)
    else '.' :: padded 9 nano

namespace Instant

def date (t : Instant) : Date :=
  Date.ofDays (t.second / daySeconds + epochDay)

def dateText (t : Instant) : List Char :=
  yearText t.date.year ++ '-' :: padded 2 t.date.month ++ '-' :: padded 2 t.date.day

/-- The time of day as text; a leap second is the sixtieth. -/
def clockText (p : Precision) (t : Instant) : List Char :=
  let ofDay := t.secondOfDay.toNat
  let second := ofDay % 60 + (if t.isLeapSecond then 1 else 0)
  padded 2 (ofDay / 3600) ++ ':' :: padded 2 (ofDay / 60 % 60) ++ ':' :: padded 2 second ++
    fractionText p (t.nano % Span.perSecond)

def stampChars (p : Precision) (t : Instant) : List Char :=
  t.dateText ++ 'T' :: t.clockText p ++ ['Z']

/-- The stamp of an instant, with no more digits than it needs. -/
def stamp (t : Instant) : String :=
  String.ofList (t.stampChars .shortest)

def display (t : Instant) : String :=
  String.ofList (t.dateText ++ ' ' :: t.clockText .shortest ++ [' ', 'U', 'T', 'C'])

/-- The instant of a date and a time of day. A second of 60 is a leap second, and the offset is
that of the zone the time is told in. -/
def ofClock? (d : Date) (hour minute second nano : Nat) (offset : Int) : Option Instant :=
  if d.Valid ∧ hour < 24 ∧ minute < 60 ∧ second ≤ 60 then
    -- the second sixty is the second before it, going on
    let leap := second = 60
    let local? := ofParts?
      ((d.toDays - epochDay) * daySeconds + hour * 3600 + minute * 60 +
        (if leap then 59 else second))
      (if leap then nano + Span.perSecond else nano)
    local?.bind fun t => ofParts? (t.second - offset) t.nano
  else none

end Instant

inductive StampFault
  | tooShort
  | invalid
  | outOfRange
  | tooLong
  deriving DecidableEq, Repr

def StampFault.message : StampFault → String
  | tooShort => "premature end of input"
  | invalid => "input contains invalid characters"
  | outOfRange => "input is out of range"
  | tooLong => "trailing input"

def numberOfDigits (cs : List Char) : Nat :=
  cs.foldl (fun n c => n * 10 + (c.toNat - 48)) 0

def fixedNumber (width : Nat) (s : List Char) : Except StampFault (Nat × List Char) :=
  let field := s.take width
  if field.all Char.isDigit ∧ field.length = width then .ok (numberOfDigits field, s.drop width)
  else .error .invalid

def exactChar (c : Char) : List Char → Except StampFault (List Char)
  | [] => .error .tooShort
  | d :: rest => if d = c then .ok rest else .error .invalid

/-- The nanoseconds of a fraction, from after its point: at least one digit, those after the
ninth without effect. -/
def nanoseconds (s : List Char) : Except StampFault (Nat × List Char) :=
  let digits := s.takeWhile Char.isDigit
  let used := digits.take 9
  match s with
  | [] => .error .tooShort
  | _ =>
    if digits.isEmpty then .error .invalid
    else .ok (numberOfDigits used * Nat.pow 10 (9 - used.length), s.dropWhile Char.isDigit)

/-- The first two characters; too short also when fewer than two bytes are left. -/
def twoDigits (s : List Char) : Except StampFault ((Char × Char) × List Char) :=
  match s with
  | a :: b :: rest =>
    if a.isDigit ∧ b.isDigit then .ok ((a, b), rest) else .error .invalid
  | [a] => if a.utf8Size < 2 then .error .tooShort else .error .invalid
  | [] => .error .tooShort

/-- The offset of a zone in seconds: `Z`, or a sign, hours and minutes. -/
def zone (separator : List Char → Except StampFault (List Char)) (s : List Char) :
    Except StampFault (Int × List Char) :=
  match s with
  | [] => .error .tooShort
  | c :: rest =>
    if c = 'Z' ∨ c = 'z' then .ok (0, rest)
    else if c ≠ '+' ∧ c ≠ '-' ∧ c ≠ '−' then .error .invalid
    else do
      let ((h1, h2), rest) ← twoDigits rest
      let rest ← separator rest
      let ((m1, m2), rest) ← twoDigits rest
      if '5' < m1 then .error .outOfRange
      else
        let seconds : Int := numberOfDigits [h1, h2] * 3600 + numberOfDigits [m1, m2] * 60
        .ok (if c = '+' then seconds else -seconds, rest)

def stampWidth : Nat := 19

def Instant.ofStamp? (text : String) : Except StampFault Instant := do
  let s := text.toList
  if text.utf8ByteSize < stampWidth then .error .tooShort
  else
    let (year, s) ← fixedNumber 4 s
    let s ← exactChar '-' s
    let (month, s) ← fixedNumber 2 s
    let s ← exactChar '-' s
    let (day, s) ← fixedNumber 2 s
    -- the date is checked before anything behind it is read
    let date : Date := ⟨year, month, day⟩
    if ¬ date.Valid then .error .outOfRange
    else
      let s ←
        match s with
        | c :: rest => if c = 't' ∨ c = 'T' ∨ c = ' ' then .ok rest else .error .invalid
        | [] => .error .tooShort
      let (hour, s) ← fixedNumber 2 s
      let s ← exactChar ':' s
      let (minute, s) ← fixedNumber 2 s
      let s ← exactChar ':' s
      let (second, s) ← fixedNumber 2 s
      let (nano, s) ←
        match s with
        | '.' :: rest => nanoseconds rest
        | _ => .ok (0, s)
      if 24 ≤ hour ∨ 60 ≤ minute ∨ 61 ≤ second then .error .outOfRange
      else
        let (offset, s) ← zone (exactChar ':') s
        if daySeconds ≤ offset ∨ offset ≤ -daySeconds then .error .outOfRange
        else if !s.isEmpty then .error .tooLong
        else
          match Instant.ofClock? date hour minute second nano offset with
          | some t => .ok t
          | none => .error .outOfRange

def looseNumber? (width : Nat) (s : List Char) : Option (Nat × List Char) :=
  let s := Text.trimFront s
  let digits := (s.take width).takeWhile Char.isDigit
  if digits.isEmpty then none else some (numberOfDigits digits, s.drop digits.length)

/-- A year after blanks: up to four digits, or a sign and any number of them. -/
def looseYear? (s : List Char) : Option (Int × List Char) :=
  let signed (rest : List Char) : Option (Nat × List Char) :=
    let digits := rest.takeWhile Char.isDigit
    if digits.isEmpty then none else some (numberOfDigits digits, rest.dropWhile Char.isDigit)
  match Text.trimFront s with
  | '+' :: rest => (signed rest).map fun p => ((p.1 : Int), p.2)
  | '-' :: rest => (signed rest).map fun p => (-(p.1 : Int), p.2)
  | rest => (looseNumber? 4 rest).map fun p => ((p.1 : Int), p.2)

def looseChar? (c : Char) (s : List Char) : Option (List Char) :=
  match Text.trimFront s with
  | d :: rest => if d = c then some rest else none
  | [] => none

def looseSeparator (s : List Char) : Except StampFault (List Char) :=
  .ok (s.dropWhile fun c => c = ':' || Text.isBlank c)

/-- The zone after blanks; `UTC` in letters of either case is one too. -/
def looseZone? (s : List Char) : Option (Int × List Char) :=
  match Text.trimFront s with
  | u :: t :: c :: rest =>
    if u.toLower = 'u' ∧ t.toLower = 't' ∧ c.toLower = 'c' then some (0, rest)
    else (zone looseSeparator (u :: t :: c :: rest)).toOption
  | rest => (zone looseSeparator rest).toOption

def Instant.ofText? (text : String) : Option Instant := do
  let (year, s) ← looseYear? text.toList
  let s ← looseChar? '-' s
  let (month, s) ← looseNumber? 2 s
  let s ← looseChar? '-' s
  let (day, s) ← looseNumber? 2 s
  let s ←
    match s with
    | c :: rest => if c = 't' ∨ c = 'T' ∨ c = ' ' then some rest else none
    | [] => none
  let (hour, s) ← looseNumber? 2 s
  let s ← looseChar? ':' s
  let (minute, s) ← looseNumber? 2 s
  let s ← looseChar? ':' s
  let (second, s) ← looseNumber? 2 s
  let (nano, s) ←
    match s with
    | '.' :: rest => (nanoseconds rest).toOption
    | _ => some (0, s)
  let (offset, s) ← looseZone? s
  if daySeconds ≤ offset ∨ offset ≤ -daySeconds ∨ !(Text.trimFront s).isEmpty then none
  else Instant.ofClock? ⟨year, month, day⟩ hour minute second nano offset

end JobQueue.Time
