import JobQueue.Decimal.Shortest
import JobQueue.Json.Value
import JobQueue.Text.Quoted

/-!
Writing JSON texts, compactly: no blanks, fields in their order, only those characters of a
string escaped that have to be. A double has the fewest digits that read back, a point with a
digit on either side, and an exponent only when it is very large or very small.
-/

namespace JobQueue.Json

open Decimal

/-- The decimal exponents, from the first up to and without the second, that are written in
positional notation. -/
def positional : Int × Int := (-5, 16)

def positionalText (d : Digits) : List Char :=
  if d.exponent < 0 then
    '0' :: '.' :: List.replicate ((-d.exponent).toNat - 1) '0' ++ d.digits
  else
    let before := d.exponent.toNat + 1
    let whole := d.digits.take before ++ List.replicate (before - d.digits.length) '0'
    let fraction := d.digits.drop before
    whole ++ '.' :: (if fraction.isEmpty then ['0'] else fraction)

/-- A positive double with an exponent; the point is left out before nothing. -/
def exponentText (d : Digits) : List Char :=
  let fraction := d.digits.drop 1
  let sign := if d.exponent < 0 then '-' else '+'
  d.digits.take 1 ++ (if fraction.isEmpty then [] else '.' :: fraction) ++
    'e' :: sign :: Nat.toDigits 10 d.exponent.natAbs

def magnitudeText (rank : Nat) : List Char :=
  if rank = 0 then ['0', '.', '0']
  else
    let d := shortest rank
    if positional.1 ≤ d.exponent ∧ d.exponent < positional.2 then positionalText d
    else exponentText d

def wholeText (n : Int) : List Char :=
  if n < 0 then '-' :: Nat.toDigits 10 n.natAbs else Nat.toDigits 10 n.natAbs

def Number.text : Number → List Char
  | .whole n => wholeText n
  | .double x => if x.negative then '-' :: magnitudeText x.rank else magnitudeText x.rank

def hexDigit (n : Nat) : Char :=
  Nat.digitChar (n % 16)

def escapeChar (c : Char) : List Char :=
  match c with
  | '"' => ['\\', '"']
  | '\\' => ['\\', '\\']
  | '\x08' => ['\\', 'b']
  | '\x0c' => ['\\', 'f']
  | '\n' => ['\\', 'n']
  | '\r' => ['\\', 'r']
  | '\t' => ['\\', 't']
  | c =>
    if c.toNat < 0x20 then ['\\', 'u', '0', '0', hexDigit (c.toNat / 16), hexDigit c.toNat]
    else [c]

def stringText (s : String) : List Char :=
  '"' :: s.toList.flatMap escapeChar ++ ['"']

mutual

def Value.chars : Value → List Char
  | .null => ['n', 'u', 'l', 'l']
  | .bool true => ['t', 'r', 'u', 'e']
  | .bool false => ['f', 'a', 'l', 's', 'e']
  | .number n => n.text
  | .string s => stringText s
  | .array items => '[' :: itemChars items
  | .object fields => '\x7b' :: fieldChars fields

def itemChars : List Value → List Char
  | [] => [']']
  | [v] => v.chars ++ [']']
  | v :: rest => v.chars ++ ',' :: itemChars rest

def fieldChars : List (String × Value) → List Char
  | [] => ['\x7d']
  | [(k, v)] => stringText k ++ ':' :: v.chars ++ ['\x7d']
  | (k, v) :: rest => stringText k ++ ':' :: v.chars ++ ',' :: fieldChars rest

end

def Value.text (v : Value) : String :=
  String.ofList v.chars

mutual

/-- The characters of a value with the kind of every part named, as log lines show payloads. -/
def Value.described : Value → List Char
  | .null => "Null".toList
  | .bool b => (if b then "Bool(true)" else "Bool(false)").toList
  | .number n => "Number(".toList ++ n.text ++ [')']
  | .string s => "String(".toList ++ (Text.quote s).toList ++ [')']
  | .array items => "Array [".toList ++ describedItems items
  | .object fields => "Object \x7b".toList ++ describedFields fields

def describedItems : List Value → List Char
  | [] => [']']
  | [v] => v.described ++ [']']
  | v :: rest => v.described ++ ',' :: ' ' :: describedItems rest

def describedFields : List (String × Value) → List Char
  | [] => ['\x7d']
  | [(k, v)] => (Text.quote k).toList ++ ':' :: ' ' :: v.described ++ ['\x7d']
  | (k, v) :: rest =>
    (Text.quote k).toList ++ ':' :: ' ' :: v.described ++ ',' :: ' ' :: describedFields rest

end

def Object.described (o : Object) : String :=
  String.ofList ('\x7b' :: describedFields o)

end JobQueue.Json
