import JobQueue.Json.Fault

/-!
Strings in a JSON text, from after the opening quote. `stringBody` decodes one; `skipString`
passes over one that nobody asked for, and there four hexadecimal digits are enough after
`\u`, whether or not they make a character.
-/

namespace JobQueue.Json

def hexDigit? (c : Char) : Option Nat :=
  if '0' ≤ c ∧ c ≤ '9' then some (c.toNat - 48)
  else if 'a' ≤ c ∧ c ≤ 'f' then some (c.toNat - 87)
  else if 'A' ≤ c ∧ c ≤ 'F' then some (c.toNat - 55)
  else none

def hexWord? (a b c d : Char) : Option Nat := do
  let a ← hexDigit? a
  let b ← hexDigit? b
  let c ← hexDigit? c
  let d ← hexDigit? d
  return ((a * 16 + b) * 16 + c) * 16 + d

/-- What is wrong where four hexadecimal digits should stand: the text ends within four bytes,
or some byte of the next four is no digit. -/
def hexFault (rest : List Char) : Fault :=
  if byteCount rest < 4 then .here .endInString [] else ⟨.invalidEscape, byteCount rest - 4⟩

def shortEscape? : Char → Option Char
  | '"' => some '"'
  | '\\' => some '\\'
  | '/' => some '/'
  | 'b' => some '\x08'
  | 'f' => some '\x0c'
  | 'n' => some '\n'
  | 'r' => some '\r'
  | 't' => some '\t'
  | _ => none

def isLeading (n : Nat) : Bool := 0xD800 ≤ n && n ≤ 0xDBFF

def isTrailing (n : Nat) : Bool := 0xDC00 ≤ n && n ≤ 0xDFFF

def pairChar (leading trailing : Nat) : Char :=
  Char.ofNat ((leading - 0xD800) * 0x400 + (trailing - 0xDC00) + 0x10000)

/-- Decodes up to and with the closing quote; `acc` holds the characters so far, last first. -/
def stringBody (acc : List Char) : List Char → Except Fault (String × List Char)
  | [] => .error (.here .endInString [])
  | '"' :: rest => .ok (String.ofList acc.reverse, rest)
  | ['\\'] => .error (.here .endInString [])
  | '\\' :: e :: rest =>
    match shortEscape? e with
    | some c => stringBody (c :: acc) rest
    | none =>
      if e ≠ 'u' then .error (.atNext .invalidEscape (e :: rest))
      else
        match rest with
        | a :: b :: c :: d :: after =>
          match hexWord? a b c d with
          | none => .error (hexFault rest)
          | some n =>
            -- a second half cannot come first
            if isTrailing n then .error (.here .loneSurrogate after)
            else if !isLeading n then stringBody (Char.ofNat n :: acc) after
            else
              -- after a first half, nothing but another escape of this kind will do
              match after with
              | [] => .error (.here .endInString [])
              | ['\\'] => .error (.here .endInString [])
              | '\\' :: 'u' :: a :: b :: c :: d :: after =>
                match hexWord? a b c d with
                | none => .error (hexFault (a :: b :: c :: d :: after))
                | some m =>
                  if isTrailing m then stringBody (pairChar n m :: acc) after
                  else .error (.here .loneSurrogate after)
              | '\\' :: 'u' :: after => .error (hexFault after)
              | '\\' :: after => .error (.atNext .endOfSurrogatePair after)
              | after => .error (.atNext .endOfSurrogatePair after)
        | rest => .error (hexFault rest)
  | c :: rest =>
    if c.toNat < 0x20 then .error (.here .controlCharacter rest) else stringBody (c :: acc) rest

/-- Passes over a string up to and with the closing quote. -/
def skipString : List Char → Except Fault (List Char)
  | [] => .error (.here .endInString [])
  | '"' :: rest => .ok rest
  | ['\\'] => .error (.here .endInString [])
  | '\\' :: e :: rest =>
    if (shortEscape? e).isSome then skipString rest
    else if e ≠ 'u' then .error (.atNext .invalidEscape (e :: rest))
    else
      match rest with
      | a :: b :: c :: d :: after =>
        if (hexWord? a b c d).isSome then skipString after else .error (hexFault rest)
      | rest => .error (hexFault rest)
  | c :: rest =>
    if c.toNat < 0x20 then .error (.here .controlCharacter rest) else skipString rest

end JobQueue.Json
