import JobQueue.Text.Unprintable

/-!
Quoted text, as it stands in messages: between double quotes, with a backslash before the
quote and the backslash, the short escapes for tab, line feed, carriage return and NUL, and
every other character without a picture of its own as its number in hexadecimal.
-/

namespace JobQueue.Text

/-- The digits of `n` in hexadecimal, lower case, without leading zeros. -/
def hexadecimal (n : Nat) : List Char :=
  Nat.toDigits 16 n

def quoteChar (c : Char) : List Char :=
  match c with
  | '"' => ['\\', '"']
  | '\\' => ['\\', '\\']
  | '\n' => ['\\', 'n']
  | '\r' => ['\\', 'r']
  | '\t' => ['\\', 't']
  | '\x00' => ['\\', '0']
  | c =>
    if isUnprintable c then '\\' :: 'u' :: '\x7b' :: hexadecimal c.toNat ++ ['\x7d'] else [c]

def quote (s : String) : String :=
  String.ofList ('"' :: s.toList.flatMap quoteChar ++ ['"'])

end JobQueue.Text
