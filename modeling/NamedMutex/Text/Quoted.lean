/-
  Quoted text, as names appear in messages.

  A text stands between double quotes.  A quote, a backslash and the controls
  NUL, tab, line feed and carriage return have short escapes; every other
  unprintable character is written by its code point.
-/
import NamedMutex.Text.Unprintable

namespace NamedMutex.Quoted

/-- The hexadecimal escape of a character. -/
def byCode (c : Char) : List Char :=
  ['\\', 'u', '{'] ++ Nat.toDigits 16 c.toNat ++ ['}']

/-- A character as it stands between the quotes. -/
def escape (c : Char) : List Char :=
  match c with
  | '\x00' => ['\\', '0']
  | '\t' => ['\\', 't']
  | '\r' => ['\\', 'r']
  | '\n' => ['\\', 'n']
  | '"' => ['\\', '"']
  | '\\' => ['\\', '\\']
  | c => if isUnprintable c then byCode c else [c]

/-- A text between quotes. -/
def quote (s : String) : String :=
  String.ofList (['"'] ++ s.toList.flatMap escape ++ ['"'])

end NamedMutex.Quoted
