/-
  Flags of patterns, and what a backslash starts.

  * `Flags.set` turns flags on or off;
  * `Escape.read?` reads what follows a backslash;
  * `Flags.literal?`, `Flags.dot?` and others say what a part of a pattern
    stands for where the flags are in force.

  A pattern is about all characters or, without the flag `unicode`, about ASCII
  alone.  Sets of characters with a name, and both cases of a letter, are known
  for ASCII alone; so a pattern about all characters cannot ask for them.
-/
import NamedMutex.Pattern
import NamedMutex.Text.Blank

namespace NamedMutex

namespace Pattern

/-- What governs the reading of a pattern, and its meaning. -/
structure Flags where
  /-- A letter stands for both its cases. -/
  caseless : Bool
  /-- `^` and `$` are about lines. -/
  lines : Bool
  /-- A dot stands for line feeds, too. -/
  dotAll : Bool
  /-- A question mark after a repetition makes it greedy, not lazy. -/
  lazy : Bool
  /-- The pattern is about all characters, not about ASCII alone. -/
  unicode : Bool
  /-- Lines may end with carriage returns. -/
  returns : Bool
  /-- Blanks and comments between the parts of a pattern do not count. -/
  verbose : Bool
  deriving DecidableEq, Repr

namespace Flags

/-- The flags at the start of a pattern. -/
def start : Flags :=
  ⟨false, false, false, false, true, false, false⟩

/-- Turns the flag of a letter on or off. -/
def set (flags : Flags) (letter : Char) (on : Bool) : Flags :=
  match letter with
  | 'i' => { flags with caseless := on }
  | 'm' => { flags with lines := on }
  | 's' => { flags with dotAll := on }
  | 'U' => { flags with lazy := on }
  | 'u' => { flags with unicode := on }
  | 'R' => { flags with returns := on }
  | 'x' => { flags with verbose := on }
  | _ => flags

/-- Turns on the flags of letters, and off those after a dash. -/
def apply (flags : Flags) (letters : List Char) : Flags :=
  (letters.foldl
    (fun (flags, on) c => if c = '-' then (flags, false) else (Flags.set flags c on, on))
    (flags, true)).1

/-- Whether letters are a list of flags: each once, with at most one dash, which
    must not be the last. -/
def IsList (letters : List Char) : Prop :=
  (∀ c ∈ letters, c ∈ ['i', 'm', 's', 'U', 'u', 'R', 'x', '-']) ∧ letters.Nodup ∧
    letters.getLast? ≠ some '-'

instance (letters : List Char) : Decidable (IsList letters) :=
  inferInstanceAs (Decidable (_ ∧ _ ∧ _))

/-- The alphabet that sets are written for. -/
def alphabet (flags : Flags) : Alphabet :=
  if flags.unicode then .unicode else .ascii

/-- Whether the cases of letters are asked for where they are not known. -/
def lacksCases (flags : Flags) : Bool :=
  flags.unicode && flags.caseless

/-- What a character stands for outside brackets.  A `byte` is written by its
    number; above `7F` it is no character of ASCII. -/
def literal? (flags : Flags) (c : Char) (byte : Bool) : Option Pattern :=
  if flags.lacksCases ∨ (¬ flags.unicode ∧ byte ∧ '\x7F' < c) then none
  else some (if flags.caseless then .oneOf .ascii (.bothCases (.single c)) else .text [c])

/-- The character that a character in brackets stands for. -/
def member? (flags : Flags) (c : Char) : Option Char :=
  if flags.lacksCases ∨ (¬ flags.unicode ∧ '\x7F' < c) then none else some c

/-- A named set, or what is not in it. -/
def named? (flags : Flags) (s : CharSet) (negated : Bool) : Option CharSet :=
  if flags.unicode ∨ negated then none else some s

/-- The set that a dot stands for. -/
def dot? (flags : Flags) : Option CharSet :=
  if ¬ flags.unicode then none
  else if flags.dotAll then some (.compl .empty)
  else if flags.returns then some (.compl (.unionAll [.single '\r', .single '\n']))
  else some (.compl (.single '\n'))

/-- What `^` asks for. -/
def caret (flags : Flags) : Assertion :=
  if ¬ flags.lines then .textStart else if flags.returns then .anyLineStart else .lineStart

/-- What `$` asks for. -/
def dollar (flags : Flags) : Assertion :=
  if ¬ flags.lines then .textEnd else if flags.returns then .anyLineEnd else .lineEnd

/-- A set closed under the cases of letters, if the flags ask for it.  For all
    characters these are not known; but then no character is let into brackets,
    and a set that holds all characters or none is closed. -/
def cased (flags : Flags) (s : CharSet) : CharSet :=
  if flags.caseless ∧ ¬ flags.unicode then .bothCases s else s

/-- The set that brackets around `s` stand for. -/
def bracketed? (flags : Flags) (s : CharSet) (negated : Bool) : Option CharSet :=
  if ¬ negated then some (flags.cased s)
  else if flags.unicode then some (.compl (flags.cased s))
  else none

end Flags

/-- A text without the blanks and comments at its front.  A comment goes from a
    number sign to the end of its line. -/
def skipFrom : Bool → List Char → List Char
  | _, [] => []
  | true, c :: rest => skipFrom (c ≠ '\n') rest
  | false, c :: rest =>
    if isBlank c then skipFrom false rest
    else if c = '#' then skipFrom true rest
    else c :: rest

/-- A text without what does not count at its front. -/
def skip (flags : Flags) (cs : List Char) : List Char :=
  if flags.verbose then skipFrom false cs else cs

/-- What a backslash starts. -/
inductive Escape where
  /-- A character, perhaps as the number of a byte. -/
  | char (c : Char) (byte : Bool)
  /-- A named set, or what is not in it. -/
  | named (s : CharSet) (negated : Bool)
  | assertion (a : Assertion)
  deriving DecidableEq, Repr

namespace Escape

def hexDigit? (c : Char) : Option Nat :=
  if c.isDigit then some (c.toNat - '0'.toNat)
  else if 'a' ≤ c ∧ c ≤ 'f' then some (c.toNat - 'a'.toNat + 10)
  else if 'A' ≤ c ∧ c ≤ 'F' then some (c.toNat - 'A'.toNat + 10)
  else none

/-- Reads `n` hexadecimal digits behind a `value`. -/
def hexNumber? (flags : Flags) : (n value : Nat) → List Char → Option (Nat × List Char)
  | 0, value, cs => some (value, cs)
  | n + 1, value, cs =>
    match skip flags cs with
    | [] => none
    | c :: rest =>
      match hexDigit? c with
      | some d => hexNumber? flags n (16 * value + d) rest
      | none => none

/-- Reads a character by its number of `n` hexadecimal digits. -/
def hexChar? (flags : Flags) (n : Nat) (cs : List Char) : Option (Escape × List Char) :=
  match hexNumber? flags n 0 cs with
  | some (value, rest) =>
    if value.isValidChar then some (char (Char.ofNat value) (n = 2), rest) else none
  | none => none

/-- The characters of ASCII that stand for themselves behind a backslash: all
    but letters, digits and angles. -/
def isPlain (c : Char) : Bool :=
  decide (c ≤ '\x7F') && !c.isAlphanum && c ≠ '<' && c ≠ '>'

/-- What a single character behind a backslash stands for. -/
def ofChar? (c : Char) : Option Escape :=
  match c with
  | 'a' => some (char '\x07' false)
  | 'f' => some (char '\x0C' false)
  | 't' => some (char '\t' false)
  | 'n' => some (char '\n' false)
  | 'r' => some (char '\r' false)
  | 'v' => some (char '\x0B' false)
  | 'd' => some (named .digits false)
  | 'D' => some (named .digits true)
  | 's' => some (named .spaces false)
  | 'S' => some (named .spaces true)
  | 'w' => some (named .wordChars false)
  | 'W' => some (named .wordChars true)
  | 'A' => some (assertion .textStart)
  | 'z' => some (assertion .textEnd)
  | 'b' => some (assertion .wordBoundary)
  | 'B' => some (assertion .noWordBoundary)
  | '<' => some (assertion .wordStart)
  | '>' => some (assertion .wordEnd)
  | c => if isPlain c then some (char c false) else none

/-- Reads what follows a backslash. -/
def read? (flags : Flags) : List Char → Option (Escape × List Char)
  | [] => none
  | 'x' :: rest => hexChar? flags 2 rest
  | 'u' :: rest => hexChar? flags 4 rest
  | 'U' :: rest => hexChar? flags 8 rest
  | c :: rest => (ofChar? c).map fun e => (e, rest)

end Escape

end Pattern

end NamedMutex
