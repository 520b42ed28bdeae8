/-
  Directives: the rules of a filter.

  A directive is a level, or a source with an optional level.  It may name a
  span in brackets, and a field of it in braces with an optional value:
  `source[span{field=value}]=level`.

  * `FieldCondition.parse` reads the condition on a field;
  * `Directive.parse` reads a directive or says why it cannot.
-/
import NamedMutex.Pattern.Reader
import NamedMutex.Pattern.Search
import NamedMutex.Span
import NamedMutex.Text.Numeral

namespace NamedMutex

/-- The value that a field has to have. -/
inductive FieldValue where
  | number (n : Nat)
  /-- A text that the pattern accepts; `source` is the pattern as it is written. -/
  | text (source : List Char) (pattern : Pattern)
  /-- A value that no field of a span has: a truth value, or a number that is
      negative or a fraction. -/
  | never
  deriving DecidableEq, Repr

/-- Whether a field has the value. -/
def FieldValue.Fits : FieldValue → Event.Field → Prop
  | number n, .number k => n = k
  | text _ p, .text s => p.accepts s
  | _, _ => False

instance : (v : FieldValue) → (f : Event.Field) → Decidable (v.Fits f)
  | .number n, .number k => inferInstanceAs (Decidable (n = k))
  | .text _ p, .text s => inferInstanceAs (Decidable (p.accepts s = true))
  | .number _, .text _ | .number _, .flag _ | .number _, .process _
  | .text _ _, .number _ | .text _ _, .flag _ | .text _ _, .process _
  | .never, _ => inferInstanceAs (Decidable False)

/-- A condition on a field: there is one of that name, perhaps with a value. -/
structure FieldCondition where
  name : String
  value : Option FieldValue
  deriving DecidableEq, Repr

/-- A rule of a filter. -/
structure Directive where
  /-- The events and spans concerned are those whose source starts like this. -/
  source : Option String
  /-- The name of the span. -/
  span : Option String
  field : Option FieldCondition
  /-- The greatest detail that is shown; zero shows nothing. -/
  detail : Nat
  deriving DecidableEq, Repr

namespace Directive

/-- Why a text is no directive. -/
inductive Flaw where
  | form
  | level
  | field (flaw : Pattern.Flaw)
  /-- A part of it would start or end inside a character. -/
  | cut (offset : Nat)
  deriving DecidableEq, Repr

def Flaw.message : Flaw → String
  | form => "invalid filter directive"
  | level =>
    "error parsing level filter: expected one of \"off\", \"error\", \"warn\", \"info\", " ++
      "\"debug\", \"trace\", or a number 0-5"
  | field flaw => "invalid field filter: " ++ flaw.message
  | cut offset => s!"byte index {offset} is not a char boundary"

end Directive

namespace FieldValue

/-- Reads a value: what is no truth value and no number is a pattern. -/
def parse (cs : List Char) : Except Pattern.Flaw FieldValue :=
  let word := String.ofList cs
  match Numeral.parse? Numeral.wordLimit cs with
  | some n => .ok (number n)
  | none =>
    if word = "true" ∨ word = "false" ∨ (Binary64.parse? word).isSome then .ok never
    else match Pattern.read cs with
      | .ok p => .ok (text cs p)
      | .error flaw => .error flaw

end FieldValue

namespace FieldCondition

/-- Reads a name, and a value behind an equals sign; what stands behind another
    one does not count. -/
def parse (cs : List Char) : Except Pattern.Flaw FieldCondition :=
  let name := String.ofList (cs.takeWhile (· ≠ '='))
  match cs.dropWhile (· ≠ '=') with
  | [] => .ok ⟨name, none⟩
  | _ :: rest =>
    match FieldValue.parse (rest.takeWhile (· ≠ '=')) with
    | .ok value => .ok ⟨name, some value⟩
    | .error flaw => .error flaw

end FieldCondition

namespace Directive

/-- The names of the levels, in order of detail. -/
def levelNames : List String := ["off", "error", "warn", "info", "debug", "trace"]

/-- Reads a level: its name in any case, or its number. -/
def level? (cs : List Char) : Option Nat :=
  match Numeral.parse? 6 cs with
  | some n => some n
  | none =>
    if cs = [] then some 1
    else levelNames.findIdx? (· = String.ofList (cs.map Char.toLower))

/-- A directive that stands for everything. -/
def everything : Directive := ⟨none, none, none, 5⟩

/-- A word alone is a level or a source. -/
def ofWord (word : List Char) : Directive :=
  match level? word with
  | some n => { everything with detail := n }
  | none => { everything with source := some (String.ofList word) }

/-- The level at the end; none means every detail. -/
def withLevel (d : Directive) (part : List Char) : Except Flaw Directive :=
  if part = [] then .ok { d with detail := 5 }
  else match level? part with
    | some n => .ok { d with detail := n }
    | none => .error .level

/-- A condition on a field; an empty one is flawed. -/
def withField (d : Directive) (part : List Char) : Except Flaw Directive :=
  if part = [] then .error .form
  else match FieldCondition.parse part with
    | .ok condition => .ok { d with field := some condition }
    | .error flaw => .error (.field flaw)

/-- Whether a directive may start with a character. -/
def startsWord (c : Char) : Bool :=
  c = '-' || c = ':' || c = '_' || isAlphanumeric c

/-- Where the reader of a directive stands, and the offset at which the part at
    hand starts. -/
inductive Place where
  | start
  | word (from_ : Nat)
  | span (from_ : Nat)
  | field (from_ : Nat)
  | fieldsEnd
  | spanEnd
  | level (from_ : Nat)
  deriving DecidableEq, Repr

/-- The part of a text between two offsets. -/
def part (text : List Char) (low high : Nat) : Except Flaw (List Char) :=
  match Utf8.slice? text low high with
  | some cs => .ok cs
  | none => .error (.cut (if (Utf8.drop? low text).isSome then high else low))

/-- The part of a text from an offset on. -/
def lastPart (text : List Char) (low : Nat) : Except Flaw (List Char) :=
  part text low (Utf8.encode (String.ofList text)).length

/-- Reads the character `c` at the offset `i`: what has become of the directive,
    and where the reader stands after it.  Its parts are cut out of `text`. -/
def step (text : List Char) (d : Directive) (i : Nat) (c : Char) :
    Place → Except Flaw (Directive × Place)
  | .start =>
    if c = '[' then .ok (d, .span (i + 1))
    else if startsWord c then .ok (d, .word i)
    else .error .form
  | .word from_ =>
    if c = '=' ∨ c = '[' then do
      let source ← part text from_ i
      let next := if c = '=' then .level (i + 1) else .span (i + 1)
      pure ({ d with source := some (String.ofList source) }, next)
    else .ok (d, .word from_)
  | .span from_ =>
    if c = ']' ∨ c = '{' then do
      let span ← part text from_ i
      let name := if c = '{' ∧ span = [] then none else some (String.ofList span)
      let next := if c = ']' then .spanEnd else .field (i + 1)
      pure ({ d with span := name }, next)
    else .ok (d, .span from_)
  | .field from_ =>
    if c = '}' then do
      let condition ← part text from_ i
      let d ← d.withField condition
      pure (d, .fieldsEnd)
    else .ok (d, .field from_)
  | .fieldsEnd => if c = ']' then .ok (d, .spanEnd) else .error .form
  | .spanEnd => if c = '=' then .ok (d, .level (i + 1)) else .error .form
  | .level from_ => .ok (d, .level from_)

/-- Reads the end of a directive. -/
def close (text : List Char) (d : Directive) : Place → Except Flaw Directive
  | .word from_ => (lastPart text from_).map ofWord
  | .level from_ => (lastPart text from_).bind d.withLevel
  | .spanEnd => .ok d
  | .start | .span _ | .field _ | .fieldsEnd => .error .form

/-- Reads a directive character by character from the offset `i` on. -/
def scan (text : List Char) (d : Directive) (place : Place) (i : Nat) :
    List Char → Except Flaw Directive
  | [] => close text d place
  | c :: rest => do
    let (d, place) ← step text d i c place
    scan text d place (i + c.utf8Size) rest

/-- Reads a directive.  Blanks around it do not count for its form; but its
    parts are cut out of the text with its blanks, at the offsets that they have
    without those, so that a level next to a blank is not recognised. -/
def parse (text : List Char) : Except Flaw Directive :=
  scan text everything .start 0 (trim text)

end Directive

end NamedMutex
