/-
  Processes by their roles.

  The numbers of processes differ from run to run.  A transcript names the
  process that runs the scenario and its children by their roles instead.

  * `Roles.expand` puts numbers for roles in a text, `Roles.mask` roles for
    numbers; a number is a run of digits that no digit precedes or follows.
-/
import NamedMutex.Event
import NamedMutex.Text.Numeral

namespace NamedMutex

/-- The process that runs a scenario, and its children by name. -/
structure Roles where
  self : Pid
  children : List (String × Pid)
  deriving DecidableEq, Repr

namespace Roles

/-- A role as it is written. -/
def braced (role : List Char) : List Char := ['\x7b'] ++ role ++ ['\x7d']

def selfText : List Char := braced "self".toList

def childText (name : String) : List Char := braced ("child:" ++ name).toList

/-- The roles with their numbers. -/
def all (r : Roles) : List (List Char × Pid) :=
  (selfText, r.self) :: r.children.map fun (name, pid) => (childText name, pid)

/-- The role of a process, if it has one. -/
def roleOf? (r : Roles) (pid : Pid) : Option String :=
  (r.all.find? fun e => decide (e.2 = pid)).map fun e => String.ofList e.1

/-- A text with the numbers of processes for their roles; the first `skip`
    characters are done with. -/
def expandFrom (r : Roles) : Nat → List Char → List Char
  | _, [] => []
  | skip + 1, _ :: rest => expandFrom r skip rest
  | 0, c :: rest =>
    match r.all.find? fun e => e.1.isPrefixOf (c :: rest) with
    | some (role, pid) => Numeral.ofNat pid ++ expandFrom r (role.length - 1) rest
    | none => c :: expandFrom r 0 rest

/-- A text with the numbers of processes for their roles. -/
def expand (r : Roles) (s : String) : String :=
  String.ofList (expandFrom r 0 s.toList)

/-- A run of digits, or the role of the process that it is the number of. -/
def maskNumber (r : Roles) (digits : List Char) : List Char :=
  if digits = [] then []
  else match r.roleOf? (Numeral.value digits) with
    | some role => role.toList
    | none => digits

/-- Masks the numbers in a text; `digits` is the number at hand. -/
def maskFrom (r : Roles) (digits : List Char) : List Char → List Char
  | [] => r.maskNumber digits
  | c :: rest =>
    if c.isDigit then maskFrom r (digits ++ [c]) rest
    else r.maskNumber digits ++ c :: maskFrom r [] rest

/-- A text with roles for the numbers of processes. -/
def mask (r : Roles) (s : String) : String :=
  String.ofList (maskFrom r [] s.toList)

end Roles

end NamedMutex
