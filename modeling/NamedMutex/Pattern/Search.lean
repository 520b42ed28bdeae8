/-
  Searching a text for a pattern.

  Matches may start at every place of a text; an earlier start is preferred to a
  later one, and then the pattern decides.  The search follows all ways at once,
  character by character, as addresses of the pattern's code in the order of
  preference.  No address is followed twice from the same place, so what is
  reached by several ways goes on where it was reached first.

  * `Search.advance` takes a character;
  * `Pattern.accepts` says whether the preferred match ends at the end of the
    text.
-/
import NamedMutex.Pattern.Code

namespace NamedMutex

/-- The ways that are followed in a text. -/
structure Search where
  /-- The addresses at which ways go on, the preferred one first. -/
  threads : List Nat
  /-- Whether matches may still start. -/
  starting : Bool
  deriving DecidableEq, Repr

namespace Search

/-- The addresses reached from others without taking a character, the latest
    first; `seen` are those reached before, and `n` bounds the steps. -/
def closure (code : Array Instruction) (holds : Assertion → Bool) :
    (n : Nat) → (todo seen : List Nat) → List Nat
  | 0, _, seen => seen
  | _ + 1, [], seen => seen
  | n + 1, i :: todo, seen =>
    if i ∈ seen then closure code holds n todo seen
    else
      let next := (code[i]?.map (Instruction.successors holds)).getD []
      closure code holds n (next ++ todo) (i :: seen)

/-- The addresses reached from others between two characters, in order of
    preference.  Every instruction leads to two addresses at most, which bounds
    the steps. -/
def reached (code : Array Instruction) (before after : Option Char) (todo : List Nat) : List Nat :=
  (closure code (Assertion.holds before after) (todo.length + 2 * code.size + 1) todo []).reverse

/-- The address behind the code, where a match is complete. -/
def complete (code : Array Instruction) : Nat := code.size

/-- The search at the start of a text. -/
def start : Search := ⟨[], true⟩

/-- The addresses at which ways go on here. -/
def here (s : Search) : List Nat :=
  s.threads ++ if s.starting then [0] else []

/-- Whether a match that starts within the bytes of a character is complete at
    once.  On both sides of such a place there is no character of ASCII. -/
def startsWithin (code : Array Instruction) (c : Char) : Bool :=
  decide ('\x7F' < c) && decide (complete code ∈ reached code (some c) (some c) [0])

/-- Takes a character.  What is less preferred than a complete match is given
    up, and so are later starts. -/
def advance (code : Array Instruction) (before : Option Char) (c : Char) (s : Search) : Search :=
  let ways := reached code before (some c) s.here
  let preferred := ways.takeWhile (· ≠ complete code)
  { threads := preferred.filterMap fun i => code[i]?.bind (Instruction.afterTaking? c)
    starting := s.starting && decide (complete code ∉ ways) && !startsWithin code c }

/-- Whether a match is complete at the end of a text. -/
def succeeds (code : Array Instruction) (before : Option Char) (s : Search) : List Char → Bool
  | [] => decide (complete code ∈ reached code before none s.here)
  | c :: rest => succeeds code (some c) (s.advance code before c) rest

end Search

namespace Pattern

/-- Whether the preferred match in a text ends at the end of the text. -/
def accepts (p : Pattern) (text : String) : Bool :=
  Search.start.succeeds (p.code 0 p.codeSize).toArray none text.toList

end Pattern

end NamedMutex
