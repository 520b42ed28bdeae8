/-
  Patterns as code.

  The code of a pattern is a list of instructions at consecutive addresses.  It
  is entered at its first address and left for the address `next`, wherever the
  code lies.

  * `Pattern.code` lays the code of a pattern out from an address on;
  * `Instruction.successors` says where an instruction leads without taking a
    character.
-/
import NamedMutex.Pattern

namespace NamedMutex

/-- An instruction of a pattern's code. -/
inductive Instruction where
  /-- Take a character of a set. -/
  | take (s : CharSet) (next : Nat)
  | check (a : Assertion) (next : Nat)
  /-- Go on at two addresses; the first one is preferred. -/
  | fork (first second : Nat)
  | jump (next : Nat)
  deriving DecidableEq, Repr

namespace Instruction

/-- A fork between another round and the way out. -/
def again (greedy : Bool) (round out : Nat) : Instruction :=
  if greedy then fork round out else fork out round

/-- Where an instruction leads without taking a character, in order of
    preference, if the assertions hold that `holds` names. -/
def successors (holds : Assertion → Bool) : Instruction → List Nat
  | take _ _ => []
  | check a next => if holds a then [next] else []
  | fork first second => [first, second]
  | jump next => [next]

/-- Where an instruction leads by taking a character. -/
def afterTaking? (c : Char) : Instruction → Option Nat
  | take s next => if s.contains c then some next else none
  | _ => none

end Instruction

namespace Pattern

/-- How many instructions the code of a pattern has. -/
def codeSize : Pattern → Nat
  | text cs => max 1 cs.length
  | chars _ _ | assert _ => 1
  | seq p q => p.codeSize + q.codeSize
  | alt p q => p.codeSize + q.codeSize + 1
  | group _ p => p.codeSize
  | rounds .any _ p => p.codeSize + if p.takesAlways then 1 else 2
  | rounds .atMostOne _ p | rounds .atLeastOne _ p => p.codeSize + 1

/-- The code of a text: its characters are taken in turn. -/
def textCode : (cs : List Char) → (base next : Nat) → List Instruction
  | [], _, next => [.jump next]
  | [c], _, next => [.take (.single c) next]
  | c :: cs, base, next => .take (.single c) (base + 1) :: textCode cs (base + 1) next

/-- The code of a pattern that starts at the address `base`.  Another round is
    decided on behind a round.  If there may be none at all, this is decided on
    before; that is the same place if every round takes a character. -/
def code : (p : Pattern) → (base next : Nat) → List Instruction
  | text cs, base, next => textCode cs base next
  | chars _ s, _, next => [.take s next]
  | assert a, _, next => [.check a next]
  | seq p q, base, next =>
    let second := base + p.codeSize
    p.code base second ++ q.code second next
  | alt p q, base, next =>
    let second := base + 1 + p.codeSize
    .fork (base + 1) second :: (p.code (base + 1) next ++ q.code second next)
  | group _ p, base, next => p.code base next
  | rounds .atMostOne greedy p, base, next =>
    .again greedy (base + 1) next :: p.code (base + 1) next
  | rounds .atLeastOne greedy p, base, next =>
    let behind := base + p.codeSize
    p.code base behind ++ [.again greedy base next]
  | rounds .any greedy p, base, next =>
    if p.takesAlways then .again greedy (base + 1) next :: p.code (base + 1) base
    else
      let behind := base + 1 + p.codeSize
      .again greedy (base + 1) next ::
        (p.code (base + 1) behind ++ [.again greedy (base + 1) next])

end Pattern

end NamedMutex
