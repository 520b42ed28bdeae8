/-
  Patterns of text, in the way of regular expressions.

  A pattern is put together from smaller ones.  Of several ways to match it
  prefers one: the left branch before the right one, and one more round before
  none unless it is told otherwise.

  * `Pattern.sequence` puts patterns one after another, `Pattern.choice` puts them
    side by side, and `Pattern.repeated` repeats one;
  * `Assertion.holds` decides the conditions on the place between two characters.
-/
import NamedMutex.Pattern.CharSet

namespace NamedMutex

/-- A condition on the two characters between which a place lies. -/
inductive Assertion where
  | textStart
  | textEnd
  /-- The start of the text, or the place after a line feed. -/
  | lineStart
  | lineEnd
  /-- The same where lines end with a line feed, a carriage return or both. -/
  | anyLineStart
  | anyLineEnd
  | wordBoundary
  | noWordBoundary
  | wordStart
  | wordEnd
  deriving DecidableEq, Repr

namespace Assertion

/-- Whether a word of ASCII goes on with a character. -/
def inWord (c : Option Char) : Bool :=
  c.any CharSet.wordChars.contains

/-- Whether a condition holds between two characters; at the ends of a text one
    of them is missing. -/
def holds (before after : Option Char) : Assertion → Bool
  | textStart => before.isNone
  | textEnd => after.isNone
  | lineStart => before.isNone || before = some '\n'
  | lineEnd => after.isNone || after = some '\n'
  | anyLineStart => before.isNone || before = some '\n' ||
    (before = some '\r' && after ≠ some '\n')
  | anyLineEnd => after.isNone || after = some '\r' ||
    (after = some '\n' && before ≠ some '\r')
  | wordBoundary => inWord before != inWord after
  | noWordBoundary => inWord before == inWord after
  | wordStart => !inWord before && inWord after
  | wordEnd => inWord before && !inWord after

end Assertion

/-- How often a pattern may be repeated. -/
inductive Rounds where
  | atMostOne
  | any
  | atLeastOne
  deriving DecidableEq, Repr

/-- What a set of characters was written for. -/
inductive Alphabet where
  | unicode
  | ascii
  deriving DecidableEq, Repr

/-- A pattern of text. -/
inductive Pattern where
  /-- Characters one after another; none at all match at any place. -/
  | text (cs : List Char)
  /-- One character of a set.  A set that was written for ASCII is told apart from
      the same set for all characters. -/
  | chars (alphabet : Alphabet) (s : CharSet)
  | assert (a : Assertion)
  | seq (p q : Pattern)
  /-- One of two patterns, the first one if there is a choice. -/
  | alt (p q : Pattern)
  /-- The group with a number.  What is in it is kept apart from what is around. -/
  | group (n : Nat) (p : Pattern)
  /-- A number of rounds; a greedy pattern prefers one more to none. -/
  | rounds (r : Rounds) (greedy : Bool) (p : Pattern)
  deriving DecidableEq, Repr

namespace Pattern

/-- The pattern that matches nowhere. -/
def fail : Pattern := chars .ascii .empty

/-- One character of a set.  A set of one character is a text. -/
def oneOf (alphabet : Alphabet) (s : CharSet) : Pattern :=
  if s = .empty then fail
  else match s.only? with
    | some c => text [c]
    | none => chars alphabet s

/-- The patterns that a pattern is a sequence of. -/
def elements : Pattern → List Pattern
  | text [] => []
  | seq p q => p.elements ++ q.elements
  | p => [p]

/-- The patterns that a pattern chooses from. -/
def branches : Pattern → List Pattern
  | alt p q => p.branches ++ q.branches
  | p => [p]

/-- Makes one text of texts that follow one another. -/
def joinTexts : List Pattern → List Pattern
  | [] => []
  | text cs :: rest =>
    match joinTexts rest with
    | text ds :: more => text (cs ++ ds) :: more
    | more => text cs :: more
  | p :: rest => p :: joinTexts rest

/-- Elements one after another. -/
def ofElements : List Pattern → Pattern
  | [] => text []
  | [p] => p
  | p :: ps => seq p (ofElements ps)

/-- Patterns one after another. -/
def sequence (ps : List Pattern) : Pattern :=
  ofElements (joinTexts (ps.flatMap elements))

/-- Branches side by side. -/
def ofBranches : List Pattern → Pattern
  | [] => fail
  | [p] => p
  | p :: ps => alt p (ofBranches ps)

/-- The set of a text of one character. -/
def letter? : Pattern → Option CharSet
  | text [c] => some (.single c)
  | _ => none

/-- The set of characters that a pattern stands for. -/
def charSet? : Pattern → Option CharSet
  | chars _ s => some s
  | _ => none

/-- Patterns side by side.  Texts of one character make a set of characters, and
    so do sets; but not a text and a set. -/
def merge (ps : List Pattern) : Pattern :=
  match ps.flatMap branches with
  | [p] => p
  | branches =>
    match branches.mapM letter?, branches.mapM charSet? with
    | some sets, _ | none, some sets => oneOf .unicode (.unionAll sets)
    | none, none => ofBranches branches

/-- How many elements two lists have in common at their front. -/
def sharedLength : List Pattern → List Pattern → Nat
  | p :: ps, q :: qs => if p = q then sharedLength ps qs + 1 else 0
  | _, _ => 0

/-- How many elements sequences have in common at their front; a sequence of
    less than two shares none. -/
def frontLength : List (List Pattern) → Nat
  | [] => 0
  | first :: others =>
    if (first :: others).all fun es => 1 < es.length then
      others.foldl (fun n es => sharedLength (first.take n) es) first.length
    else 0

/-- Patterns side by side.  If all branches start alike, they are parted only
    after what they share: the preference among the ways to match that comes
    before the preference among the branches. -/
def choice (ps : List Pattern) : Pattern :=
  let branches := ps.flatMap branches
  let sequences := branches.map elements
  match branches, frontLength sequences with
  | _ :: _ :: _, n + 1 =>
    sequence ((sequences.headD []).take (n + 1) ++
      [merge (sequences.map fun es => ofElements (es.drop (n + 1)))])
  | _, _ => merge branches

/-- Whether no match takes a character. -/
def takesNothing : Pattern → Bool
  | text cs => cs.isEmpty
  | chars _ _ => false
  | assert _ => true
  | seq p q | alt p q => p.takesNothing && q.takesNothing
  | group _ p => p.takesNothing
  | rounds .atMostOne _ p => p.takesNothing
  | rounds .any _ _ | rounds .atLeastOne _ _ => false

/-- The least number of characters that a match takes, as far as the form of the
    pattern tells; it does not if a set in the pattern is empty. -/
def least? : Pattern → Option Nat
  | text cs => some cs.length
  | chars _ s => if s = .empty then none else some 1
  | assert _ => some 0
  | seq p q => do pure ((← p.least?) + (← q.least?))
  | alt p q => do pure (min (← p.least?) (← q.least?))
  | group _ p | rounds .atLeastOne _ p => p.least?
  | rounds .any _ p | rounds .atMostOne _ p => p.least?.map fun _ => 0

/-- Whether every match takes a character. -/
def takesAlways (p : Pattern) : Bool :=
  p.least?.any (0 < ·)

/-- Rounds of a pattern.  More than one round of a pattern that takes nothing
    makes no difference. -/
def repeated (r : Rounds) (greedy : Bool) (p : Pattern) : Pattern :=
  if p.takesNothing then
    match r with
    | .atLeastOne => p
    | .atMostOne | .any => rounds .atMostOne greedy p
  else rounds r greedy p

end Pattern

end NamedMutex
