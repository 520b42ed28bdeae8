/-
  Reading patterns.

  The reader goes through a text once and keeps in mind which groups and
  brackets are open.  Counts in braces are not part of the notation.  Parts may
  be nested up to the depth `Nested.limit`.

  * `Reader.step` reads one part of a pattern;
  * `Pattern.read` reads a whole pattern or says why a text is none.
-/
import NamedMutex.Pattern.Escape
import NamedMutex.Text.Alphanumeric

namespace NamedMutex

namespace Pattern

/-- Why a text is no pattern. -/
inductive Flaw where
  /-- It has not the form of a pattern, asks for sets that are not known, or is
      nested too deep. -/
  | form
  /-- It asks for the boundaries of words in all scripts. -/
  | wordBoundary
  deriving DecidableEq, Repr

def Flaw.message : Flaw → String
  | form => "error building NFA"
  | wordBoundary =>
    "unsupported regex feature for DFAs: cannot build DFAs for regexes with Unicode word " ++
      "boundaries; switch to ASCII word boundaries, or heuristically enable Unicode word " ++
      "boundaries or use a different regex engine"

/-- An operation between two parts of a bracket. -/
inductive SetOperation where
  | inter
  | diff
  | either
  deriving DecidableEq, Repr

/-- Something that was read, and how deep other parts are nested in it. -/
structure Nested (α : Type) where
  value : α
  depth : Nat
  deriving DecidableEq, Repr

namespace Nested

variable {α : Type}

/-- How deep parts may be nested. -/
def limit : Nat := 250

/-- The depth of parts that stand together.  More than one are nested in what
    they make up. -/
def depthOf (parts : List (Nested α)) : Nat :=
  parts.foldl (fun n part => max n part.depth) 0 + if 1 < parts.length then 1 else 0

end Nested

/-- A bracket that is open. -/
structure Bracket where
  negated : Bool
  /-- Whether nothing but dashes was read of it. -/
  fresh : Bool
  /-- What was read since the last operation, the latest first. -/
  members : List (Nested CharSet)
  /-- The last operation with the set before it. -/
  pending : Option (Nested CharSet × SetOperation)
  deriving DecidableEq, Repr

/-- A group that is open: its number, if it has one, and what was read of the
    pattern around it. -/
structure Group where
  number : Option Nat
  flags : Flags
  items : List (Nested (Option Pattern))
  branches : List (Nested Pattern)
  deriving DecidableEq, Repr

/-- What a reader of patterns keeps in mind. -/
structure Reader where
  flags : Flags
  /-- The items of the branch at hand, the latest first.  A setting of flags is
      an item that cannot be repeated. -/
  items : List (Nested (Option Pattern))
  /-- The branches before it, the latest first. -/
  branches : List (Nested Pattern)
  /-- The groups that are open, the innermost first. -/
  groups : List Group
  /-- The number of the next group. -/
  nextNumber : Nat
  /-- The brackets that are open, the innermost first. -/
  brackets : List Bracket
  /-- The names of groups. -/
  names : List (List Char)
  /-- Whether boundaries of words in all scripts were asked for. -/
  widely : Bool
  deriving DecidableEq, Repr

namespace Reader

/-- A reader at the start of a pattern. -/
def start : Reader := ⟨.start, [], [], [], 0, [], [], false⟩

/-- Takes an item up. -/
def push (r : Reader) (p : Pattern) : Reader :=
  { r with items := ⟨some p, 0⟩ :: r.items }

/-- The pattern of the branch at hand. -/
def branch (r : Reader) : Nested Pattern :=
  ⟨.sequence (r.items.reverse.filterMap (·.value)), Nested.depthOf r.items⟩

/-- The pattern of all branches. -/
def pattern (r : Reader) : Nested Pattern :=
  let branches := (r.branch :: r.branches).reverse
  ⟨.choice (branches.map (·.value)), Nested.depthOf branches⟩

/-- Starts another branch. -/
def nextBranch (r : Reader) : Reader :=
  { r with items := [], branches := r.branch :: r.branches }

/-- Opens a group without a number, in which `flags` are in force. -/
def openGroup (r : Reader) (flags : Flags) : Reader :=
  { r with
    flags := flags
    items := []
    branches := []
    groups := ⟨none, r.flags, r.items, r.branches⟩ :: r.groups }

/-- Opens the next group with a number. -/
def openNumbered (r : Reader) : Reader :=
  { r with
    items := []
    branches := []
    groups := ⟨some r.nextNumber, r.flags, r.items, r.branches⟩ :: r.groups
    nextNumber := r.nextNumber + 1 }

/-- Closes the innermost group. -/
def closeGroup? (r : Reader) : Option Reader :=
  match r.groups with
  | [] => none
  | g :: groups =>
    let inner := r.pattern
    let value := match g.number with
      | some n => .group n inner.value
      | none => inner.value
    some { r with
      flags := g.flags
      items := ⟨some value, inner.depth + 1⟩ :: g.items
      branches := g.branches
      groups := groups }

/-- Whether a group may have a name. -/
def IsGroupName : List Char → Prop
  | [] => False
  | c :: rest =>
    (c = '_' ∨ isAlphabetic c) ∧
      ∀ c ∈ rest, c ∈ ['_', '.', '[', ']'] ∨ isAlphanumeric c

instance : (name : List Char) → Decidable (IsGroupName name)
  | [] => inferInstanceAs (Decidable False)
  | _ :: _ => inferInstanceAs (Decidable (_ ∧ _))

/-- Opens a group with a name, which ends with an angle. -/
def openNamed? (r : Reader) (cs : List Char) : Option (Reader × List Char) :=
  let name := cs.takeWhile (· ≠ '>')
  match cs.dropWhile (· ≠ '>') with
  | [] => none
  | _ :: rest =>
    if IsGroupName name ∧ name ∉ r.names then
      some ({ r with names := name :: r.names }.openNumbered, rest)
    else none

/-- Reads flags up to a colon, which opens a group for them, or up to the end of
    the parenthesis: then they are in force from here on. -/
def readFlags? (r : Reader) (cs : List Char) : Option (Reader × List Char) :=
  let isLetter := fun c => decide (c ≠ ':' ∧ c ≠ ')')
  let letters := cs.takeWhile isLetter
  let flags := r.flags.apply letters
  match cs.dropWhile isLetter with
  | [] => none
  | c :: rest =>
    if ¬ Flags.IsList letters then none
    else if c = ':' then some (r.openGroup flags, rest)
    else if letters = [] then none
    else some ({ r with flags := flags, items := ⟨none, 0⟩ :: r.items }, rest)

/-- Reads what follows an opening parenthesis. -/
def readGroup? (r : Reader) (cs : List Char) : Option (Reader × List Char) :=
  match skip r.flags cs with
  | '?' :: '=' :: _ | '?' :: '!' :: _ | '?' :: '<' :: '=' :: _ | '?' :: '<' :: '!' :: _ => none
  | '?' :: 'P' :: '<' :: rest | '?' :: '<' :: rest => r.openNamed? rest
  | '?' :: rest => r.readFlags? rest
  | rest => some (r.openNumbered, rest)

/-- How many rounds the mark of a repetition allows. -/
def roundsOf (mark : Char) : Rounds :=
  match mark with
  | '?' => .atMostOne
  | '+' => .atLeastOne
  | _ => .any

/-- Reads a repetition of the last item; a question mark may follow it. -/
def repeat? (r : Reader) (mark : Char) (cs : List Char) : Option (Reader × List Char) :=
  match r.items with
  | ⟨some p, depth⟩ :: items =>
    let marked := cs.head? = some '?'
    let greedy := marked == r.flags.lazy
    some ({ r with items := ⟨some (.repeated (roundsOf mark) greedy p), depth + 1⟩ :: items },
      if marked then cs.tail else cs)
  | _ => none

/-- Takes up what a backslash started. -/
def pushEscape? (r : Reader) : Escape → Option Reader
  | .char c byte => (r.flags.literal? c byte).map r.push
  | .named s negated => (r.flags.named? s negated).map fun s => r.push (.oneOf r.flags.alphabet s)
  | .assertion a =>
    let plain := a = .textStart || a = .textEnd
    some { r.push (.assert a) with widely := r.widely || (r.flags.unicode && !plain) }

/-- Opens a bracket. -/
def openBracket (r : Reader) (cs : List Char) : Reader × List Char :=
  match skip r.flags cs with
  | '^' :: rest => ({ r with brackets := ⟨true, true, [], none⟩ :: r.brackets }, rest)
  | rest => ({ r with brackets := ⟨false, true, [], none⟩ :: r.brackets }, rest)

/-- Reads a part of a pattern outside brackets that starts with `c`. -/
def readOutside? (r : Reader) (c : Char) (cs : List Char) : Option (Reader × List Char) :=
  match c with
  | '(' => r.readGroup? cs
  | ')' => r.closeGroup?.map fun r => (r, cs)
  | '|' => some (r.nextBranch, cs)
  | '[' => some (r.openBracket cs)
  | '?' | '*' | '+' => r.repeat? c cs
  | '{' => none
  | '.' => r.flags.dot?.map fun s => (r.push (.oneOf r.flags.alphabet s), cs)
  | '^' => some (r.push (.assert r.flags.caret), cs)
  | '$' => some (r.push (.assert r.flags.dollar), cs)
  | '\\' => do
    let (e, rest) ← Escape.read? r.flags cs
    let r ← r.pushEscape? e
    some (r, rest)
  | c => (r.flags.literal? c false).map fun p => (r.push p, cs)

/-- What was read of a bracket since the last operation. -/
def latest (b : Bracket) : Nested CharSet :=
  ⟨.unionAll (b.members.map (·.value)), Nested.depthOf b.members⟩

/-- What a bracket holds when an operation or its end is reached. -/
def settled (flags : Flags) (b : Bracket) : Nested CharSet :=
  let second := latest b
  match b.pending with
  | none => second
  | some (first, operation) =>
    let before := flags.cased first.value
    let after := flags.cased second.value
    let value := match operation with
      | .inter => .inter before after
      | .diff => .diff before after
      | .either => .either before after
    ⟨value, max first.depth second.depth + 1⟩

/-- The innermost bracket is changed. -/
def withBracket (r : Reader) (brackets : List Bracket) (b : Bracket) : Reader :=
  { r with brackets := b :: brackets }

/-- Puts a set into a bracket. -/
def withMember (b : Bracket) (s : CharSet) (depth : Nat) : Bracket :=
  { b with members := ⟨s, depth⟩ :: b.members }

/-- Closes the bracket `b`, which stands in `outer`. -/
def closeBracket? (r : Reader) (b : Bracket) (outer : List Bracket) : Option Reader := do
  let inner := settled r.flags b
  let s ← r.flags.bracketed? inner.value b.negated
  let depth := inner.depth + 1
  match outer with
  | [] =>
    let p := .oneOf r.flags.alphabet s
    some { r with brackets := [], items := ⟨some p, depth⟩ :: r.items }
  | around :: rest => some (r.withBracket rest (withMember around s depth))

/-- Reads the name of a set of ASCII between `[:` and `:]`. -/
def setName? : List Char → Option (CharSet × Bool × List Char)
  | ':' :: cs =>
    let negated := cs.head? = some '^'
    let cs := if negated then cs.tail else cs
    match cs.dropWhile (· ≠ ':') with
    | ':' :: ']' :: rest =>
      (CharSet.named? (cs.takeWhile (· ≠ ':'))).map fun s => (s, negated, rest)
    | _ => none
  | _ => none

/-- Reads an end of a range, or what stands alone in a bracket. -/
def readMember? (flags : Flags) (c : Char) (cs : List Char) : Option (Escape × List Char) :=
  if c = '\\' then Escape.read? flags cs else some (.char c false, cs)

/-- The character that an end of a range stands for. -/
def rangeEnd? (flags : Flags) : Escape → Option Char
  | .char c _ => flags.member? c
  | _ => none

/-- The set that a member of a bracket stands for. -/
def memberSet? (flags : Flags) : Escape → Option CharSet
  | .char c _ => (flags.member? c).map CharSet.single
  | .named s negated => flags.named? s negated
  | .assertion _ => none

/-- The first character of a text that counts. -/
def peek? (flags : Flags) (cs : List Char) : Option Char :=
  if flags.verbose then
    match cs.dropWhile isBlank with
    | '#' :: rest => (rest.dropWhile isBlank).head?
    | rest => rest.head?
  else cs.head?

/-- Reads a member of a bracket or a range; a dash before a dash or before the
    end of the bracket makes no range. -/
def readMembers? (flags : Flags) (c : Char) (cs : List Char) : Option (CharSet × List Char) := do
  let (first, rest) ← readMember? flags c cs
  match skip flags rest with
  | [] => none
  | '-' :: more =>
    if peek? flags more = some ']' ∨ peek? flags more = some '-' then
      let s ← memberSet? flags first
      some (s, '-' :: more)
    else match skip flags more with
      | [] => none
      | d :: more => do
        let (second, rest) ← readMember? flags d more
        let low ← rangeEnd? flags first
        let high ← rangeEnd? flags second
        if low ≤ high then some (.range low high, rest) else none
  | rest => do
    let s ← memberSet? flags first
    some (s, rest)

/-- Starts the second part of an operation. -/
def operate (r : Reader) (b : Bracket) (outer : List Bracket) (operation : SetOperation) : Reader :=
  r.withBracket outer { b with members := [], pending := some (settled r.flags b, operation) }

/-- Reads a part of the bracket `b` that starts with `c`.  A bracket may start
    with dashes, or with its own end, as members. -/
def readInside? (r : Reader) (b : Bracket) (outer : List Bracket) (c : Char) (cs : List Char) :
    Option (Reader × List Char) :=
  if b.fresh ∧ (c = '-' ∨ (c = ']' ∧ b.members = [])) then
    (r.flags.member? c).map fun c =>
      (r.withBracket outer { withMember b (.single c) 0 with fresh := c = '-' }, cs)
  else
    let b := { b with fresh := false }
    match c, cs with
    | '[', cs =>
      match setName? cs with
      | some (s, negated, rest) =>
        if r.flags.lacksCases then none
        else (r.flags.bracketed? s negated).map fun s =>
          (r.withBracket outer (withMember b s 0), rest)
      | none => some ((r.withBracket outer b).openBracket cs)
    | ']', cs => (r.closeBracket? b outer).map fun r => (r, cs)
    | '&', '&' :: rest => some (r.operate b outer .inter, rest)
    | '-', '-' :: rest => some (r.operate b outer .diff, rest)
    | '~', '~' :: rest => some (r.operate b outer .either, rest)
    | c, cs => do
      let (s, rest) ← readMembers? r.flags c cs
      some (r.withBracket outer (withMember b s 0), rest)

/-- Reads the part of a pattern that starts with `c`. -/
def step (r : Reader) (c : Char) (cs : List Char) : Option (Reader × List Char) :=
  match r.brackets with
  | [] => r.readOutside? c cs
  | b :: outer => r.readInside? b outer c cs

/-- Reads parts of a pattern to its end; `n` bounds their number. -/
def readAll : Nat → Reader → List Char → Option Reader
  | 0, r, cs => if skip r.flags cs = [] then some r else none
  | n + 1, r, cs =>
    match skip r.flags cs with
    | [] => some r
    | c :: rest => do
      let (r, rest) ← r.step c rest
      readAll n r rest

end Reader

/-- Reads a pattern.  No part of it is without a character, so the length of the
    text bounds their number. -/
def read (text : List Char) : Except Flaw Pattern :=
  match Reader.readAll text.length .start text with
  | none => .error .form
  | some r =>
    let whole := r.pattern
    if r.groups ≠ [] ∨ r.brackets ≠ [] ∨ Nested.limit < whole.depth then .error .form
    else if r.widely then .error .wordBoundary
    else .ok whole.value

end Pattern

end NamedMutex
