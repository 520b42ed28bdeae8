/-
  Which events are shown.

  A filter is a list of directives, parted by commas.  Those without a span and
  without a value are about events: the most specific one that concerns an event
  decides about it.  Those with a span or a field are about spans: they show
  what lies in a span up to their level.

  * `Filter.parse` reads a filter and collects the complaints;
  * `Filter.admits` decides about an event and the spans around it.
-/
import NamedMutex.Program
import NamedMutex.Telemetry.Directive

namespace NamedMutex

namespace Directive

/-- Whether the directive asks for the value of a field. -/
def hasValue (d : Directive) : Bool :=
  d.field.any fun f => f.value.isSome

/-- Whether the directive is about events. -/
def isPlain (d : Directive) : Bool :=
  d.span.isNone && !d.hasValue

/-- Whether the directive is about spans. -/
def isScoped (d : Directive) : Bool :=
  d.span.isSome || d.field.isSome

/-- Whether the directive is about a source. -/
def fitsSource (d : Directive) (source : String) : Bool :=
  d.source.all fun s => s.toList.isPrefixOf source.toList

/-- Whether the directive concerns an event: by its source, and by the names of
    its fields. -/
def concerns (d : Directive) (e : Event) : Bool :=
  d.fitsSource e.source && d.field.all fun f => decide (f.name ∈ e.fieldNames)

/-- Whether the directive holds in a span: by its source and its name, and by
    the field asked for with its value. -/
def holdsIn (d : Directive) (s : Span) : Bool :=
  d.fitsSource s.source && d.span.all (· = s.name) &&
    d.field.all fun f =>
      (s.fields.lookup f.name).any fun field => f.value.all fun v => decide (v.Fits field)

/-- How specific a directive about events is: by the length of its source, then
    by having a field, then by the field's name. -/
def rank (d : Directive) : List Nat :=
  let source := match d.source with
    | none => 0
    | some s => s.utf8ByteSize + 1
  source :: match d.field with
    | none => []
    | some f => f.name.toList.map Char.toNat

/-- Whether two directives are about the same. -/
def SameSubject (d e : Directive) : Prop :=
  { d with detail := 0 } = { e with detail := 0 }

instance (d e : Directive) : Decidable (SameSubject d e) :=
  inferInstanceAs (Decidable (_ = _))

/-- The greatest detail among directives. -/
def greatestDetail (ds : List Directive) : Nat :=
  ds.foldl (fun n d => max n d.detail) 0

/-- Directives without those that a later one about the same replaces. -/
def unreplaced : List Directive → List Directive
  | [] => []
  | d :: ds => if ds.any (d.SameSubject ·) then unreplaced ds else d :: unreplaced ds

end Directive

/-- The directives of a filter in the order in which they were written. -/
structure Filter where
  directives : List Directive
  deriving DecidableEq, Repr

namespace Filter

/-- The filter where none is given: warnings and errors. -/
def defaultText : String := "warn"

/-- The parts of a filter that stand for directives. -/
def parts (s : String) : List (List Char) :=
  (s.toList.splitOn ',').filter (· ≠ [])

/-- The complaint about a part that is no directive. -/
def complaint (part : List Char) (flaw : Directive.Flaw) : String :=
  String.ofList ("ignoring ".toList ++ ['\x60'] ++ part ++ ['\x60']) ++ ": " ++ flaw.message

/-- Reads the parts of a filter: its directives, and a complaint about each part
    that is none.  A cut inside a character is beyond complaint. -/
def readParts : List (List Char) → Except Halt (List Directive × List String)
  | [] => .ok ([], [])
  | part :: rest =>
    match Directive.parse part with
    | .error (.cut offset) => .error (.panicked (Directive.Flaw.cut offset).message)
    | .error flaw => do
      let (directives, complaints) ← readParts rest
      pure (directives, complaint part flaw :: complaints)
    | .ok d => do
      let (directives, complaints) ← readParts rest
      pure (d :: directives, complaints)

/-- Reads a filter, with complaints.  Without any directive, errors alone are
    shown. -/
def parse (s : String) : Except Halt (Filter × List String) := do
  let (directives, complaints) ← readParts (parts s)
  pure (⟨if directives = [] then [{ Directive.everything with detail := 1 }] else directives⟩,
    complaints)

/-- The directives about spans. -/
def aboutSpans (f : Filter) : List Directive := f.directives.filter (·.isScoped)

/-- The greatest detail at which anything is looked at.  It is not limited if
    some value has to be seen. -/
def reach (f : Filter) : Nat :=
  if f.directives.any (·.hasValue) then 5 else Directive.greatestDetail f.directives

/-- The most specific directive that concerns an event; of two equal ones the
    later. -/
def decisive? (f : Filter) (e : Event) : Option Directive :=
  (f.directives.filter fun d => d.isPlain && d.concerns e).foldl
    (fun best d => match best with
      | none => some d
      | some b => if d.rank < b.rank then best else some d)
    none

/-- The detail that is shown in a span, if it is looked at. -/
def detailIn (f : Filter) (s : Span) : Nat :=
  if s.level.detail ≤ f.reach then
    Directive.greatestDetail ((Directive.unreplaced f.aboutSpans).filter (·.holdsIn s))
  else 0

/-- Whether an event is shown: because of a span around it, or because of the
    event itself. -/
def admits (f : Filter) (scope : List Span) (e : Event) : Bool :=
  decide (e.level.detail ≤ f.reach) &&
    (scope.any (fun s => decide (e.level.detail ≤ f.detailIn s)) ||
      (f.decisive? e).any fun d => decide (e.level.detail ≤ d.detail))

end Filter

end NamedMutex
