/-
  Spans: the stretches of work in which events lie.

  An event is reported within the spans that are open at the moment.  A filter
  may ask for a span by its name, its source and its fields.

  * `Span` lists the stretches of work;
  * `Span.level`, `Span.source`, `Span.name` and `Span.fields` are what a filter
    sees of one.
-/
import NamedMutex.Event
import NamedMutex.Time

namespace NamedMutex

/-- A stretch of work. -/
inductive Span where
  /-- An acquisition within a time budget. -/
  | timed (name : String) (timeout : Duration)
  /-- An acquisition of a handle. -/
  | handle (name : String) (dir : Path)
  /-- An attempt to lock the file at a path. -/
  | attempt (path : Path)
  deriving DecidableEq, Repr

namespace Span

def level : Span → Level
  | timed _ _ | handle _ _ => .debug
  | attempt _ => .trace

/-- Which part of the library does the work. -/
def source : Span → String
  | timed _ _ => "system_mutex::timed"
  | handle _ _ | attempt _ => "system_mutex::mutex"

def name : Span → String
  | timed _ _ => "timed_acquire_mutex_with"
  | handle _ _ => "new_in"
  | attempt _ => "try_acquire"

/-- The particulars of a span; the milliseconds of a time budget are taken
    modulo `2^64`. -/
def fields : Span → List (String × Event.Field)
  | timed name timeout =>
    [("mutex", .text name), ("timeout_ms", .number (timeout.millis % 18446744073709551616))]
  | handle name dir => [("mutex", .text name), ("dir", .text dir.display)]
  | attempt path => [("path", .text path.display)]

end Span

end NamedMutex
