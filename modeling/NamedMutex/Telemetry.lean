/-
  Showing events on standard error.

  A process shows events once somebody has asked for it, and the switch
  `SYSMUTEX_TRACING_FMT` is on.  At most one listener serves a process: asking
  again, or asking when another listener is there, changes nothing.

  * `Telemetry.step` is one step of a call, so that calls can be interleaved;
  * `Telemetry.start` is a whole call;
  * `Environment.shows` decides about the events of a process that asks once,
    at its start.
-/
import NamedMutex.Environment
import NamedMutex.Telemetry.Filter

namespace NamedMutex

namespace Environment

/-- Whether events are to be shown. -/
def tracingEnabled (env : Environment) : Bool :=
  env.text? "SYSMUTEX_TRACING_FMT" = some "1"

/-- The text of the filter in effect. -/
def filterText (env : Environment) : String :=
  (env.text? "RUST_LOG").getD Filter.defaultText

/-- Whether a process that asks once, at its start, shows an event that lies in
    the given spans. -/
def shows (env : Environment) (scope : List Span) (e : Event) : Bool :=
  env.tracingEnabled && match Filter.parse env.filterText with
    | .ok (f, _) => f.admits scope e
    | .error _ => false

end Environment

/-- What a process remembers about showing events. -/
structure Telemetry where
  /-- Whether a call has succeeded. -/
  initialized : Bool
  /-- Whether a listener serves the process. -/
  listening : Bool
  deriving DecidableEq, Repr

namespace Telemetry

/-- Where a call stands. -/
inductive Phase where
  | readFlag
  | readSwitch
  | readFilter
  | install
  | setFlag
  | finished (ending : Completion Bool)
  deriving DecidableEq, Repr

/-- What is said when another listener is there. -/
def skipped : String := "sysmutex: tracing init skipped (global subscriber already set)"

/-- The end of a call that installed the listener or did not. -/
def Phase.answer (result : Bool) : Phase := .finished (.returned result)

/-- One step of a call: the state and the phase after it, and what it prints. -/
def step (env : Environment) (t : Telemetry) : Phase → Telemetry × Phase × List String
  | .readFlag => (t, if t.initialized then .answer false else .readSwitch, [])
  | .readSwitch => (t, if env.tracingEnabled then .readFilter else .answer false, [])
  | .readFilter =>
    match Filter.parse env.filterText with
    | .error h => (t, .finished (.halted h), [])
    | .ok (_, complaints) => (t, .install, complaints)
  | .install =>
    if t.listening then (t, .answer false, [skipped])
    else ({ t with listening := true }, .setFlag, [])
  | .setFlag => ({ t with initialized := true }, .answer (!t.initialized), [])
  | .finished ending => (t, .finished ending, [])

/-- The steps of a call up to its end; `n` bounds their number. -/
def run (env : Environment) :
    Nat → Telemetry → Phase → Telemetry × Completion Bool × List String
  | _, t, .finished ending => (t, ending, [])
  | 0, t, _ => (t, .halted .unfinished, [])
  | n + 1, t, phase =>
    let (t, phase, printed) := step env t phase
    let (t, ending, more) := run env n t phase
    (t, ending, printed ++ more)

/-- A whole call: the state after it, whether it installed the listener, and
    what it printed. -/
def start (env : Environment) (t : Telemetry) : Telemetry × Completion Bool × List String :=
  run env 5 t .readFlag

end Telemetry

end NamedMutex
