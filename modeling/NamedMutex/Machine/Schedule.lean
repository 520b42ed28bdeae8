/-
  Several programs on one machine, with time.

  One program is at work; others sleep until some time and are resumed when the
  clock reaches it.  What the program at work prints and reports is told apart
  from what the others do.

  * `World.run` runs a program, and lets sleepers wake while it sleeps itself;
  * `World.runToLine` stops it at its first line on standard output;
  * `World.park` lets it go on in the background;
  * `World.kill` ends a process, `World.killSoon` lets its end take a moment.
-/
import NamedMutex.Machine.Basic

namespace NamedMutex

/-- A program that waits for its time. -/
structure Sleeper where
  due : Duration
  process : Pid
  rest : Program Unit
  /-- Whether the process ends with the program. -/
  ends : Bool

/-- A machine and the programs that wait on it. -/
structure World where
  machine : Machine
  sleepers : List Sleeper

namespace World

/-- Runs a sleeper to its end.  It reports to nobody. -/
def resume (m : Machine) (s : Sleeper) : Machine :=
  let woken := { m with clock := max m.clock s.due }
  let after := (woken.run s.process s.rest).2
  let quiet := { after with said := m.said }
  if s.ends then quiet.kill s.process else quiet

/-- Lets the clock go on to a time and resumes who is due by then, in order. -/
def advanceTo (w : World) (time : Duration) : World :=
  let due := (w.sleepers.filter (·.due ≤ time)).mergeSort fun a b => decide (a.due ≤ b.due)
  let m := due.foldl resume w.machine
  ⟨{ m with clock := max m.clock time }, w.sleepers.filter (time < ·.due)⟩

/-- Lets some time pass. -/
def advance (w : World) (time : Duration) : World :=
  w.advanceTo (w.machine.clock + time)

/-- Resumes who is due. -/
def settle (w : World) : World := w.advance 0

/-- Answers a call of the program at work. -/
def perform (w : World) (pid : Pid) (c : Call) : c.Answer × World :=
  match c with
  | .sleep time => ((), w.advance time)
  | c =>
    let (x, m) := w.machine.perform pid c
    (x, { w with machine := m })

/-- Runs a program of the process `pid`. -/
def run {α : Type} (pid : Pid) : Program α → World → Completion α × World
  | .done a, w => (.returned a, w)
  | .halt h, w => (.halted h, w)
  | .ask c next, w =>
    let (x, w) := w.perform pid c
    run pid (next x) w

/-- How far a program came: its first line and what is left of it, or its end. -/
inductive Progress (α : Type) where
  | line (text : String) (rest : Program α)
  | ended (ending : Completion α)

/-- Runs a program of the process `pid` up to its first line. -/
def runToLine {α : Type} (pid : Pid) : Program α → World → Progress α × World
  | .done a, w => (.ended (.returned a), w)
  | .halt h, w => (.ended (.halted h), w)
  | .ask (.say (.line text)) next, w => (.line text (next ()), w)
  | .ask c next, w =>
    let (x, w) := w.perform pid c
    runToLine pid (next x) w

/-- The end of a process. -/
def finish (w : World) (pid : Pid) : World :=
  { w with machine := w.machine.kill pid }

/-- A program whose value nobody asks for. -/
def discard {α : Type} (p : Program α) : Program Unit := p.bind fun _ => .done ()

/-- Lets a program of the process `pid` go on in the background: up to its next
    sleep now, and then when it is due.  The process ends with it. -/
def park {α : Type} (pid : Pid) : Program α → World → World
  | .done _, w => w.finish pid
  | .halt _, w => w.finish pid
  | .ask (.sleep time) next, w =>
    { w with sleepers := w.sleepers ++ [⟨w.machine.clock + time, pid, discard (next ()), true⟩] }
  | .ask c next, w =>
    let (x, w) := w.perform pid c
    park pid (next x) w

/-- Takes the programs of a process off the schedule. -/
def halt (w : World) (pid : Pid) : World :=
  { w with sleepers := w.sleepers.filter fun s => decide (s.process ≠ pid) }

/-- Ends a process at once, wherever its programs are. -/
def kill (w : World) (pid : Pid) : World := (w.halt pid).finish pid

/-- How long a process takes to end after it was killed. -/
def lastMoments : Duration := 200000

/-- Kills a process without waiting for its end: its programs stop at once, but
    its files are closed a moment later. -/
def killSoon (w : World) (pid : Pid) : World :=
  let w := w.halt pid
  { w with
    sleepers := w.sleepers ++ [⟨w.machine.clock + lastMoments, pid, .done (), true⟩] }

end World

end NamedMutex
