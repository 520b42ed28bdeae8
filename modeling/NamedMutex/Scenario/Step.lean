/-
  Scenarios: what is done, step by step, and what comes of it.

  A scenario drives the library in one process, the files from outside, and
  other processes that run the command.  `ν` is the type of the values that the
  bodies of scoped acquisitions return.

  * `Action` lists what a `Step` can do, `Outcome` what it can come to;
  * `Record` is what is kept of a step: its outcome, the files after it, and
    the events during it if they are written down.
-/
import NamedMutex.CommandLine.Run
import NamedMutex.Machine.Files
import NamedMutex.Scenario.Roles

namespace NamedMutex

/-- Options as a caller puts them together: a start, and what is changed. -/
structure OptionsRequest where
  fromEnvironment : Bool
  lockDir : Option Path
  timeout : Option Duration
  pollInterval : Option Duration
  checkReentrant : Option Bool
  deriving DecidableEq, Repr

/-- The options that a request makes. -/
def OptionsRequest.options (r : OptionsRequest) (env : Environment) : AcquireOptions :=
  let start := if r.fromEnvironment then AcquireOptions.ofEnvironment env else .default
  { timeout := r.timeout.getD start.timeout
    pollInterval := r.pollInterval.getD start.pollInterval
    checkReentrant := r.checkReentrant.getD start.checkReentrant
    lockDir := r.lockDir.or start.lockDir }

/-- Changes to variables. -/
abbrev Assignments := List (String × Option Bytes)

/-- The environment after some changes. -/
def Environment.apply (env : Environment) (changes : Assignments) : Environment :=
  changes.foldl (fun env (key, value) => env.set key value) env

/-- What is written to a file. -/
inductive FileText where
  /-- A text that may name processes by their roles. -/
  | text (s : String)
  | bytes (bs : Bytes)
  deriving DecidableEq, Repr

/-- How the body of a scoped acquisition ends. -/
inductive Ending (ν : Type) where
  | value (v : ν)
  | panic (message : String)
  deriving DecidableEq, Repr

mutual

/-- What a step does. -/
inductive Action (ν : Type) where
  | write (path : Path) (content : FileText)
  | makeDirs (path : Path)
  | remove (path : Path)
  | removeTree (path : Path)
  | rename (path target : Path)
  | symbolicLink (path target : Path)
  | hardLink (path existing : Path)
  | chmod (path : Path) (mode : Nat)
  /-- Change to another user, who owns the same files. -/
  | become
  | setEnvironment (changes : Assignments)
  | acquire (handle : String) (dir : Path) (name : String)
  | acquireConfigured (handle : String) (name : String)
  | showHandle (handle : String)
  | release (handle : String)
  | drop (handle : String)
  /-- Release a handle in the background after some time. -/
  | releaseLater (handle : String) (time : Duration)
  /-- Wait until a handle has been released in the background. -/
  | join (handle : String)
  | owner (dir : Path) (name : String)
  | held (dir : Path) (name : String)
  | lockDir
  /-- Whether the process exists that a text names by number or role. -/
  | alive (pid : String)
  | acquireTimed (guard : String) (name : String) (options : OptionsRequest)
  | showGuard (guard : String)
  | dropGuard (guard : String)
  | scoped (name : String) (options : OptionsRequest) (body : List (Step ν)) (ending : Ending ν)
  /-- Start the command and wait for its first line. -/
  | spawn (child : String) (args : List Bytes) (changes : Assignments)
  | kill (child : String) (reap : Bool)
  /-- Run the command to its end. -/
  | command (args : List Bytes) (changes : Assignments)
  /-- Let many threads make one attempt each. -/
  | race (dir : Path) (name : String) (threads : Nat)
  /-- Let many threads enter the mutex again and again. -/
  | contend (dir : Path) (name : String) (threads rounds : Nat) (timed : Bool)
  | nothing

/-- A step of a scenario.  The events during a `logged` one are written down, and
    no step around it gets to see them. -/
inductive Step (ν : Type) where
  | mk (action : Action ν) (logged : Bool)

end

/-- What is kept of a run of the command. -/
structure CommandRecord where
  ending : Completion CommandEnd
  lines : List String
  errorLines : List String
  /-- The events shown, if showing them was asked for. -/
  events : Option (List Event)
  deriving Repr

/-- What a step comes to; `ρ` is the type of the records of a body. -/
inductive Outcome (ν ρ : Type) where
  | ok
  /-- There is nothing under the name. -/
  | absent
  /-- A file operation from outside failed. -/
  | filesFailed (e : IoError)
  | handle (h : Handle)
  | guard (g : Guard)
  | owner (o : Option Owner)
  | truth (b : Bool)
  | path (p : Path)
  | ioFailed (e : IoError)
  /-- An acquisition failed; with its time budget if it was a timed one. -/
  | failed (e : AcquireError) (budget : Option Duration)
  | halted (h : Halt)
  /-- A scoped acquisition, with the records of its body if that ran. -/
  | scoped (ending : Completion (Except AcquireError ν)) (body : Option (List ρ))
  | line (text : String)
  | exited (ending : Completion CommandEnd)
  | command (r : CommandRecord)
  | race (handles winners : Nat)
  | contend (sections : Nat) (overlap : Bool)

/-- What is kept of a step. -/
inductive Record (ν : Type) where
  | mk (outcome : Outcome ν (Record ν)) (files : List (Bytes × FileTree.Sight))
    (events : Option (List Event)) (roles : Roles)

end NamedMutex
