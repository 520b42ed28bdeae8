/-
  A table of locks, and a machine in its place.

  The users of the library need not know of files.  To them each name is free, held or
  abandoned: that is a `LockTable`.  A `Site` is the machine on which the library does
  the work, with the handles that it has given out.

  * `Demand` lists what processes ask for and what befalls them, `Reply` what they see
    of it;
  * `LockTable.serve` and `Site.serve` answer a demand, `serveAll` answers one demand
    after the other.
-/
import NamedMutex.Machine.Basic
import NamedMutex.Proofs.Stamps
import NamedMutex.Timed

namespace NamedMutex

/-- What a process asks for, or what befalls it.  Handles and guards are numbered
    together as they are given out. -/
inductive Demand where
  /-- Make one attempt. -/
  | attempt (me : Pid) (name : String)
  /-- Acquire within a time budget. -/
  | acquire (me : Pid) (env : Environment) (name : String) (options : AcquireOptions)
  /-- Release a handle, and keep it. -/
  | release (handle : Nat)
  /-- Give up a handle or a guard. -/
  | drop (handle : Nat)
  /-- Look whose stamp the lock file carries. -/
  | owner (me : Pid) (name : String)
  /-- Ask whether this process holds a name by a guard. -/
  | isHeld (me : Pid) (name : String)
  /-- A process is killed; its parent has not asked for its exit status yet. -/
  | kill (pid : Pid)
  /-- A process starts, perhaps one of another user. -/
  | start (pid : Pid) (foreign : Bool)
  /-- A dead process, or one of another user, leaves the process table. -/
  | finish (pid : Pid)

/-- What is seen of a demand. -/
inductive Reply where
  | attempted (acquired : Bool)
  | acquired
  | notReentrant (name : String)
  | timeout (name : String)
  | owner (found : Option Owner)
  | truth (b : Bool)
  | done
  /-- The process that asks does not run. -/
  | ignored
  /-- Something that no `LockTable` replies. -/
  | failed
  deriving DecidableEq, Repr

/-! ## The table -/

/-- How a name stands. -/
inductive Standing where
  | free
  /-- A process holds it by a handle, or by a guard. -/
  | held (holder : Nat) (pid : Pid) (timed : Bool)
  /-- The process that held it last was killed. -/
  | abandoned (pid : Pid)
  deriving DecidableEq, Repr

namespace Standing

def isHeld : Standing → Bool
  | held _ _ _ => true
  | _ => false

/-- Whether a guard of a process holds the name. -/
def isGuardOf (pid : Pid) : Standing → Bool
  | held _ q timed => timed && decide (q = pid)
  | _ => false

/-- The process that holds the name, or held it when it was killed. -/
def owner? : Standing → Option Pid
  | free => none
  | held _ pid _ | abandoned pid => some pid

/-- After a handle was given up; a guard is given up as a whole only. -/
def givenUp (k : Nat) (whole : Bool) : Standing → Standing
  | held j pid timed => if j = k ∧ (timed = true → whole = true) then free else held j pid timed
  | st => st

/-- After a process was killed. -/
def afterDeath (pid : Pid) : Standing → Standing
  | held k q timed => if q = pid then abandoned q else held k q timed
  | st => st

end Standing

/-- How the names stand, and which processes there are. -/
structure LockTable where
  standing : String → Standing
  processes : Table Pid ProcessState
  /-- How many handles and guards have been given out. -/
  handles : Nat

namespace LockTable

/-- No name is held. -/
def fresh (processes : Table Pid ProcessState) : LockTable := ⟨fun _ => .free, processes, 0⟩

variable (T : LockTable)

/-- A name is held by a new handle or guard. -/
def give (name : String) (pid : Pid) (timed : Bool) : LockTable :=
  { T with
    standing := fun n => if n = name then .held T.handles pid timed else T.standing n
    handles := T.handles + 1 }

/-- All names stand differently. -/
def revise (f : Standing → Standing) : LockTable := { T with standing := fun n => f (T.standing n) }

/-- Answers a process that runs. -/
def answering (me : Pid) (x : Reply × LockTable) : Reply × LockTable :=
  if T.processes.get? me = some .running then x else (.ignored, T)

/-- Answers a demand.  A name is acquired unless it is held; it is free again when its
    holder is given up, and abandoned when its holder is killed. -/
def serve : Demand → Reply × LockTable
  | .attempt me name =>
    T.answering me <|
      if (T.standing name).isHeld then (.attempted false, { T with handles := T.handles + 1 })
      else (.attempted true, T.give name me false)
  | .acquire me _ name options =>
    T.answering me <|
      if options.checkReentrant ∧ (T.standing name).isGuardOf me then (.notReentrant name, T)
      else if (T.standing name).isHeld then (.timeout name, T)
      else (.acquired, T.give name me true)
  | .release k => (.done, T.revise (.givenUp k false))
  | .drop k => (.done, T.revise (.givenUp k true))
  | .owner me name =>
    T.answering me
      (.owner ((T.standing name).owner?.map fun pid => ⟨pid, T.processes.contains pid⟩), T)
  | .isHeld me name => T.answering me (.truth ((T.standing name).isGuardOf me), T)
  | .kill pid =>
    (.done, if T.processes.get? pid = some .running then
      { T.revise (.afterDeath pid) with processes := T.processes.insert pid .zombie } else T)
  | .start pid foreign =>
    (.done, if pid.IsProper ∧ T.processes.get? pid = none then
      { T with processes := T.processes.insert pid (if foreign then .foreign else .running) } else T)
  | .finish pid =>
    (.done, if T.processes.get? pid = some .running then T
      else { T with processes := T.processes.erase pid })

end LockTable

/-! ## The machine -/

/-- A handle or a guard with the process that has it. -/
structure Client where
  process : Pid
  handle : Handle
  /-- Whether it is a guard. -/
  timed : Bool
  /-- Whether the process runs and has not given it up. -/
  alive : Bool

namespace Client

/-- Gives it up; what is left of a guard then is of no use. -/
def giveUp (c : Client) : Program Handle :=
  if c.timed then do
    (Guard.mk c.handle).drop
    pure c.handle
  else c.handle.release

/-- After a process was killed. -/
def afterDeath (pid : Pid) (c : Client) : Client :=
  { c with alive := c.alive && !decide (c.process = pid) }

end Client

/-- A machine and the handles that the library has given out on it. -/
structure Site where
  machine : Machine
  clients : List Client

namespace Site

variable (s : Site)

/-- Runs a program of a process that runs. -/
def answering {α : Type} (me : Pid) (p : Program α) (f : Completion α → Machine → Reply × Site) :
    Reply × Site :=
  if s.machine.processes.get? me = some .running then
    f (s.machine.run me p).1 (s.machine.run me p).2
  else (.ignored, s)

/-- What the outcome of an attempt comes to. -/
def attempted (me : Pid) (x : Completion (Except IoError Handle)) (m : Machine) : Reply × Site :=
  match x with
  | .returned (.ok h) => (.attempted h.isAcquired, ⟨m, s.clients ++ [⟨me, h, false, true⟩]⟩)
  | _ => (.failed, ⟨m, s.clients⟩)

/-- What the outcome of an acquisition comes to. -/
def acquired (me : Pid) (x : Completion (Except AcquireError Guard)) (m : Machine) : Reply × Site :=
  match x with
  | .returned (.ok g) => (.acquired, ⟨m, s.clients ++ [⟨me, g.handle, true, true⟩]⟩)
  | .returned (.error (.notReentrant name)) => (.notReentrant name, ⟨m, s.clients⟩)
  | .returned (.error (.timeout name _)) => (.timeout name, ⟨m, s.clients⟩)
  | _ => (.failed, ⟨m, s.clients⟩)

/-- Releases a handle, or drops it or a guard altogether. -/
def giveUp (k : Nat) (whole : Bool) : Reply × Site :=
  match s.clients[k]? with
  | none => (.done, s)
  | some c =>
    if c.alive = true ∧ (c.timed = true → whole = true) then
      match s.machine.run c.process c.giveUp with
      | (.returned h, m) => (.done, ⟨m, s.clients.set k { c with handle := h, alive := !whole }⟩)
      | (.halted _, m) => (.failed, ⟨m, s.clients⟩)
    else (.done, s)

/-- Serves the names of the lock files in a directory. -/
def serve (dir : Path) : Demand → Reply × Site
  | .attempt me name => s.answering me (Handle.acquire dir name) (s.attempted me)
  | .acquire me env name options => s.answering me (acquireTimed env name options) (s.acquired me)
  | .release k => s.giveUp k false
  | .drop k => s.giveUp k true
  | .owner me name => s.answering me (readOwner dir name) fun x m =>
    match x with
    | .returned (.ok found) => (.owner found, ⟨m, s.clients⟩)
    | _ => (.failed, ⟨m, s.clients⟩)
  | .isHeld me name => s.answering me (isHeldLocally dir name) fun x m =>
    match x with
    | .returned b => (.truth b, ⟨m, s.clients⟩)
    | _ => (.failed, ⟨m, s.clients⟩)
  | .kill pid =>
    (.done, if s.machine.processes.get? pid = some .running then
      ⟨s.machine.kill pid, s.clients.map (.afterDeath pid)⟩ else s)
  | .start pid foreign =>
    (.done, if pid.IsProper ∧ s.machine.processes.get? pid = none then
      ⟨{ s.machine with processes :=
          s.machine.processes.insert pid (if foreign then .foreign else .running) }, s.clients⟩
      else s)
  | .finish pid =>
    (.done, if s.machine.processes.get? pid = some .running then s
      else ⟨s.machine.reap pid, s.clients⟩)

end Site

/-! ## One demand after the other -/

/-- Answers demands one at a time. -/
def serveAll {σ : Type} (serve : σ → Demand → Reply × σ) : List Demand → σ → List Reply × σ
  | [], s => ([], s)
  | d :: ds, s =>
    let (x, s) := serve s d
    let (xs, s) := serveAll serve ds s
    (x :: xs, s)

end NamedMutex
