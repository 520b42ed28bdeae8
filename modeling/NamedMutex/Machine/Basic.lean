/-
  A machine: files, open files, locks and processes.

  A machine answers the calls of programs.  A lock belongs to one opening of a
  file, not to a process: two openings contend even within one process.  A lock
  ends when its file is unlocked or closed, and when its process dies.

  * `Machine.perform` answers a call and says what it does to the machine;
  * `Machine.run` runs a whole program, with nobody else at work;
  * `Machine.kill` ends a process at any moment.
-/
import NamedMutex.Machine.Files
import NamedMutex.Program
import NamedMutex.Registry

namespace NamedMutex

/-- A file that a process has open. -/
structure OpenFile where
  inode : Inode
  /-- Where the next byte is read or written. -/
  offset : Nat
  process : Pid
  deriving DecidableEq, Repr

/-- A process that the system knows. -/
inductive ProcessState where
  | running
  /-- Dead, but nobody has asked for its exit status yet. -/
  | zombie
  /-- Another user's. -/
  | foreign
  deriving DecidableEq, Repr

/-- The state of a machine. -/
structure Machine where
  tree : FileTree
  opened : Table Descriptor OpenFile
  nextDescriptor : Descriptor
  /-- Which opening has locked a node. -/
  locks : Table Inode Descriptor
  processes : Table Pid ProcessState
  registries : Table Pid Registry
  clock : Duration
  /-- What processes have let the world see, the latest first. -/
  said : List (Pid × Output)
  deriving Repr

namespace Machine

/-- How long a call takes. -/
def callTime : Duration := 5000

variable (m : Machine)

/-- The registry of a process. -/
def registry (pid : Pid) : Registry := (m.registries.get? pid).getD .empty

def setRegistry (pid : Pid) (r : Registry) : Machine :=
  { m with registries := m.registries.insert pid r }

def setTree (tree : FileTree) : Machine := { m with tree := tree }

/-- Takes a lock away from an opening, if it has it. -/
def dropLock (file : Descriptor) : Machine :=
  { m with locks := m.locks.filter fun _ holder => decide (holder ≠ file) }

/-- Opens the node `i` for a process. -/
def open_ (pid : Pid) (i : Inode) : Descriptor × Machine :=
  let file := m.nextDescriptor
  (file, { m with opened := m.opened.insert file ⟨i, 0, pid⟩, nextDescriptor := file + 1 })

/-- Closes an opening, which also unlocks it. -/
def close (file : Descriptor) : Machine :=
  { m.dropLock file with opened := m.opened.erase file }

/-- Locks the node of an opening, unless another opening has locked it. -/
def tryLock (file : Descriptor) : Except IoError Unit × Machine :=
  match m.opened.get? file with
  | none => (.error (.os .badDescriptor), m)
  | some f =>
    match m.locks.get? f.inode with
    | none => (.ok (), { m with locks := m.locks.insert f.inode file })
    | some holder => (if holder = file then .ok () else .error (.os .wouldBlock), m)

/-- Moves an opening to another place in its file. -/
def seek (file : Descriptor) (f : OpenFile) (offset : Nat) : Machine :=
  { m with opened := m.opened.insert file { f with offset := offset } }

/-- Reads an opening to the end of its file. -/
def read (file : Descriptor) : Except IoError Bytes × Machine :=
  match m.opened.get? file with
  | none => (.error (.os .badDescriptor), m)
  | some f =>
    let bytes := m.tree.bytesOf f.inode
    (.ok (bytes.drop f.offset), m.seek file f (max f.offset bytes.length))

/-- Cuts the file of an opening to length zero. -/
def truncate (file : Descriptor) : Except IoError Unit × Machine :=
  match m.opened.get? file with
  | none => (.error (.os .badDescriptor), m)
  | some f =>
    match m.tree.node? f.inode with
    | some ⟨.file _, _, _⟩ => (.ok (), m.setTree (m.tree.setContent f.inode (.file [])))
    | _ => (.error (.os .invalidArgument), m)

/-- Goes back to the start of the file of an opening. -/
def rewind (file : Descriptor) : Except IoError Unit × Machine :=
  match m.opened.get? file with
  | none => (.error (.os .badDescriptor), m)
  | some f => (.ok (), m.seek file f 0)

/-- Bytes with others written over them from some place on; a gap is filled
    with zeros. -/
def overwrite (old : Bytes) (offset : Nat) (new : Bytes) : Bytes :=
  old.take offset ++ List.replicate (offset - old.length) 0 ++ new ++
    old.drop (offset + new.length)

/-- Writes to the file of an opening. -/
def write (file : Descriptor) (bytes : Bytes) : Except IoError Unit × Machine :=
  match m.opened.get? file with
  | none => (.error (.os .badDescriptor), m)
  | some f =>
    match m.tree.node? f.inode with
    | some ⟨.file old, _, _⟩ =>
      let tree := m.tree.setContent f.inode (.file (overwrite old f.offset bytes))
      (.ok (), (m.setTree tree).seek file f (f.offset + bytes.length))
    | _ => (.ok (), m)

/-- Whether a path leads to the node of an opening. -/
def leadsTo (p : Path) (file : Descriptor) : Bool :=
  match m.opened.get? file, m.tree.find .node p with
  | some f, .ok i => decide (f.inode = i)
  | _, _ => false

/-- Asks whether a signal could be sent to a process. -/
def probe (pid : Pid) : Except Errno Unit :=
  match m.processes.get? pid with
  | some .foreign => .error .operationNotPermitted
  | some _ => .ok ()
  | none => .error .noProcess

/-- Answers a call of the process `pid`; the clock is left alone. -/
def answer (pid : Pid) : (c : Call) → c.Answer × Machine
  | .makeDirs p =>
    match m.tree.makeDirs p with
    | (tree, result) => (result, m.setTree tree)
  | .openFile p =>
    match m.tree.openPath [.read, .write] p with
    | .ok (tree, i) =>
      let (file, m) := (m.setTree tree).open_ pid i
      (.ok file, m)
    | .error e => (.error e, m)
  | .tryLock file => m.tryLock file
  | .leadsTo p file => (m.leadsTo p file, m)
  | .read file => m.read file
  | .readPath p => (m.tree.readPath p, m)
  | .truncate file => m.truncate file
  | .rewind file => m.rewind file
  | .write file bytes => m.write file bytes
  | .unlink p =>
    match m.tree.unlink p with
    | .ok tree => (.ok (), m.setTree tree)
    | .error e => (.error e, m)
  | .unlock file =>
    if m.opened.contains file then (.ok (), m.dropLock file)
    else (.error (.os .badDescriptor), m)
  | .close file => ((), m.close file)
  | .ownPid => (pid, m)
  | .probe p => (m.probe p, m)
  | .now => (m.clock, m)
  | .sleep time => ((), { m with clock := m.clock + time })
  | .isRegistered p => ((m.registry pid).contains p, m)
  | .register p => ((), m.setRegistry pid ((m.registry pid).register p))
  | .unregister p => ((), m.setRegistry pid ((m.registry pid).unregister p))
  | .say output => ((), { m with said := (pid, output) :: m.said })

/-- Lets some time pass. -/
def tick : Machine := { m with clock := m.clock + callTime }

/-- Answers a call of the process `pid`, which takes its time. -/
def perform (pid : Pid) (c : Call) : c.Answer × Machine := m.tick.answer pid c

/-- Runs a program of the process `pid` with nobody else at work. -/
def run {α : Type} (pid : Pid) : Program α → Machine → Completion α × Machine
  | .done a, m => (.returned a, m)
  | .halt h, m => (.halted h, m)
  | .ask c next, m =>
    let (x, m) := m.perform pid c
    run pid (next x) m

/-- The openings of a process. -/
def openedBy (pid : Pid) : List Descriptor :=
  (m.opened.entries.filter fun e => decide (e.2.process = pid)).map (·.1)

/-- Ends a process: its files are closed, and it stays as a zombie. -/
def kill (pid : Pid) : Machine :=
  let m := (m.openedBy pid).foldl close m
  { m with
    processes := m.processes.insert pid .zombie
    registries := m.registries.erase pid }

/-- Forgets a process that has ended. -/
def reap (pid : Pid) : Machine := { m with processes := m.processes.erase pid }

/-- Starts a process. -/
def spawn (pid : Pid) : Machine := { m with processes := m.processes.insert pid .running }

end Machine

end NamedMutex
