/-
  Running scenarios.

  A session is a process that keeps handles and guards under names, on a
  machine of its own with an empty working directory.

  * `Session.start` makes a session, `Session.play` runs steps in it, and
    `Session.finish` drops all it keeps and clears its working directory;
  * `FileTree.fresh` is a tree with an empty working directory.
-/
import NamedMutex.Machine.Schedule
import NamedMutex.Scenario.Step

namespace NamedMutex

namespace FileTree

/-- A tree as the system sets it up: a root that belongs to the system, with the
    null device and a directory for temporary files, and in this the user's
    empty working directory. -/
def fresh : FileTree :=
  { nodes :=
      ⟨[(0, ⟨.directory 0 ⟨[(Utf8.encode "dev", 1), (Utf8.encode "tmp", 3)]⟩, 0o755, false⟩),
        (1, ⟨.directory 0 ⟨[(Utf8.encode "null", 2)]⟩, 0o755, false⟩),
        (2, ⟨.null, 0o666, false⟩),
        (3, ⟨.directory 0 ⟨[(Utf8.encode "work", 4)]⟩, 0o777, false⟩),
        (4, ⟨.directory 3 .empty, 0o755, true⟩)]⟩
    root := 0
    cwd := 4
    devices := 1
    next := 5 }

/-- Removes what the working directory holds, as far as that is allowed. -/
def clear (t : FileTree) : FileTree :=
  match t.directory? t.cwd with
  | none => t
  | some (_, entries) =>
    entries.entries.foldl (fun t (name, i) => (t.removeBelow t.cwd name i t.next).1) t

/-- Whether nothing is left in the working directory. -/
def isClear (t : FileTree) : Bool :=
  match t.directory? t.cwd with
  | none => true
  | some (_, entries) => entries.isEmpty

end FileTree

/-- A process that runs a scenario. -/
structure Session where
  world : World
  self : Pid
  /-- The number of the next process. -/
  nextPid : Pid
  env : Environment
  handles : Table String Handle
  guards : Table String Guard
  children : List (String × Pid)
  /-- Handles that are released in the background, and when. -/
  departing : Table String (Duration × Handle)

/-- A part of a scenario at work. -/
abbrev Play := StateM Session

namespace Session

/-- The number of the process that runs a scenario. -/
def selfPid : Pid := 2718281

/-- The machine at the start of a session. -/
def machine (tree : FileTree) : Machine :=
  { tree := tree
    opened := .empty
    nextDescriptor := 3
    locks := .empty
    processes := ⟨[(1, .foreign), (selfPid, .running)]⟩
    registries := .empty
    clock := 0
    said := [] }

/-- A session on a tree. -/
def start (tree : FileTree) (env : Environment) : Session :=
  { world := ⟨machine tree, []⟩
    self := selfPid
    nextPid := selfPid + 1
    env := env
    handles := .empty
    guards := .empty
    children := []
    departing := .empty }

def roles (s : Session) : Roles := ⟨s.self, s.children⟩

def tree (s : Session) : FileTree := s.world.machine.tree

def setTree (s : Session) (tree : FileTree) : Session :=
  { s with world := { s.world with machine := s.world.machine.setTree tree } }

/-- How much processes have let the world see. -/
def mark (s : Session) : Nat := s.world.machine.said.length

/-- What a process has let the world see since a mark, in order. -/
def saidBy (s : Session) (pid : Pid) (since : Nat) : List Output :=
  let recent := s.world.machine.said.take (s.mark - since)
  (recent.filter fun e => decide (e.1 = pid)).reverse.map (·.2)

/-- Forgets what a process has let the world see since a mark. -/
def forget (s : Session) (pid : Pid) (since : Nat) : Session :=
  let machine := s.world.machine
  let recent := machine.said.take (s.mark - since)
  let said := (recent.filter fun e => decide (e.1 ≠ pid)) ++ machine.said.drop (s.mark - since)
  { s with world := { s.world with machine := { machine with said := said } } }

/-- Runs a program of a process. -/
def runAs {α : Type} (pid : Pid) (p : Program α) : Play (Completion α) := fun s =>
  let (c, w) := s.world.run pid p
  (c, { s with world := w })

/-- Runs a program of the session's process. -/
def run {α : Type} (p : Program α) : Play (Completion α) := fun s => runAs s.self p s

/-- Runs a program in other threads of the session's process: nobody listens to
    what it reports. -/
def runUnheard {α : Type} (p : Program α) : Play (Completion α) := do
  let said := (← get).world.machine.said
  let c ← run p
  modify fun s =>
    { s with world := { s.world with machine := { s.world.machine with said := said } } }
  pure c

/-- Releases a handle. -/
def releaseOf (h : Handle) : Play Unit := do
  let _ ← run h.release

section

variable {ν ρ : Type}

/-- A change of the files from outside. -/
def change (f : FileTree → Change) : Play (Outcome ν ρ) := fun s =>
  match f s.tree with
  | .ok tree => (.ok, s.setTree tree)
  | .error e => (.filesFailed e, s)

/-- A change of the files that may fail half-way. -/
def changePartly (f : FileTree → PartialChange) : Play (Outcome ν ρ) := fun s =>
  match f s.tree with
  | (tree, .ok ()) => (.ok, s.setTree tree)
  | (tree, .error e) => (.filesFailed e, s.setTree tree)

/-- The bytes that a step writes. -/
def contentOf (roles : Roles) : FileText → Bytes
  | .text s => Utf8.encode (roles.expand s)
  | .bytes bs => bs

/-- Keeps a handle under a name; the one that was there is dropped after. -/
def keepHandle (key : String) (h : Handle) : Play Unit := do
  let old := (← get).handles.get? key
  modify fun s => { s with handles := s.handles.insert key h }
  match old with
  | some old => releaseOf old
  | none => pure ()

/-- Keeps a guard under a name; the one that was there is dropped after. -/
def keepGuard (key : String) (g : Guard) : Play Unit := do
  let old := (← get).guards.get? key
  modify fun s => { s with guards := s.guards.insert key g }
  match old with
  | some old => do let _ ← run old.drop
  | none => pure ()

/-- Makes an attempt and keeps its handle. -/
def playAcquire (key : String) (p : Program (Except IoError Handle)) : Play (Outcome ν ρ) := do
  match ← run p with
  | .halted h => pure (.halted h)
  | .returned (.error e) => pure (.ioFailed e)
  | .returned (.ok h) => do
    keepHandle key h
    pure (.handle h)

/-- Acquires within a time budget and keeps the guard. -/
def playTimed (key : String) (name : String) (options : AcquireOptions) : Play (Outcome ν ρ) := do
  match ← run (acquireTimed (← get).env name options) with
  | .halted h => pure (.halted h)
  | .returned (.error e) => pure (.failed e (some options.timeout))
  | .returned (.ok g) => do
    keepGuard key g
    pure (.guard g)

/-- Does something with the handle under a name, if there is one. -/
def withHandle (key : String) (f : Handle → Play (Outcome ν ρ)) : Play (Outcome ν ρ) := do
  match (← get).handles.get? key with
  | some h => f h
  | none => pure .absent

/-- Releases a handle and keeps it. -/
def playRelease (key : String) : Play (Outcome ν ρ) :=
  withHandle key fun h => do
    match ← run h.release with
    | .returned h => do
      modify fun s => { s with handles := s.handles.insert key h }
      pure (.handle h)
    | .halted e => pure (.halted e)

/-- Drops a handle. -/
def playDrop (key : String) : Play (Outcome ν ρ) := do
  match (← get).handles.get? key with
  | some h => do
    modify fun s => { s with handles := s.handles.erase key }
    releaseOf h
    pure .ok
  | none => pure .ok

/-- Drops a guard. -/
def playDropGuard (key : String) : Play (Outcome ν ρ) := do
  match (← get).guards.get? key with
  | some g => do
    modify fun s => { s with guards := s.guards.erase key }
    let _ ← run g.drop
    pure .ok
  | none => pure .ok

/-- Hands a handle to the background, if there is one. -/
def playReleaseLater (key : String) (time : Duration) : Play (Outcome ν ρ) := do
  match (← get).handles.get? key with
  | some h => do
    modify fun s =>
      let due := s.world.machine.clock + time
      { s with
        handles := s.handles.erase key
        departing := s.departing.insert key (due, h)
        world := { s.world with
          sleepers := s.world.sleepers ++ [⟨due, s.self, World.discard h.release, false⟩] } }
    pure .ok
  | none => pure .ok

/-- Waits for a handle in the background and keeps it again. -/
def playJoin (key : String) : Play (Outcome ν ρ) := do
  match (← get).departing.get? key with
  | none => pure .absent
  | some (due, h) => do
    modify fun s =>
      { s with
        departing := s.departing.erase key
        world := s.world.advanceTo (max due s.world.machine.clock) }
    keepHandle key h.released
    pure (.handle h.released)

/-- Whether the process exists that a text names by number or role. -/
def playAlive (text : String) : Play (Outcome ν ρ) := do
  match Numeral.parse? Stamp.limit ((← get).roles.expand text).toList with
  | none => pure (.truth false)
  | some pid =>
    match ← run (isAlive pid) with
    | .returned b => pure (.truth b)
    | .halted h => pure (.halted h)

/-- How long it takes to start a process. -/
def startTime : Duration := 500000

/-- A number for a new process, which starts. -/
def newProcess : Play Pid := fun s =>
  let pid := s.nextPid
  let world := s.world.advance startTime
  (pid, { s with
    nextPid := pid + 1
    world := { world with machine := world.machine.spawn pid } })

/-- The build that the sessions' commands come from. -/
def build : Build := ⟨"", "", "", "", "", ""⟩

/-- The environment of a command that a session starts. -/
def commandEnvironment (changes : Assignments) : Environment :=
  Environment.apply [] changes

/-- What a command let the world see, sorted by where it can be seen. -/
def recordOf (env : Environment) (ending : Completion CommandEnd) (outputs : List Output) :
    CommandRecord :=
  { ending := ending
    lines := outputs.filterMap fun
      | .line text => some text
      | _ => none
    errorLines := outputs.filterMap fun
      | .errorLine text => some text
      | _ => none
    events :=
      if env.tracingEnabled then
        some (outputs.filterMap fun
          | .event scope e => if env.shows scope e then some e else none
          | _ => none)
      else none }

/-- Ends a process and forgets it. -/
def endProcess (pid : Pid) (s : Session) : Session :=
  let world := s.world.kill pid
  { s with world := { world with machine := world.machine.reap pid } }

/-- Runs the command to its end. -/
def playCommand (args : List Bytes) (changes : Assignments) : Play (Outcome ν ρ) := do
  let env := commandEnvironment changes
  let pid ← newProcess
  let since := (← get).mark
  let ending ← runAs pid (runCommand build env args)
  let outputs := (← get).saidBy pid since
  modify (endProcess pid)
  pure (.command (recordOf env ending outputs))

/-- Remembers a child under its name. -/
def adopt (child : String) (pid : Pid) (s : Session) : Session :=
  { s with children := (child, pid) :: s.children.filter (·.1 ≠ child) }

/-- A text up to its first line feed. -/
def firstLine (text : String) : String :=
  String.ofList (text.toList.takeWhile (· ≠ '\n'))

/-- Starts the command and waits for its first line; then it goes on in the
    background.  A command that ends without a line is a child, too. -/
def playSpawn (child : String) (args : List Bytes) (changes : Assignments) :
    Play (Outcome ν ρ) := do
  let pid ← newProcess
  let s ← get
  match s.world.runToLine pid (runCommand build (commandEnvironment changes) args) with
  | (.line text rest, world) => do
    set (adopt child pid { s with world := world.park pid rest })
    pure (.line (firstLine text))
  | (.ended ending, world) => do
    set (adopt child pid (endProcess pid { s with world := world }))
    pure (.exited ending)

/-- Kills a child.  Waiting for its end reaps it; without that, its end takes a
    moment, and it stays as a zombie. -/
def playKill (child : String) (reap : Bool) : Play (Outcome ν ρ) := do
  match (← get).children.lookup child with
  | none => pure .absent
  | some pid => do
    if reap then modify (endProcess pid)
    else modify fun s =>
      if s.world.machine.processes.contains pid then
        { s with world := s.world.killSoon pid }
      else s
    pure .ok

/-- Makes `n` attempts, one after the other, and yields their handles. -/
def attempts (dir : Path) (name : String) : Nat → Play (List Handle)
  | 0 => pure []
  | n + 1 => do
    let c ← runUnheard (Handle.acquire dir name)
    let others ← attempts dir name n
    match c with
    | .returned (.ok h) => pure (h :: others)
    | _ => pure others

/-- Lets threads make one attempt each, and then drops their handles itself. -/
def playRace (dir : Path) (name : String) (threads : Nat) : Play (Outcome ν ρ) := do
  let handles ← attempts dir name threads
  for h in handles do
    releaseOf h
  pure (.race handles.length (handles.filter Handle.isAcquired).length)

/-- One stay in the mutex, and whether it came about. -/
def enter (dir : Path) (name : String) (timed : Bool) : Play Bool := do
  if timed then
    let options := { AcquireOptions.default with checkReentrant := false, lockDir := some dir }
    match ← runUnheard (acquireTimed (← get).env name options) with
    | .returned (.ok g) => do
      let _ ← runUnheard g.drop
      pure true
    | _ => pure false
  else
    match ← runUnheard (Handle.acquire dir name) with
    | .returned (.ok h) => do
      let _ ← runUnheard h.release
      pure h.isAcquired
    | _ => pure false

/-- How many of `n` stays come about. -/
def enterTimes (dir : Path) (name : String) (timed : Bool) : Nat → Play Nat
  | 0 => pure 0
  | n + 1 => do
    let entered ← enter dir name timed
    let others ← enterTimes dir name timed n
    pure (if entered then others + 1 else others)

/-- A step without a body. -/
def playSimple : Action ν → Play (Outcome ν ρ)
  | .write p content => do
    let roles := (← get).roles
    change fun t => t.writePath p (contentOf roles content)
  | .makeDirs p => changePartly fun t => t.makeDirs p
  | .remove p => change fun t => t.unlink p
  | .removeTree p => changePartly fun t => t.removeTree p
  | .rename p q => change fun t => t.rename p q
  | .symbolicLink p target => change fun t => t.symbolicLink p target
  | .hardLink p existing => change fun t => t.hardLink p existing
  | .chmod p mode => change fun t => t.chmod p mode
  | .become => pure .ok
  | .setEnvironment changes => do
    modify fun s => { s with env := s.env.apply changes }
    pure .ok
  | .acquire key dir name => playAcquire key (Handle.acquire dir name)
  | .acquireConfigured key name => do
    playAcquire key (Handle.acquireConfigured (← get).env name)
  | .showHandle key => withHandle key fun h => pure (.handle h)
  | .release key => playRelease key
  | .drop key => playDrop key
  | .releaseLater key time => playReleaseLater key time
  | .join key => playJoin key
  | .owner dir name => do
    match ← run (readOwner dir name) with
    | .returned (.ok o) => pure (.owner o)
    | .returned (.error e) => pure (.ioFailed e)
    | .halted h => pure (.halted h)
  | .held dir name => do
    match ← run (isHeldLocally dir name) with
    | .returned b => pure (.truth b)
    | .halted h => pure (.halted h)
  | .lockDir => do pure (.path (← get).env.lockDir)
  | .alive text => playAlive text
  | .acquireTimed key name request => do playTimed key name (request.options (← get).env)
  | .showGuard key => do
    match (← get).guards.get? key with
    | some g => pure (.guard g)
    | none => pure .absent
  | .dropGuard key => playDropGuard key
  | .spawn child args changes => playSpawn child args changes
  | .kill child reap => playKill child reap
  | .command args changes => playCommand args changes
  | .race dir name threads => playRace dir name threads
  | .contend dir name threads rounds timed => do
    pure (.contend (← enterTimes dir name timed (threads * rounds)) false)
  | .scoped .. | .nothing => pure .absent

end

section

variable {ν : Type}

/-- What is kept of a step that started at a mark and comes to `outcome`.  Events
    that are written down are done with. -/
def record (since : Nat) (logged : Bool) (outcome : Outcome ν (Record ν)) : Play (Record ν) := do
  let s ← get
  let events := (s.saidBy s.self since).filterMap fun
    | .event _ e => some e
    | _ => none
  if logged then set (s.forget s.self since)
  pure (.mk outcome s.tree.sights (if logged then some events else none) s.roles)

/-- The end of a body. -/
def endingOf : Ending ν → Completion ν
  | .value v => .returned v
  | .panic message => .halted (.panicked message)

/-- A scoped acquisition around the steps of a body.  The records of the body
    are kept also if the body panics. -/
def playScoped (name : String) (options : AcquireOptions) (body : Play (List (Record ν)))
    (ending : Ending ν) : Play (Outcome ν (Record ν)) := do
  let lifted : StateT (Option (List (Record ν))) Play (Completion ν) := do
    let records ← body
    set (some records)
    pure (endingOf ending)
  let bracket := withMutex (fun p => StateT.lift (run p)) (← get).env name options lifted
  let (result, records) ← bracket.run none
  pure (.scoped result records)

mutual

/-- Runs a step.  What the steps of its body let the world see belongs to it,
    unless it is written down there. -/
def playStep : Step ν → Play (Record ν)
  | .mk (.scoped name request body ending) logged => do
    modify fun s => { s with world := s.world.settle }
    let since := (← get).mark
    let options := request.options (← get).env
    let outcome ← playScoped name options (playAll body) ending
    record since logged outcome
  | .mk action logged => do
    modify fun s => { s with world := s.world.settle }
    let since := (← get).mark
    let outcome ← playSimple action
    record since logged outcome

/-- Runs steps in order. -/
def playAll : List (Step ν) → Play (List (Record ν))
  | [] => pure []
  | step :: rest => do
    let first ← playStep step
    let others ← playAll rest
    pure (first :: others)

end

end

/-- Drops all handles, guards and children of a session, and clears its working
    directory as far as that is allowed. -/
def finish (s : Session) : FileTree :=
  let drops : Play Unit := do
    for (_, g) in s.guards.entries do
      let _ ← run g.drop
    for (_, h) in s.handles.entries ++ s.departing.entries.map (fun (key, _, h) => (key, h)) do
      releaseOf h
  (drops s).2.tree.clear

/-- Plays steps on a tree: the records, and the tree for the next session.
    What could not be removed of a working directory is still there, unless it
    was inhabited from the start: such a directory is given up. -/
def play {ν : Type} (tree : FileTree) (env : Environment) (steps : List (Step ν)) :
    List (Record ν) × FileTree :=
  let (records, s) := playAll steps (start tree env)
  let left := s.finish
  (records, if tree.isClear ∧ ¬ left.isClear then left else .fresh)

end Session

end NamedMutex
