/-
  The command on a real system.

  Every call of a program is carried out by the operating system; nothing is
  decided here.

  * `Shell.perform` carries out a call, `Shell.execute` a program;
  * `main` runs the command with the arguments and the environment that it was
    started with.
-/
import NamedMutex.CommandLine.Run
import NamedMutex.Registry

namespace NamedMutex.Shell

/-- What a running command keeps in mind. -/
structure Memory where
  env : Environment
  opened : List (Descriptor × IO.FS.Handle)
  nextDescriptor : Descriptor
  registry : Registry

/-- An error number; some layers of the system change its sign. -/
def positive (code : UInt32) : Nat :=
  min code.toNat (0 - code).toNat

/-- The error number in an error of the system. -/
def codeOf : IO.Error → Nat
  | .alreadyExists _ code _ | .otherError code _ | .resourceBusy code _
  | .resourceVanished code _ | .unsupportedOperation code _ | .hardwareFault code _
  | .unsatisfiedConstraints code _ | .illegalOperation code _ | .protocolError code _
  | .timeExpired code _ | .interrupted _ code _ | .noFileOrDirectory _ code _
  | .invalidArgument _ code _ | .permissionDenied _ code _ | .resourceExhausted _ code _
  | .inappropriateType _ code _ | .noSuchThing _ code _ => positive code
  | .unexpectedEof | .userError _ => 0

/-- The outcome of an action, with its error as a value. -/
def attempted {α : Type} (action : IO α) : IO (Except IoError α) := do
  match ← action.toBaseIO with
  | .ok a => pure (.ok a)
  | .error e => pure (.error (.os ⟨codeOf e⟩))

def isMissing : IO.Error → Bool
  | .noFileOrDirectory _ _ _ => true
  | _ => false

/-- Opens a file to read and write, creating it if there is none. -/
def openFile (path : String) : IO IO.FS.Handle := do
  match ← (IO.FS.Handle.mk path .readWrite).toBaseIO with
  | .ok h => pure h
  | .error e =>
    if isMissing e then
      let _ ← IO.FS.Handle.mk path .append
      IO.FS.Handle.mk path .readWrite
    else throw e

/-- Whether a path leads to a file that this process has open. -/
def leadsToOpened (path : String) : IO Bool := do
  let target ← IO.FS.realPath path
  let directory ← IO.FS.realPath "/proc/self/fd"
  for entry in ← directory.readDir do
    match ← (IO.FS.realPath entry.path).toBaseIO with
    | .ok p => if p == target then return true
    | .error _ => pure ()
  return false

/-- Sleeps for some milliseconds, in parts that the system accepts. -/
def sleepMillis (n : Nat) : IO Unit := do
  let part := 1000000000
  for _ in [0:n / part] do
    IO.sleep (UInt32.ofNat part)
  IO.sleep (UInt32.ofNat (n % part))

/-- The number of this process. -/
def ownPid : IO Pid := do
  let stat ← IO.FS.readFile "/proc/self/stat"
  pure (Numeral.value (stat.toList.takeWhile Char.isDigit))

/-- A field of an event as it is shown. -/
def fieldText : Event.Field → String
  | .text s => s
  | .number n => toString n
  | .flag b => toString b
  | .process pid => toString pid

/-- An event as it is shown. -/
def eventLine (e : Event) : String :=
  e.level.label ++ " " ++ e.source ++ ": " ++ e.message ++
    String.join (e.fields.map fun (key, value) => " " ++ key ++ "=" ++ fieldText value)

variable (memory : IO.Ref Memory)

/-- Does something with an open file. -/
def withFile {α : Type} (file : Descriptor) (f : IO.FS.Handle → IO α) : IO (Except IoError α) := do
  match (← memory.get).opened.lookup file with
  | some h => attempted (f h)
  | none => pure (.error (.os .badDescriptor))

/-- Lets the world see something. -/
def show_ : Output → IO Unit
  | .line text => do
    let out ← IO.getStdout
    out.putStrLn text
    out.flush
  | .errorLine text => IO.eprintln text
  | .event scope e => do
    if (← memory.get).env.shows scope e then IO.eprintln (eventLine e)

/-- Locks an open file. -/
def tryLock (file : Descriptor) : IO (Except IoError Unit) := do
  match ← withFile memory file fun h => h.tryLock with
  | .ok true => pure (.ok ())
  | .ok false => pure (.error (.os .wouldBlock))
  | .error e => pure (.error e)

/-- Carries out a call. -/
def perform : (c : Call) → IO c.Answer
  | .makeDirs p =>
    if p.bytes = [] then pure (.ok ()) else attempted (IO.FS.createDirAll p.display)
  | .openFile p => do
    match ← attempted (openFile p.display) with
    | .error e => pure (.error e)
    | .ok h => do
      let m ← memory.get
      memory.set { m with
        opened := (m.nextDescriptor, h) :: m.opened
        nextDescriptor := m.nextDescriptor + 1 }
      pure (.ok m.nextDescriptor)
  | .tryLock file => tryLock memory file
  | .leadsTo p _ => do
    match ← attempted (leadsToOpened p.display) with
    | .ok b => pure b
    | .error _ => pure false
  | .read file => withFile memory file fun h => do pure (← h.readBinToEnd).toList
  | .readPath p => attempted do pure (← IO.FS.readBinFile p.display).toList
  | .truncate file => withFile memory file fun h => do
    h.rewind
    h.truncate
  | .rewind file => withFile memory file fun h => h.rewind
  | .write file bytes => withFile memory file fun h => do
    h.write bytes.toByteArray
    h.flush
  | .unlink p => attempted (IO.FS.removeFile p.display)
  | .unlock file => withFile memory file fun h => h.unlock
  | .close file => memory.modify fun m => { m with opened := m.opened.filter (·.1 ≠ file) }
  | .ownPid => ownPid
  | .probe pid => do
    match ← attempted (IO.FS.readFile s!"/proc/{pid}/stat") with
    | .ok _ => pure (.ok ())
    | .error e => pure (if e.kind = .notFound then .error .noProcess else .ok ())
  | .now => IO.monoNanosNow
  | .sleep time => sleepMillis ((time + 999999) / 1000000)
  | .isRegistered p => do pure ((← memory.get).registry.contains p)
  | .register p => memory.modify fun m => { m with registry := m.registry.register p }
  | .unregister p => memory.modify fun m => { m with registry := m.registry.unregister p }
  | .say output => show_ memory output

/-- Carries out a program. -/
def execute {α : Type} : Program α → IO (Completion α)
  | .done a => pure (.returned a)
  | .halt h => pure (.halted h)
  | .ask c next => do
    let x ← perform memory c
    execute (next x)

/-- The variables that the command reads. -/
def variableNames : List String :=
  ["SYSMUTEX_DIR", "SYSMUTEX_TIMEOUT_SECS", "SYSMUTEX_POLL_MS", "SYSMUTEX_TRACING_FMT", "RUST_LOG",
    "TMPDIR"]

/-- The values of these variables. -/
def environment : IO Environment := do
  let mut env : Environment := []
  for key in variableNames do
    env := env.set key ((← IO.getEnv key).map Utf8.encode)
  pure env

/-- What is known of the build. -/
def build : Build :=
  ⟨"unknown", "release", "unknown", "unknown", "linux", "unknown"⟩

/-- Ends the command with its exit status; a panic leaves its message. -/
def finish (ending : Completion CommandEnd) : IO UInt32 := do
  match ending with
  | .halted (.panicked message) => IO.eprintln message
  | _ => pure ()
  pure (UInt32.ofNat (exitStatus ending))

end NamedMutex.Shell

open NamedMutex in
def main (args : List String) : IO UInt32 := do
  let env ← Shell.environment
  let memory ← IO.mkRef ⟨env, [], 0, .empty⟩
  Shell.finish (← Shell.execute memory (runCommand Shell.build env (args.map Utf8.encode)))
