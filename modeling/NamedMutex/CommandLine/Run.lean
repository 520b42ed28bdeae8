/-
  The command: what it does for each request.

  Results go to standard output, all else to standard error.  The exit status
  is zero exactly if the command did what it was asked to do.

  * `Command.run` is the program of a subcommand, with its exit status;
  * `runCommand` is the whole command for its arguments, `exitStatus` the status
    that its process ends with.
-/
import NamedMutex.CommandLine.Arguments
import NamedMutex.Telemetry
import NamedMutex.Timed

namespace NamedMutex

/-- What a build tells about itself. -/
structure Build where
  target : String
  profile : String
  date : String
  compiler : String
  system : String
  architecture : String

/-- The version of the command. -/
def commandVersion : String := "0.1.0"

namespace Command

open Program

/-- Prints a line on standard output. -/
def printLine (text : String) : Program Unit := call (.say (.line text))

/-- Prints a line on standard error. -/
def complain (text : String) : Program Unit := call (.say (.errorLine text))

/-- Says that the mutex is held now. -/
def announce : Program Unit := printLine "acquired mutex"

/-- Holds an acquired mutex for a while. -/
def holdFor (h : Handle) (seconds : Nat) (verbose : Bool) : Program Nat := do
  if verbose then complain s!"sysmutex: holding {h.path.display} for {seconds}s"
  announce
  call (.sleep (.ofSeconds seconds))
  let _ ← h.release
  pure 0

/-- One attempt, then hold. -/
def runHold (env : Environment) (name : String) (seconds : Nat) (verbose : Bool) : Program Nat :=
  if IsValidName name then do
    match ← Handle.acquireConfigured env name with
    | .error e => do
      complain ("sysmutex: " ++ e.message)
      pure e.exitCode
    | .ok h =>
      if h.isAcquired then holdFor h seconds verbose
      else do
        let _ ← h.release
        complain ("sysmutex: mutex busy: " ++ name)
        pure 1
  else do
    let e := AcquireError.invalidName name
    complain ("sysmutex: " ++ e.message)
    pure e.exitCode

/-- The options of an acquisition with the time budget of the command.  Only a
    number of seconds that is finite and not negative counts as one; it must be
    a duration. -/
def withBudget (options : AcquireOptions) : Option Binary64 → Except Halt AcquireOptions
  | some (.finite negative x) =>
    if negative = false ∨ x.mantissa = 0 then
      match Duration.ofMagnitude? x with
      | some d => .ok { options with timeout := d }
      | none => .error (.panicked
        "cannot convert float seconds to Duration: value is either too big or NaN")
    else .ok options
  | _ => .ok options

/-- Acquires within the options, holds, and releases. -/
def acquireAndHold (env : Environment) (name : String) (options : AcquireOptions)
    (holdMillis : Nat) (verbose : Bool) : Program Nat := do
  match ← acquireTimed env name options with
  | .error e => do
    complain ("sysmutex: " ++ e.message)
    pure e.exitCode
  | .ok guard => do
    if verbose then complain ("sysmutex: acquired " ++ guard.handle.path.display)
    announce
    call (.sleep (.ofMillis holdMillis))
    guard.drop
    pure 0

/-- An acquisition with a time budget, then hold. -/
def runAcquire (env : Environment) (name : String) (timeout : Option Binary64) (holdMillis : Nat)
    (verbose : Bool) : Program Nat :=
  match withBudget (.ofEnvironment env) timeout with
  | .ok options => acquireAndHold env name options holdMillis verbose
  | .error h => halt h

/-- How an owner is shown. -/
def ownerLine : Option Owner → String
  | some o => s!"owner: pid {o.pid} (" ++ (if o.alive then "alive" else "dead") ++ ")"
  | none => "owner: none"

/-- Shows the lock file of a name and its owner. -/
def runStatus (env : Environment) (name : String) : Program Nat := do
  match ← readOwner env.lockDir name with
  | .error e => do
    complain (s!"sysmutex: failed to read lock owner for {name}: " ++ e.message)
    pure 1
  | .ok owner => do
    printLine ("path: " ++ (lockPath env.lockDir name).display)
    printLine (ownerLine owner)
    pure 0

/-- Prints diagnostics. -/
def runDoctor (build : Build) (env : Environment) : Program Nat := do
  complain "sysmutex doctor"
  complain s!"  version: v{commandVersion}"
  complain s!"  build: {build.target} / {build.profile}"
  complain s!"  built at: {build.date}"
  complain s!"  rustc: {build.compiler}"
  complain s!"  host: {build.system} / {build.architecture}"
  complain s!"  lock dir: {env.lockDir.display}"
  let pid ← call .ownPid
  complain s!"  pid: {pid}"
  complain "doctor: completed diagnostics."
  pure 0

/-- The program of a subcommand. -/
def run (build : Build) (env : Environment) (verbose : Bool) : Command → Program Nat
  | hash raw first => do
    printLine (hashedName raw first)
    pure 0
  | hold name seconds => runHold env name seconds verbose
  | acquire name timeout holdMillis => runAcquire env name timeout holdMillis verbose
  | status name => runStatus env name
  | doctor => runDoctor build env

end Command

/-- How the arguments of the command are to be given. -/
def usageLines : List String :=
  ["Inspect and hold named system mutexes shared across processes.",
    "",
    "Usage: sysmutex [--verbose] hash RAW [--prefix PREFIX]",
    "       sysmutex [--verbose] hold NAME [--seconds SECONDS]",
    "       sysmutex [--verbose] acquire NAME [--timeout SECONDS] [--hold-ms MILLISECONDS]",
    "       sysmutex [--verbose] status NAME",
    "       sysmutex [--verbose] doctor"]

/-- How the command ends. -/
inductive CommandEnd where
  /-- With an exit status of its own. -/
  | exited (code : Nat)
  /-- With a complaint about the arguments. -/
  | usageError
  deriving DecidableEq, Repr

/-- The exit status of the process: that of the command, the usual one for wrong
    arguments, or that of a panic. -/
def exitStatus : Completion CommandEnd → Nat
  | .returned (.exited code) => code
  | .returned .usageError => 2
  | .halted _ => 101

/-- The program of a request. -/
def Request.run (build : Build) (env : Environment) : Request → Program CommandEnd
  | .perform verbose command => do
    let code ← command.run build env verbose
    pure (.exited code)
  | .help => do
    usageLines.forM Command.printLine
    pure (.exited 0)
  | .version => do
    Command.printLine s!"sysmutex {commandVersion}"
    pure (.exited 0)
  | .usageError => do
    usageLines.forM Command.complain
    pure .usageError

/-- The command as a program: what is said about showing events, then the
    request that its arguments make. -/
def runCommand (build : Build) (env : Environment) (args : List Bytes) : Program CommandEnd := do
  let (_, ending, printed) := Telemetry.start env ⟨false, false⟩
  printed.forM Command.complain
  match ending with
  | .returned _ => (Request.parse args).run build env
  | .halted h => Program.halt h

end NamedMutex
