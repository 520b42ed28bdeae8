/-
  Acquisition within a time budget.

  An acquisition polls: it makes an attempt, and while the mutex is busy and
  the budget lasts, it pauses and makes another.  A process refuses at once to
  acquire what it holds itself, as it would wait for itself in vain.

  * `acquireTimed` yields a guard or the reason why there is none;
  * `Guard.drop` releases the mutex, then takes the registration back;
  * `withMutex` runs a body while a mutex is held, and releases it however the
    body ends.
-/
import NamedMutex.Handle

namespace NamedMutex

/-- How to acquire a mutex. -/
structure AcquireOptions where
  timeout : Duration
  pollInterval : Duration
  /-- Whether to refuse what this process holds already. -/
  checkReentrant : Bool
  /-- The lock directory, if it is not the configured one. -/
  lockDir : Option Path
  deriving DecidableEq, Repr

namespace AcquireOptions

def default : AcquireOptions :=
  ⟨Environment.defaultTimeout, Environment.defaultPollInterval, true, none⟩

/-- The default with the times that the environment configures. -/
def ofEnvironment (env : Environment) : AcquireOptions :=
  { default with timeout := env.timeout, pollInterval := env.pollInterval }

/-- The lock directory in effect. -/
def directory (options : AcquireOptions) (env : Environment) : Path :=
  options.lockDir.getD env.lockDir

/-- A bound on the attempts that fit into the budget: with a pause, one more
    than there are pauses within the budget and one beyond it; without a pause,
    the clock alone bounds them. -/
def patience (options : AcquireOptions) : Nat :=
  if options.pollInterval = 0 then options.timeout + 2
  else options.timeout / options.pollInterval + 2

end AcquireOptions

/-- A mutex that is held until the guard is dropped. -/
structure Guard where
  handle : Handle
  deriving DecidableEq, Repr

open Program

/-- Whether this process holds `name` in `dir` by a guard. -/
def isHeldLocally (dir : Path) (name : String) : Program Bool :=
  call (.isRegistered (lockPath dir name))

/-- Registers a held mutex and wraps it up as a guard. -/
def Guard.make (h : Handle) (attempts : Nat) : Program (Except AcquireError Guard) := do
  call (.register h.path)
  report (.pollSucceeded attempts)
  pure (.ok ⟨h⟩)

/-- Releases the mutex of a guard, then forgets that it is held. -/
def Guard.drop (g : Guard) : Program Unit := do
  let h ← g.handle.release
  call (.unregister h.path)

namespace AcquireTimed

/-- The budget is used up after `attempts` attempts. -/
def giveUp (name : String) (elapsed : Duration) (attempts : Nat) :
    Program (Except AcquireError Guard) := do
  report (.pollGaveUp attempts)
  pure (.error (.timeout name elapsed))

/-- The attempts from number `attempts` on, with `rounds` allotted.  The clock
    is read after each attempt in vain, and the budget is used up only when
    more time than it has gone by. -/
def poll (dir : Path) (name : String) (options : AcquireOptions) (started : Duration) :
    (rounds attempts : Nat) → Program (Except AcquireError Guard)
  | 0, _ => halt .unfinished
  | rounds + 1, attempts => do
    match ← Handle.acquire dir name with
    | .error e => pure (.error (.io e))
    | .ok h =>
      if h.isAcquired then Guard.make h attempts
      else do
        let _ ← h.release
        let elapsed := (← call .now) - started
        if options.timeout < elapsed then giveUp name elapsed attempts
        else do
          call (.sleep options.pollInterval)
          poll dir name options started rounds (attempts + 1)

/-- Starts the clock and polls. -/
def start (dir : Path) (name : String) (options : AcquireOptions) :
    Program (Except AcquireError Guard) := do
  let started ← call .now
  poll dir name options started options.patience 1

end AcquireTimed

/-- Acquires `name`, polling until it is free or the time budget is used up. -/
def acquireTimed (env : Environment) (name : String) (options : AcquireOptions) :
    Program (Except AcquireError Guard) :=
  within (.timed name options.timeout) <|
    if IsValidName name then
      let dir := options.directory env
      if options.checkReentrant then do
        if ← isHeldLocally dir name then pure (.error (.notReentrant name))
        else AcquireTimed.start dir name options
      else AcquireTimed.start dir name options
    else pure (.error (.invalidName name))

/-- Runs `body` while `name` is held; the mutex is released however the body
    ends, and its end is passed on.  Programs are run by `run`; the body may be
    a computation of any kind that can run them. -/
def withMutex {m : Type → Type} [Monad m] (run : {β : Type} → Program β → m (Completion β))
    (env : Environment) (name : String) (options : AcquireOptions) {α : Type}
    (body : m (Completion α)) : m (Completion (Except AcquireError α)) := do
  match ← run (acquireTimed env name options) with
  | .halted h => pure (.halted h)
  | .returned (.error e) => pure (.returned (.error e))
  | .returned (.ok guard) => do
    let ending ← body
    match ← run guard.drop with
    | .halted h => pure (.halted h)
    | .returned () => match ending with
      | .returned a => pure (.returned (.ok a))
      | .halted h => pure (.halted h)

/-- `withMutex` for a body that is a program itself. -/
def withMutexProgram (env : Environment) (name : String) (options : AcquireOptions) {α : Type}
    (body : Program α) : Program (Except AcquireError α) :=
  (withMutex capture env name options body.capture).bind ofCompletion

end NamedMutex
