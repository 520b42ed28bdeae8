/-
  Handles: a single attempt and its release.

  A handle is the outcome of one attempt.  It holds the mutex or it does not;
  it never starts to hold later.  Releasing removes the lock file while it is
  still locked, so that waiters who have it open notice that the path no longer
  leads to it.

  * `Handle.acquire` makes an attempt, `Handle.release` gives the mutex back;
  * `Handle.released` is a handle after its release, which a release leaves
    whatever the system answers.
-/
import NamedMutex.Attempt
import NamedMutex.Environment

namespace NamedMutex

/-- The outcome of an attempt to acquire a mutex. -/
structure Handle where
  name : String
  path : Path
  /-- The locked file, while the mutex is held. -/
  held : Option Descriptor
  /-- Whether the mutex was held and has been released. -/
  disposed : Bool
  deriving DecidableEq, Repr

namespace Handle

open Program

/-- Whether the handle holds the mutex. -/
def isAcquired (h : Handle) : Bool := h.held.isSome

/-- The handle after its release.  One that never held the mutex has nothing to
    release. -/
def released (h : Handle) : Handle :=
  match h.held with
  | none => h
  | some _ => { h with held := none, disposed := true }

/-- The handle that an attempt leads to. -/
def ofAttempt (name : String) (path : Path) (held : Option Descriptor) : Handle :=
  ⟨name, path, held, false⟩

/-- Makes one attempt to acquire the mutex `name` in `dir`.  The name must be
    valid. -/
def acquire (dir : Path) (name : String) : Program (Except IoError Handle) :=
  within (.handle name dir) <|
    if IsValidName name then do
      let path := lockPath dir name
      match ← attempt path with
      | .error e => pure (.error e)
      | .ok none => pure (.ok (ofAttempt name path none))
      | .ok (some file) => do
        report (.acquired name path)
        pure (.ok (ofAttempt name path (some file)))
    else halt (.panicked (AcquireError.invalidName name).message)

/-- Makes one attempt in the configured directory. -/
def acquireConfigured (env : Environment) (name : String) : Program (Except IoError Handle) :=
  acquire env.lockDir name

/-- Removes the lock file; one that is gone already is no matter. -/
def removeFile (path : Path) : Program Unit := do
  match ← call (.unlink path) with
  | .ok () => pure ()
  | .error e => if e.kind = .notFound then pure () else report (.removeFailed path e)

/-- Unlocks the lock file and closes it. -/
def closeFile (path : Path) (name : String) (file : Descriptor) : Program Unit := do
  match ← call (.unlock file) with
  | .ok () => pure ()
  | .error e => report (.unlockFailed path e)
  report (.released name)
  call (.close file)

/-- Gives the mutex back if it is held.  Giving up a handle is releasing it. -/
def release (h : Handle) : Program Handle :=
  match h.held with
  | none => pure h
  | some file => do
    removeFile h.path
    closeFile h.path h.name file
    pure h.released

/-- A released handle holds nothing, and was disposed of if it held. -/
theorem released_eq (h : Handle) :
    h.released = { h with held := none, disposed := h.disposed || h.isAcquired } := by
  cases h with
  | mk name path held disposed => cases held <;> simp [released, isAcquired]

@[simp] theorem released_released (h : Handle) : h.released.released = h.released := by
  simp [released_eq, isAcquired]

end Handle

end NamedMutex
