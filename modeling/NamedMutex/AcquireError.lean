/-
  Why an acquisition fails, and what a command reports of it.

  * `AcquireError.message` is the text of an error;
  * `AcquireError.exitCode` is the exit status of a command that ends with it.
-/
import NamedMutex.IoError
import NamedMutex.Text.Quoted
import NamedMutex.Time

namespace NamedMutex

/-- Why a mutex was not acquired, contention within the time budget apart. -/
inductive AcquireError where
  /-- The name cannot stand for a mutex. -/
  | invalidName (name : String)
  /-- This process already holds the name. -/
  | notReentrant (name : String)
  /-- The mutex stayed busy for longer than the time budget. -/
  | timeout (name : String) (elapsed : Duration)
  /-- The lock directory cannot be used. -/
  | io (error : IoError)
  deriving DecidableEq, Repr

namespace AcquireError

def message : AcquireError → String
  | invalidName name => "Mutex name is invalid: " ++ Quoted.quote name
  | notReentrant name =>
    "Mutex " ++ Quoted.quote name ++ " is already held by this process: not a reentrant mutex"
  | timeout name elapsed =>
    "Acquiring mutex " ++ Quoted.quote name ++ " timed out after " ++
      (Duration.inSeconds elapsed).twoPlaces ++ "s"
  | io e => e.message

/-- Every cause has an exit status of its own. -/
def exitCode : AcquireError → Nat
  | invalidName _ => 2
  | timeout _ _ => 3
  | notReentrant _ => 4
  | io e => e.exitCode

end AcquireError

end NamedMutex
