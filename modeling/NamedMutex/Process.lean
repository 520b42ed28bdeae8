/-
  Whether a process exists.

  The answer is a reading of one moment: the number of a process that has gone
  may be given to another.  Exclusion never depends on it.

  * `isAlive` asks the system; only the answer "no such process" counts as
    dead, so that a busy lock is not called abandoned by mistake.
-/
import NamedMutex.Program

namespace NamedMutex

/-- The first number that is too large for a process identifier, `2^31`. -/
def Pid.limit : Nat := 2147483648

/-- Whether a process exists.  Zero and numbers that are too large name none. -/
def isAlive (pid : Pid) : Program Bool :=
  if pid = 0 ∨ Pid.limit ≤ pid then pure false
  else do
    match ← Program.call (.probe pid) with
    | .ok () => pure true
    | .error e => pure (decide (e ≠ .noProcess))

end NamedMutex
