/-
  What the environment configures.

  Three variables govern acquisition: the directory of the lock files, the time
  budget in seconds, and the pause between two attempts in milliseconds.  A
  variable that does not hold what it should is as good as unset.

  * `lockDir` is the configured directory, else the system's temporary one;
  * `timeout` and `pollInterval` are the configured times;
    `pollInterval_pos` says that the pause is never zero.
-/
import NamedMutex.Path
import NamedMutex.Text.Numeral
import NamedMutex.Time

namespace NamedMutex

/-- The variables of a process and their values. -/
abbrev Environment := List (String × Bytes)

namespace Environment

/-- The value of a variable. -/
def get? (env : Environment) (key : String) : Option Bytes :=
  env.lookup key

/-- Gives a variable a value, or unsets it. -/
def set (env : Environment) (key : String) (value : Option Bytes) : Environment :=
  let others := env.filter (·.1 ≠ key)
  match value with
  | some bytes => (key, bytes) :: others
  | none => others

/-- The value of a variable that holds text. -/
def text? (env : Environment) (key : String) : Option String :=
  (env.get? key).bind Utf8.decode?

/-- The directory for temporary files. -/
def tempDir (env : Environment) : Path :=
  match env.get? "TMPDIR" with
  | some bytes => ⟨bytes⟩
  | none => .ofString "/tmp"

/-- The directory of the lock files. -/
def lockDir (env : Environment) : Path :=
  match env.text? "SYSMUTEX_DIR" with
  | some s => if trim s.toList = [] then env.tempDir else .ofString s
  | none => env.tempDir

/-- The number that a variable holds, below `2^64`. -/
def number? (env : Environment) (key : String) : Option Nat :=
  (env.text? key).bind (Numeral.parseTrimmed? Numeral.wordLimit)

/-- The time budget where nothing else is configured. -/
def defaultTimeout : Duration := .ofSeconds 20

/-- The pause between two attempts where nothing else is configured. -/
def defaultPollInterval : Duration := .ofMillis 150

def timeout (env : Environment) : Duration :=
  match env.number? "SYSMUTEX_TIMEOUT_SECS" with
  | some n => .ofSeconds n
  | none => defaultTimeout

/-- The pause between two attempts.  Zero does not count as a value, so that
    nobody polls without a pause by mistake. -/
def pollInterval (env : Environment) : Duration :=
  match env.number? "SYSMUTEX_POLL_MS" with
  | some n => if n = 0 then defaultPollInterval else .ofMillis n
  | none => defaultPollInterval

theorem pollInterval_pos (env : Environment) : 0 < env.pollInterval := by
  unfold pollInterval
  split
  · split
    · decide
    · exact Nat.mul_pos (by omega) (by decide)
  · decide

end Environment

end NamedMutex
