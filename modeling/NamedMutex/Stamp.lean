/-
  Owner stamps: the content of a lock file.

  Whoever holds a lock writes the number of its process into the lock file, and
  a newline.  The stamp is for diagnosis; it is read without taking the lock,
  and may be that of a process that has died.

  * `Stamp.parse?` reads a stamp, `Stamp.digits` is what is written before the
    newline;
  * `readOwner` tells whom the lock file of a name names.
-/
import NamedMutex.AcquireError
import NamedMutex.Name
import NamedMutex.Process

namespace NamedMutex

namespace Stamp

/-- The first number that no stamp holds, `2^32`. -/
def limit : Nat := 4294967296

/-- The process that a content names: a positive numeral between blanks. -/
def parse? (content : String) : Option Pid :=
  (Numeral.parseTrimmed? limit content).filter (· ≠ 0)

/-- The number of a process as it is written. -/
def digits (pid : Pid) : Bytes :=
  Utf8.encode (String.ofList (Numeral.ofNat pid))

def newline : Bytes := [0x0A]

/-- The whole stamp of a process. -/
def text (pid : Pid) : Bytes := digits pid ++ newline

end Stamp

/-- The text that was read, if reading succeeded and it is text. -/
def readText : Except IoError Bytes → Except IoError String
  | .error e => .error e
  | .ok bytes => match Utf8.decode? bytes with
    | some s => .ok s
    | none => .error .notText

/-- The owner named by a content, with a look at whether it exists. -/
def ownerOf (content : String) : Program (Option Owner) :=
  match Stamp.parse? content with
  | none => pure none
  | some pid => do
    let alive ← isAlive pid
    pure (some ⟨pid, alive⟩)

/-- The owner that the lock file of `name` in `dir` names, if there is such a
    file and it carries a stamp. -/
def readOwner (dir : Path) (name : String) : Program (Except IoError (Option Owner)) :=
  if IsValidName name then do
    match readText (← Program.call (.readPath (lockPath dir name))) with
    | .ok content =>
      let owner ← ownerOf content
      pure (.ok owner)
    | .error e => pure (if e.kind = .notFound then .ok none else .error e)
  else pure (.error (.custom .invalidInput (AcquireError.invalidName name).message))

end NamedMutex
