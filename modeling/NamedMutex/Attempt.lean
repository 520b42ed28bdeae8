/-
  One attempt to lock the file at a path.

  An attempt opens the lock file, creating it if need be, and tries to lock it
  without waiting.  A lock counts only if the path still leads to the locked
  file: its former holder may have removed it in between, and then the attempt
  opens the path again, up to `Attempt.rounds` times.  At last the holder's
  stamp is put into the file.

  * `attempt` yields the locked file, nothing if the mutex is busy or the
    failure may pass, and an error if the lock directory cannot be used at all
    (`IoError.IsFatal`);
  * every file that an attempt opened and does not yield is closed again.
-/
import NamedMutex.Stamp

namespace NamedMutex

/-- An error that says that the lock directory cannot be used at all. -/
def IoError.IsFatal (e : IoError) : Prop :=
  e.kind = .permissionDenied ∨ e.kind = .unsupported

instance (e : IoError) : Decidable e.IsFatal :=
  inferInstanceAs (Decidable (_ ∨ _))

/-- An error that says that somebody else has locked the file. -/
def IoError.IsContention (e : IoError) : Prop :=
  e.kind = .wouldBlock

instance (e : IoError) : Decidable e.IsContention :=
  inferInstanceAs (Decidable (_ = _))

/-- What an attempt comes to: the locked file, or none. -/
abbrev Attempt := Except IoError (Option Descriptor)

namespace Attempt

open Program

/-- How often an attempt opens the path. -/
def rounds : Nat := 3

/-- A failure ends an attempt: with the error if it is fatal, else with a
    report. -/
def fail (e : IoError) (event : Event) : Program Attempt :=
  if e.IsFatal then pure (.error e)
  else do
    report event
    pure (.ok none)

/-- Closes a file and ends as `p` does. -/
def closing (file : Descriptor) (p : Program Attempt) : Program Attempt := do
  let result ← p
  call (.close file)
  pure result

/-- Reports whose stamp a lock file carries. -/
def reportFormerOwner (path : Path) (me : Pid) (content : String) : Program Unit :=
  match Stamp.parse? content with
  | none => pure ()
  | some pid =>
    if pid = me then report (.ownStamp path)
    else do
      if ← isAlive pid then report (.formerOwnerAlive path pid)
      else report (.reclaimed path pid)

/-- Does `p` unless a step before it failed. -/
def andThen (step : Except IoError Unit) (p : Program (Except IoError Unit)) :
    Program (Except IoError Unit) :=
  match step with
  | .ok () => p
  | .error e => pure (.error e)

/-- Replaces the content of a locked file by the stamp of this process. -/
def restamp (me : Pid) (file : Descriptor) : Program (Except IoError Unit) := do
  andThen (← call (.truncate file)) do
    andThen (← call (.rewind file)) do
      andThen (← call (.write file (Stamp.digits me))) do
        call (.write file Stamp.newline)

/-- Reads the old stamp of a locked file, reports on it, and writes a new one. -/
def stamp (path : Path) (file : Descriptor) : Program (Except IoError Unit) := do
  match readText (← call (.read file)) with
  | .error e => pure (.error e)
  | .ok content => do
    let me ← call .ownPid
    reportFormerOwner path me content
    restamp me file

/-- The owner that a busy lock file names, as far as it can be read. -/
def busyOwner (path : Path) : Program (Option Owner) := do
  match readText (← call (.readPath path)) with
  | .ok content => ownerOf content
  | .error _ => pure none

/-- The file is locked and linked: stamp it, or give it back. -/
def finish (path : Path) (file : Descriptor) : Program Attempt := do
  match ← stamp path file with
  | .ok () => pure (.ok (some file))
  | .error e =>
    closing file do
      report (.stampFailed e)
      let _ ← call (.unlock file)
      pure (.ok none)

/-- The file could not be locked. -/
def refused (path : Path) (file : Descriptor) (e : IoError) : Program Attempt :=
  closing file <|
    if e.IsContention then do
      let owner ← busyOwner path
      report (.busy path owner)
      pure (.ok none)
    else fail e (.lockFailed e)

/-- The locked file is not the one at the path: let go of it, and do `again`. -/
def orphan (file : Descriptor) (again : Program Attempt) : Program Attempt := do
  report .orphaned
  let _ ← call (.unlock file)
  call (.close file)
  again

/-- Opens and locks the file at a path, with `n` rounds left. -/
def tryRounds (path : Path) : Nat → Program Attempt
  | 0 => pure (.ok none)
  | n + 1 => do
    match ← call (.openFile path) with
    | .error e => fail e (.openFailed e)
    | .ok file =>
      match ← call (.tryLock file) with
      | .error e => refused path file e
      | .ok () =>
        if ← call (.leadsTo path file) then finish path file
        else orphan file (tryRounds path n)

end Attempt

/-- One attempt to lock the file at a path; the directory is made if it is
    missing. -/
def attempt (path : Path) : Program Attempt :=
  Program.within (.attempt path) do
    match path.parent? with
    | none => Attempt.tryRounds path Attempt.rounds
    | some dir =>
      match ← Program.call (.makeDirs dir) with
      | .error e => Attempt.fail e (.lockDirFailed e)
      | .ok () => Attempt.tryRounds path Attempt.rounds

end NamedMutex
