/-
  Events: what an acquisition or a release reports about its course.

  Events never decide anything; they tell why an attempt failed, whose stamp a
  lock file carried, and when a mutex changed hands.

  * `Event` lists what can be reported;
  * `Event.level`, `Event.source`, `Event.message` and `Event.fields` are the
    parts of its written form;
  * `Event.fieldNames` names all its particulars, `Event.fields` leaves measured
    durations out.
-/
import NamedMutex.IoError
import NamedMutex.Path

namespace NamedMutex

/-- A process identifier. -/
abbrev Pid := Nat

/-- The process that a lock file names, and whether it exists. -/
structure Owner where
  pid : Pid
  alive : Bool
  deriving DecidableEq, Repr

/-- How urgent an event is. -/
inductive Level where
  | trace
  | debug
  | info
  | warn
  | error
  deriving DecidableEq, Repr

namespace Level

def label : Level → String
  | trace => "TRACE"
  | debug => "DEBUG"
  | info => "INFO"
  | warn => "WARN"
  | error => "ERROR"

/-- How much detail one has to want to see events of a level. -/
def detail : Level → Nat
  | error => 1
  | warn => 2
  | info => 3
  | debug => 4
  | trace => 5

end Level

/-- Something that an acquisition or a release reports. -/
inductive Event where
  /-- The lock directory is missing and could not be made. -/
  | lockDirFailed (error : IoError)
  /-- The lock file could not be opened. -/
  | openFailed (error : IoError)
  /-- Somebody else has locked the file; its stamp may name the owner. -/
  | busy (path : Path) (owner : Option Owner)
  /-- Locking failed for another reason than contention. -/
  | lockFailed (error : IoError)
  /-- The locked file is no longer the one at the path. -/
  | orphaned
  /-- The file carries the stamp of this very process. -/
  | ownStamp (path : Path)
  /-- The file carries the stamp of a process that no longer exists. -/
  | reclaimed (path : Path) (pid : Pid)
  /-- The file carries the stamp of a living process that let go of it. -/
  | formerOwnerAlive (path : Path) (pid : Pid)
  /-- The stamp could not be written, so the lock was given back. -/
  | stampFailed (error : IoError)
  /-- The mutex was acquired. -/
  | acquired (name : String) (path : Path)
  /-- A release could not remove the lock file. -/
  | removeFailed (path : Path) (error : IoError)
  /-- A release could not unlock the file before closing it. -/
  | unlockFailed (path : Path) (error : IoError)
  /-- The mutex was released. -/
  | released (name : String)
  /-- An acquisition with a time budget succeeded. -/
  | pollSucceeded (attempts : Nat)
  /-- An acquisition with a time budget used it up. -/
  | pollGaveUp (attempts : Nat)
  deriving DecidableEq, Repr

namespace Event

def level : Event → Level
  | stampFailed _ | unlockFailed _ _ | pollGaveUp _ => .warn
  | reclaimed _ _ => .info
  | _ => .debug

/-- Which part of the library reports the event. -/
def source : Event → String
  | pollSucceeded _ | pollGaveUp _ => "system_mutex::timed"
  | _ => "system_mutex::mutex"

def message : Event → String
  | lockDirFailed _ => "could not create lock directory"
  | openFailed _ => "could not open lock file"
  | busy _ _ => "system mutex busy"
  | lockFailed _ => "lock attempt failed"
  | orphaned => "lock file was released and unlinked before we locked it; reopening"
  | ownStamp _ => "lock file carries our own pid from an earlier handle"
  | reclaimed _ _ => "reclaiming lock abandoned by dead process"
  | formerOwnerAlive _ _ => "previous owner is alive but released the lock"
  | stampFailed _ => "could not stamp lock file; giving the lock back"
  | acquired _ _ => "acquired system mutex"
  | removeFailed _ _ => "could not remove lock file"
  | unlockFailed _ _ => "unlock failed; closing the file releases it"
  | released _ => "released system mutex"
  | pollSucceeded _ => "timed acquisition succeeded"
  | pollGaveUp _ => "timed acquisition gave up"

/-- The value of a field of an event. -/
inductive Field where
  | text (s : String)
  | number (n : Nat)
  | flag (b : Bool)
  /-- A number that identifies a process. -/
  | process (pid : Pid)
  deriving DecidableEq, Repr

/-- The particulars of an event, measured durations apart. -/
def fields : Event → List (String × Field)
  | lockDirFailed e | openFailed e | lockFailed e | stampFailed e => [("error", .text e.message)]
  | busy path none => [("path", .text path.display)]
  | busy path (some owner) =>
    [("path", .text path.display), ("owner_pid", .process owner.pid),
      ("owner_alive", .flag owner.alive)]
  | orphaned => []
  | ownStamp path => [("path", .text path.display)]
  | reclaimed path pid | formerOwnerAlive path pid =>
    [("path", .text path.display), ("pid", .process pid)]
  | acquired name path => [("mutex", .text name), ("path", .text path.display)]
  | removeFailed path e | unlockFailed path e =>
    [("path", .text path.display), ("error", .text e.message)]
  | released name => [("mutex", .text name)]
  | pollSucceeded n | pollGaveUp n => [("attempts", .number n)]

/-- The measured duration among the particulars of an event. -/
def durationName? : Event → Option String
  | pollSucceeded _ => some "waited_ms"
  | pollGaveUp _ => some "elapsed_ms"
  | _ => none

/-- The names of all particulars of an event, its message among them. -/
def fieldNames (e : Event) : List String :=
  "message" :: e.fields.map (·.1) ++ e.durationName?.toList

end Event

end NamedMutex
