/-
  Programs as sequences of calls to the operating system.

  A program asks for one call at a time and goes on with its answer, so the
  same program can be run against a machine, interleaved with others call by
  call, or given answers of any kind.

  * `Call` lists what a program may ask, `Call.Answer` what it is told;
  * `Program` is the type of programs, a monad (`bind_assoc`);
  * `Program.capture` turns the end of a program into a value,
    `Program.ofCompletion` does the reverse;
  * `Program.within` puts all that a program reports into a span, and changes
    nothing else.
-/
import NamedMutex.Span

namespace NamedMutex

/-- An open file, as the process that opened it names it. -/
abbrev Descriptor := Nat

/-- What a program lets the world see. -/
inductive Output where
  /-- An event within spans, the outermost first, for whoever listens. -/
  | event (scope : List Span) (e : Event)
  /-- A line on standard output. -/
  | line (text : String)
  /-- A line on standard error. -/
  | errorLine (text : String)
  deriving DecidableEq, Repr

/-- A call to the operating system. -/
inductive Call where
  /-- Make a directory and those above it, as far as they are missing. -/
  | makeDirs (dir : Path)
  /-- Open a file to read and write, creating it if there is none. -/
  | openFile (path : Path)
  /-- Lock an open file exclusively, without waiting. -/
  | tryLock (file : Descriptor)
  /-- Whether a path leads to an open file. -/
  | leadsTo (path : Path) (file : Descriptor)
  /-- Read an open file to its end. -/
  | read (file : Descriptor)
  /-- Read the file at a path. -/
  | readPath (path : Path)
  /-- Cut an open file to length zero. -/
  | truncate (file : Descriptor)
  /-- Go back to the start of an open file. -/
  | rewind (file : Descriptor)
  /-- Write to an open file. -/
  | write (file : Descriptor) (bytes : Bytes)
  /-- Remove the entry at a path. -/
  | unlink (path : Path)
  /-- Unlock an open file. -/
  | unlock (file : Descriptor)
  /-- Close an open file, which also unlocks it. -/
  | close (file : Descriptor)
  /-- The identifier of the process that asks. -/
  | ownPid
  /-- Ask whether a signal could be sent to a process, without sending one. -/
  | probe (pid : Pid)
  /-- Read a clock that never goes back. -/
  | now
  /-- Do nothing for at least some time. -/
  | sleep (time : Duration)
  /-- Whether this process has registered a path as held. -/
  | isRegistered (path : Path)
  /-- Register a path as held once more. -/
  | register (path : Path)
  /-- Take one registration of a path back. -/
  | unregister (path : Path)
  /-- Let the world see something. -/
  | say (output : Output)
  deriving DecidableEq, Repr

/-- What the answer to a call tells. -/
abbrev Call.Answer : Call → Type
  | makeDirs _ | tryLock _ | truncate _ | rewind _ | write _ _ | unlink _ | unlock _ =>
    Except IoError Unit
  | openFile _ => Except IoError Descriptor
  | read _ | readPath _ => Except IoError Bytes
  | leadsTo _ _ | isRegistered _ => Bool
  | probe _ => Except Errno Unit
  | ownPid => Pid
  | now => Duration
  | close _ | sleep _ | register _ | unregister _ | say _ => Unit

/-- Why a program ends without a value. -/
inductive Halt where
  /-- It met a state that its caller should have excluded. -/
  | panicked (message : String)
  /-- It used up the rounds it was allotted. -/
  | unfinished
  deriving DecidableEq, Repr

/-- How a program ends. -/
inductive Completion (α : Type) where
  | returned (a : α)
  | halted (h : Halt)
  deriving DecidableEq, Repr

/-- A program that yields a value of type `α`. -/
inductive Program (α : Type) where
  | done (a : α)
  | halt (h : Halt)
  | ask (c : Call) (next : c.Answer → Program α)

namespace Program

variable {α β γ : Type}

/-- One call, whose answer is the value. -/
def call (c : Call) : Program c.Answer := ask c done

/-- Runs `p`, then `f` on its value. -/
def bind (p : Program α) (f : α → Program β) : Program β :=
  match p with
  | done a => f a
  | halt h => halt h
  | ask c next => ask c fun x => (next x).bind f

instance : Monad Program where
  pure := done
  bind := bind

@[simp] theorem done_bind (a : α) (f : α → Program β) : (done a).bind f = f a := rfl

@[simp] theorem halt_bind (h : Halt) (f : α → Program β) : (halt h : Program α).bind f = halt h := rfl

@[simp] theorem ask_bind (c : Call) (next : c.Answer → Program α) (f : α → Program β) :
    (ask c next).bind f = ask c fun x => (next x).bind f := rfl

@[simp] theorem bind_done (p : Program α) : p.bind done = p := by
  induction p with
  | done | halt => rfl
  | ask c next ih => simp only [ask_bind, ih]

theorem bind_assoc (p : Program α) (f : α → Program β) (g : β → Program γ) :
    (p.bind f).bind g = p.bind fun a => (f a).bind g := by
  induction p with
  | done | halt => rfl
  | ask c next ih => simp only [ask_bind, ih]

/-- The end of `p` as a value; the captured program never halts. -/
def capture (p : Program α) : Program (Completion α) :=
  match p with
  | done a => done (.returned a)
  | halt h => done (.halted h)
  | ask c next => ask c fun x => (next x).capture

/-- A program that ends as `c` says. -/
def ofCompletion : Completion α → Program α
  | .returned a => done a
  | .halted h => halt h

/-- Reports an event. -/
def report (e : Event) : Program Unit := call (.say (.event [] e))

/-- Runs a program within a span. -/
def within (s : Span) (p : Program α) : Program α :=
  match p with
  | done a => done a
  | halt h => halt h
  | ask (.say (.event scope e)) next =>
    ask (.say (.event (s :: scope) e)) fun x => (next x).within s
  | ask c next => ask c fun x => (next x).within s

end Program

end NamedMutex
