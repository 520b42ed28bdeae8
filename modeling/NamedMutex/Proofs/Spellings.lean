/-
  Spellings of a path.

  The registry of a process tells paths apart by their components, the system by the
  files to which they lead.  So a process that asks for a mutex that it holds is refused at
  once where it spells the path as the guard does; where it spells it otherwise, it waits
  for itself until its time budget is used up.

  * `Reaches` is a file to which a lock path leads, however its directory is spelt;
  * `busy_of_locked`: while such a file is locked, attempts are in vain;
  * `refusal_by_spelling` is the main statement, `refusal_by_spelling_above_root` a process
    that waits for itself.
-/
import NamedMutex.Proofs.Guards
import NamedMutex.Proofs.Patience

namespace NamedMutex

namespace FileTree

/-- A file that a lock path leads to, and that the user may open. -/
structure Reaches (t : FileTree) (dir : Path) (name : String) (i : Inode) : Prop where
  leads : t.Leads (lockPath dir name) i
  notDirectory : t.isDirectory i = false
  read : t.may i .read = true
  write : t.may i .write = true

end FileTree

namespace Machine

variable {m : Machine} {me : Pid} {dir : Path} {name : String} {i : Inode} {d : Descriptor}

/-- **While a file is locked, attempts at any path to it are in vain.** -/
theorem busy_of_locked (hw : m.WellFormed) (hname : IsValidName name)
    (hreach : m.tree.Reaches dir name i) (hlock : m.locks.get? i = some d) :
    m.Busy me dir name := by
  intro n
  have hsettled : (m.skip n).tree.Settled (lockPath dir name) := hreach.leads.settled hname
  have hopen : (m.skip n).tree.openPath [.read, .write] (lockPath dir name) = .ok (m.tree, i) :=
    FileTree.openPath_of_leads hreach.leads hreach.notDirectory hreach.read hreach.write
  exact ⟨n + 1, gives_acquire hname hsettled
    (gives_tryRounds_refused hopen (hw.skip n) hlock)⟩

end Machine

namespace Threads

variable {me : Pid} {m : Machine} {past : Past} {s : Threads} {env : Environment} {name : String}
  {options : AcquireOptions} {i : Inode}

/-- A guard that was returned, and is not dropped, has the lock of a node. -/
def GuardLocks (s : Threads) (i : Inode) : Prop :=
  ∃ (k : Nat) (e : Errand) (g : Guard) (d : Descriptor), s.errands[k]? = some e ∧
    e.guard? = some g ∧ g.handle.held = some d ∧ s.machine.locks.get? i = some d

/-- **What a process holds is refused by its spelling.**  In every state of every run, let
    a guard of the process have locked the very file to which a lock path leads, which the
    user may open.  An acquisition that looks is refused, after one call, if some errand has
    registered a path of the same components.  Otherwise it polls until more time has gone by
    than its budget, and times out; and it does nothing else but open files in vain. -/
theorem refusal_by_spelling (hempty : m.registry me = .empty) (hrun : Run me m past s)
    (hw : s.machine.WellFormed) (hlooks : options.Looks name) (hguard : s.GuardLocks i)
    (hreach : s.machine.tree.Reaches (options.directory env) name i) :
    (0 < s.holders (lockPath (options.directory env) name) →
      s.machine.transcript me (acquireTimed env name options) =
          [⟨.isRegistered (lockPath (options.directory env) name), true⟩] ∧
        (s.machine.run me (acquireTimed env name options)).1 =
          .returned (.error (.notReentrant name))) ∧
    (s.holders (lockPath (options.directory env) name) = 0 →
      ∃ elapsed n clock said, options.timeout < elapsed ∧
        s.machine.run me (acquireTimed env name options) =
          (.returned (.error (.timeout name elapsed)), (s.machine.skip n).moment clock said)) := by
  have hcounted := hrun.counted hempty
  have hcount := hcounted.count (lockPath (options.directory env) name)
  constructor
  · intro hpos
    have hcontains : (s.machine.registry me).contains (lockPath (options.directory env) name) =
        true := (hcounted.sound.contains_iff _).2 (hcount ▸ hpos)
    exact (run_of_contains hcontains).2 env options rfl hlooks
  · intro hzero
    obtain ⟨_, _, _, _, -, -, -, hlock⟩ := hguard
    have hunlisted : (s.machine.registry me).contains (lockPath (options.directory env) name) =
        false := by
      refine Bool.eq_false_iff.2 fun h => ?_
      have hpos := (hcounted.sound.contains_iff _).1 h
      omega
    have hbusy : s.machine.Busy me (options.directory env) name :=
      Machine.busy_of_locked hw hlooks.1 hreach hlock
    have hends : s.machine.Ends me (acquireTimed env name options)
        (s.machine.TimedOut name options) :=
      Machine.ends_acquireTimed_of_start hlooks.1 rfl (fun _ => hunlisted)
        (Machine.ends_start hbusy)
    obtain ⟨_, _, clock, said, -, hrun, elapsed, n, rfl, hspent, rfl⟩ := hends.run
    exact ⟨elapsed, n, clock, said, hspent, hrun⟩

/-- The root directory, spelt as the directory above it. -/
def aboveRoot : Path := ⟨[Path.slash, Path.dot, Path.dot]⟩

/-- A guard of a mutex in the root directory is not noticed in the directory above the
    root, which is the root. -/
theorem refusal_by_spelling_above_root : ∃ past s i elapsed n clock said,
    Run 1 (.bare 1) past s ∧ s.GuardLocks i ∧
    s.machine.tree.Reaches aboveRoot "a" i ∧ s.holders (lockPath aboveRoot "a") = 0 ∧
    (impatient aboveRoot).timeout < elapsed ∧
    s.machine.run 1 (acquireTimed [] "a" (impatient aboveRoot)) =
      (.returned (.error (.timeout "a" elapsed)), (s.machine.skip n).moment clock said) := by
  let request : Errand.Request := .acquire [] "a" (impatient Contest.root)
  have hbegin : Run 1 (.bare 1) [(⟨.bare 1, []⟩, .begin request)] ⟨.bare 1, [.start request]⟩ :=
    Run.start.next .begin
  obtain ⟨past, s, e, hrun, hk, hstage, hmachine⟩ :=
    hbegin.alone (fun _ _ => .acquiring) (k := 0) rfl rfl
  have hmachine : s.machine =
      ((Machine.bare 1).run 1 (acquireTimed [] "a" (impatient Contest.root))).2 := hmachine
  have hend : ((Machine.bare 1).run 1 (acquireTimed [] "a" (impatient Contest.root))).1 =
      .returned (.ok ⟨.ofAttempt "a" (lockPath Contest.root "a") (some 0)⟩) := by rfl
  have hw : s.machine.WellFormed := by
    rw [hmachine]
    exact Machine.run_wellFormed (Machine.bare_wellFormed 1) 1 _
  have hlock : s.machine.locks.get? 2 = some 0 := by
    rw [hmachine]
    decide +kernel
  have hguard : s.GuardLocks 2 := by
    refine ⟨0, e, ⟨.ofAttempt "a" (lockPath Contest.root "a") (some 0)⟩, 0, hk, ?_, rfl, hlock⟩
    simp only [Errand.guard?, hstage, hend]
    rfl
  have hreach : s.machine.tree.Reaches aboveRoot "a" 2 := by
    rw [hmachine]
    constructor
    · have hfind : (((Machine.bare 1).run 1 (acquireTimed [] "a" (impatient Contest.root))).2.tree.find
          .node (lockPath aboveRoot "a")).toOption = some 2 := by decide +kernel
      exact FileTree.leads_of_toOption hfind
    · decide +kernel
    · decide +kernel
    · decide +kernel
  have hfree : s.holders (lockPath aboveRoot "a") = 0 := by
    rw [← (hrun.counted rfl).count, hmachine]
    decide +kernel
  have hlooks : (impatient aboveRoot).Looks "a" := ⟨by decide, rfl⟩
  have hreach' : s.machine.tree.Reaches ((impatient aboveRoot).directory []) "a" 2 := hreach
  obtain ⟨elapsed, n, clock, said, hspent, htimeout⟩ :=
    (refusal_by_spelling rfl hrun hw hlooks hguard hreach').2 hfree
  exact ⟨past, s, 2, elapsed, n, clock, said, hrun, hguard, hreach, hfree, hspent, htimeout⟩

end Threads

end NamedMutex
