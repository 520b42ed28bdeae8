/-
  Operations on one name, and all that they depend on.

  A `Job` is an operation on the mutex of a name that a process performs.  What it replies and
  what it does are functions of the name's part of the machine, of the numbers that come next,
  of the registry's word on the name and of the job's own handle.

  * `Job.report` and `Job.deed` are these functions; `Job.Done` is a machine on which the job
    was done, and `Machine.Tallies` what becomes of the registries;
  * `Job.conforms`: the program of every job replies and does accordingly.
-/
import NamedMutex.Proofs.Verdicts

namespace NamedMutex

/-- An operation on the mutex of a name. -/
inductive Operation where
  /-- Make one attempt. -/
  | attempt
  /-- Release a handle, or give it up. -/
  | release (h : Handle)
  /-- Acquire within a time budget. -/
  | acquire (env : Environment) (options : AcquireOptions)
  /-- Give up a guard. -/
  | drop (g : Guard)
  /-- Look whose stamp the lock file carries. -/
  | owner
  /-- Ask whether this process holds the name by a guard. -/
  | isHeld

/-- What an operation replies. -/
inductive Report where
  | handle (x : Except IoError Handle)
  | guard (x : Except AcquireError Guard)
  | owner (x : Except IoError (Option Owner))
  | truth (b : Bool)
  | done

/-- A handle whose opening has another number. -/
def Handle.renumber (τ : Descriptor → Descriptor) (h : Handle) : Handle :=
  { h with held := h.held.map τ }

/-- A report with other numbers of openings, and without the time that was measured. -/
def Report.seen (τ : Descriptor → Descriptor) : Report → Report
  | handle (.ok h) => handle (.ok (h.renumber τ))
  | guard (.ok g) => guard (.ok ⟨g.handle.renumber τ⟩)
  | guard (.error (.timeout name _)) => guard (.error (.timeout name 0))
  | r => r

/-- An operation on the mutex of a name, and the process that performs it. -/
structure Job where
  process : Pid
  dir : Path
  name : String
  operation : Operation

namespace Job

variable (x : Job)

def path : Path := lockPath x.dir x.name

def entry : Bytes := lockEntry x.name

/-- The opening of the handle or guard that is given up. -/
def held? : Option Descriptor :=
  match x.operation with
  | .release h => h.held
  | .drop g => g.handle.held
  | _ => none

/-- What the process does. -/
def program : Program Report :=
  match x.operation with
  | .attempt => do pure (.handle (← Handle.acquire x.dir x.name))
  | .release h => do pure (.handle (.ok (← h.release)))
  | .acquire env options => do pure (.guard (← acquireTimed env x.name options))
  | .drop g => do
    g.drop
    pure .done
  | .owner => do pure (.owner (← readOwner x.dir x.name))
  | .isHeld => do pure (.truth (← isHeldLocally x.dir x.name))

/-- The operation is one on the job's name: handles and guards that it gives up are for it,
    and its options name the directory. -/
def Concerns : Prop :=
  match x.operation with
  | .release h => h.path = x.path
  | .drop g => g.handle.path = x.path
  | .acquire env options => options.directory env = x.dir
  | _ => True

/-- A job that can be done on a machine: its name is valid, its directory exists, and a handle
    that it gives up has its lock. -/
structure Fits (m : Machine) (D : Inode) : Prop where
  valid : IsValidName x.name
  finds : m.tree.Finds x.dir D
  concerns : x.Concerns
  held : ∀ d, x.held? = some d → ∃ f, m.opened.get? d = some f ∧ m.locks.get? f.inode = some d

/-! ## What a job does and replies -/

variable (m : Machine) (D : Inode)

/-- How an attempt of the job ends. -/
def verdict : Verdict := (m.part D x.entry).verdict x.path x.entry m.tree.next

/-- Whether the registry has the name as one that the process holds. -/
def isRegistered : Bool := (m.registry x.process).contains x.path

/-- What giving up a handle does. -/
def giveUp : Deed :=
  match x.held?.bind fun d => (m.opened.get? d).map fun f => (d, f) with
  | none => .nothing
  | some (d, f) => .giveUp f.inode d ((m.part D x.entry).slot.removable x.path x.entry)

/-- What the job does to the machine. -/
def deed : Deed :=
  match x.operation with
  | .attempt => (x.verdict m D).deed x.process m.nextDescriptor
  | .acquire _ options =>
    if options.checkReentrant = true ∧ x.isRegistered m = true then .nothing
    else (x.verdict m D).deed x.process m.nextDescriptor
  | .release _ | .drop _ => x.giveUp m D
  | .owner | .isHeld => .nothing

end Job

/-- What becomes of the count of registrations of the name. -/
def Operation.tally : Operation → Deed → Nat → Nat
  | acquire _ _, .take _ _ _ _ _, n => n + 1
  | drop _, _, n => n - 1
  | _, _, n => n

/-- The outcome of a single attempt. -/
def Verdict.handle (name : String) (path : Path) (d : Descriptor) : Verdict → Except IoError Handle
  | fails err => Handle.ofOutcome name path (Machine.failing err)
  | vain => .ok (.ofAttempt name path none)
  | takes _ _ _ => .ok (.ofAttempt name path (some d))

/-- The outcome of a timed acquisition, without the time. -/
def Verdict.guard (name : String) (path : Path) (d : Descriptor) : Verdict → Except AcquireError Guard
  | fails err => if err.IsFatal then .error (.io err) else .error (.timeout name 0)
  | vain => .error (.timeout name 0)
  | takes _ _ _ => .ok ⟨.ofAttempt name path (some d)⟩

/-- What the job replies. -/
def Job.report (x : Job) (m : Machine) (D : Inode) : Report :=
  match x.operation with
  | .attempt => .handle ((x.verdict m D).handle x.name x.path m.nextDescriptor)
  | .release h => .handle (.ok h.released)
  | .acquire _ options =>
    .guard (if options.checkReentrant = true ∧ x.isRegistered m = true then
      .error (.notReentrant x.name) else (x.verdict m D).guard x.name x.path m.nextDescriptor)
  | .drop _ => .done
  | .owner => .owner (m.ownerAt x.path)
  | .isHeld => .truth (x.isRegistered m)

/-- The registries after the count of one path in one of them was changed. -/
structure Machine.Tallies (me : Pid) (path : Path) (f : Nat → Nat) (m m' : Machine) : Prop where
  counts : ∀ pid, (m.registry pid).Sound → ∀ q, (m'.registry pid).count q =
    if pid = me ∧ path.Same q then f ((m.registry pid).count q) else (m.registry pid).count q
  sound : ∀ pid, (m.registry pid).Sound → (m'.registry pid).Sound

/-- A machine after a job. -/
structure Job.Done (x : Job) (m : Machine) (D : Inode) (m' : Machine) : Prop where
  does : m.Does D x.entry (x.deed m D) m'
  tallies : m.Tallies x.process x.path (x.operation.tally (x.deed m D)) m'

namespace Machine

variable {m m' : Machine} {me : Pid} {path : Path} {D : Inode}

theorem tallies_of_eq {f : Nat → Nat} (hf : ∀ n, f n = n) (h : m'.registries = m.registries) :
    m.Tallies me path f m' := by
  have hsame : ∀ pid, m'.registry pid = m.registry pid := fun pid => by simp only [registry, h]
  refine ⟨fun pid _ q => ?_, fun pid hs => hsame pid ▸ hs⟩
  rw [hsame, hf]
  exact (ite_self _).symm

theorem tallies_setRegistry {f : Nat → Nat} {r : Registry} (h : m'.registries = m.registries)
    (hr : (m.registry me).Sound → r.Sound ∧ ∀ q, r.count q =
      if path.Same q then f ((m.registry me).count q) else (m.registry me).count q) :
    m.Tallies me path f (m'.setRegistry me r) := by
  have hafter : ∀ pid, (m'.setRegistry me r).registry pid = if pid = me then r else m.registry pid := by
    intro pid
    rw [registry_setRegistry]
    simp only [registry, h]
  constructor
  case counts =>
    intro pid hs q
    rw [hafter]
    by_cases hpid : pid = me
    · subst hpid
      simp only [if_true, true_and, (hr hs).2]
    · simp only [hpid, false_and, if_false]
  case sound =>
    intro pid hs
    rw [hafter]
    split
    · rename_i hpid
      subst hpid
      exact (hr hs).1
    · exact hs

theorem tallies_registered (h : m'.registries = m.registries) :
    m.Tallies me path (· + 1) (m'.registered me path) := by
  refine tallies_setRegistry h fun hs => ?_
  have hsame : m'.registry me = m.registry me := by simp only [registry, h]
  rw [hsame]
  refine ⟨hs.register path, fun q => ?_⟩
  rw [Registry.count_register]
  split <;> rfl

theorem tallies_unregistered (h : m'.registries = m.registries) :
    m.Tallies me path (· - 1) (m'.unregistered me path) := by
  refine tallies_setRegistry h fun hs => ?_
  have hsame : m'.registry me = m.registry me := by simp only [registry, h]
  rw [hsame]
  refine ⟨hs.unregister path, fun q => ?_⟩
  rw [Registry.count_unregister hs.distinct]
  split <;> rfl

theorem Does.moment {e : Bytes} {deed : Deed} (h : m.Does D e deed m') (clock : Duration)
    (said : List (Pid × Output)) : m.Does D e deed (m'.moment clock said) := { h with }

end Machine

/-! ## Jobs are done -/

@[simp] theorem Handle.renumber_id (h : Handle) : h.renumber id = h := by
  simp [Handle.renumber]

theorem Report.seen_id_handle (y : Except IoError Handle) : (handle y).seen id = handle y := by
  cases y <;> simp [seen]

namespace Job

variable {x : Job} {m : Machine} {D : Inode}

/-- A job that is done ends so: with its report, but for the time, and with its deed. -/
def Conforms (x : Job) (m : Machine) (D : Inode) : Prop :=
  m.Ends x.process x.program fun r m' => r.seen id = x.report m D ∧ x.Done m D m'

/-- A job that gives up a handle closes its file, and removes what it can remove. -/
theorem gives_giveUp (hw : m.WellFormed) (hx : x.Fits m D) (hlink : m.tree.NoLink D x.entry)
    {h : Handle} (hheld : x.held? = h.held) (hpath : h.path = x.path) :
    ∃ m', m.Gives x.process h.release h.released m' ∧ m.Does D x.entry (x.giveUp m D) m' ∧
      m'.registries = m.registries := by
  cases hd : h.held with
  | none =>
    have hdeed : x.giveUp m D = .nothing := by simp only [giveUp, hheld, hd, Option.bind_none]
    refine ⟨m, ?_, hdeed ▸ Machine.does_skip m D x.entry 0, rfl⟩
    have hreleased : h.released = h := by simp only [Handle.released, hd]
    simp only [Handle.release, hd, hreleased]
    exact Machine.gives_pure h
  | some d =>
    obtain ⟨f, hopened, hlock⟩ := hx.held d (hheld.trans hd)
    have hdeed : x.giveUp m D =
        .giveUp f.inode d ((m.part D x.entry).slot.removable x.path x.entry) := by
      simp only [giveUp, hheld, hd, Option.bind_some, hopened, Option.map_some]
    refine ⟨_, Machine.gives_release hd hopened, ?_, rfl⟩
    have hunlinked : Machine.unlinked m.tree h.path =
        if (m.part D x.entry).slot.removable x.path x.entry then m.tree.remove D x.entry
        else m.tree := by
      rw [hpath]
      exact hx.finds.unlinked hx.valid hlink
    rw [hdeed, hunlinked]
    refine Machine.does_close hw hlock hopened
      (FileTree.does_remove hw.tree hx.finds.isDirectory f.inode d fun hremoves => ?_)
    exact FileTree.exists_of_removable hx.finds.isDirectory
      (FileTree.isEntryName_lockEntry x.name) hlink hremoves

section Cases
variable {me : Pid} {dir : Path} {name : String}

theorem gives_verdict (hw : m.WellFormed) (hx : x.Fits m D) (hlink : m.tree.NoLink D x.entry) :
    ∃ m', m.Gives x.process (Handle.acquire x.dir x.name)
        ((x.verdict m D).handle x.name x.path m.nextDescriptor) m' ∧
      m.Does D x.entry ((x.verdict m D).deed x.process m.nextDescriptor) m' ∧
      m'.registries = m.registries := by
  cases hv : x.verdict m D with
  | fails err =>
    exact ⟨m, Machine.gives_acquire_fails hx.finds hx.valid hlink hv, Machine.does_skip m D _ 0, rfl⟩
  | vain =>
    exact ⟨m.skip 1, Machine.gives_acquire_vain hw hx.finds hx.valid hlink hv,
      Machine.does_skip m D _ 1, rfl⟩
  | takes i mode owned => exact Machine.gives_acquire_takes hw hx.finds hx.valid hlink hv

theorem conforms_attempt (hw : m.WellFormed) (hx : (Job.mk me dir name .attempt).Fits m D)
    (hlink : m.tree.NoLink D (lockEntry name)) : (Job.mk me dir name .attempt).Conforms m D := by
  obtain ⟨m', hgives, hdoes, hregistries⟩ := gives_verdict hw hx hlink
  exact hgives.bind (Machine.ends_pure ⟨Report.seen_id_handle _, hdoes,
    Machine.tallies_of_eq (fun _ => rfl) hregistries⟩)

theorem conforms_release {h : Handle} (hw : m.WellFormed)
    (hx : (Job.mk me dir name (.release h)).Fits m D)
    (hlink : m.tree.NoLink D (lockEntry name)) :
    (Job.mk me dir name (.release h)).Conforms m D := by
  obtain ⟨m', hgives, hdoes, hregistries⟩ := gives_giveUp hw hx hlink rfl hx.concerns
  exact hgives.bind (Machine.ends_pure ⟨Report.seen_id_handle _, hdoes,
    Machine.tallies_of_eq (fun _ => rfl) hregistries⟩)

theorem conforms_drop {g : Guard} (hw : m.WellFormed)
    (hx : (Job.mk me dir name (.drop g)).Fits m D) (hlink : m.tree.NoLink D (lockEntry name)) :
    (Job.mk me dir name (.drop g)).Conforms m D := by
  obtain ⟨m', hgives, hdoes, hregistries⟩ := gives_giveUp hw hx hlink rfl hx.concerns
  have hpath : g.handle.path = lockPath dir name := hx.concerns
  have hdrop := Machine.gives_drop hgives
  rw [hpath] at hdrop
  exact hdrop.bind (Machine.ends_pure ⟨rfl, hdoes.registered _,
    Machine.tallies_unregistered hregistries⟩)

theorem conforms_owner (hx : (Job.mk me dir name .owner).Fits m D) :
    (Job.mk me dir name .owner).Conforms m D :=
  (Machine.gives_readOwner m me hx.valid).bind (Machine.ends_pure ⟨rfl,
    Machine.does_skip m D _ 0, Machine.tallies_of_eq (fun _ => rfl) rfl⟩)

theorem conforms_isHeld (m : Machine) (D : Inode) : (Job.mk me dir name .isHeld).Conforms m D := by
  have hgives : m.Gives me (isHeldLocally dir name)
      ((m.registry me).contains (lockPath dir name)) m := Machine.gives_call rfl rfl
  exact hgives.bind (Machine.ends_pure ⟨rfl, Machine.does_skip m D _ 0,
    Machine.tallies_of_eq (fun _ => rfl) rfl⟩)

/-- An acquisition that is not refused ends according to the verdict, at once or in the end. -/
theorem ends_start_verdict (env : Environment) {options : AcquireOptions} (hw : m.WellFormed)
    (hx : x.Fits m D) (hlink : m.tree.NoLink D x.entry) :
    m.Ends x.process (AcquireTimed.start x.dir x.name options) fun r m' =>
      (Report.guard r).seen id = .guard ((x.verdict m D).guard x.name x.path m.nextDescriptor) ∧
      m.Does D x.entry ((x.verdict m D).deed x.process m.nextDescriptor) m' ∧
      m.Tallies x.process x.path ((Operation.acquire env options).tally
        ((x.verdict m D).deed x.process m.nextDescriptor)) m' := by
  have hpoll : m.Busy x.process x.dir x.name →
      m.Ends x.process (AcquireTimed.start x.dir x.name options) fun r m' =>
        (Report.guard r).seen id = .guard (.error (.timeout x.name 0)) ∧
        m.Does D x.entry .nothing m' ∧ m.Tallies x.process x.path id m' := by
    refine fun hbusy => (Machine.ends_start hbusy).imp ?_
    rintro r m' ⟨elapsed, n, rfl, -, rfl⟩
    exact ⟨rfl, Machine.does_skip m D _ n, Machine.tallies_of_eq (fun _ => rfl) rfl⟩
  obtain ⟨m', hgives, hdoes, hregistries⟩ := gives_verdict hw hx hlink
  cases hv : x.verdict m D with
  | takes i mode owned =>
    rw [hv] at hgives hdoes
    refine Machine.Ends.imp (Machine.gives_start hgives rfl) ?_
    rintro _ _ ⟨rfl, rfl⟩
    exact ⟨by simp [Report.seen, Verdict.guard], hdoes.registered _,
      Machine.tallies_registered hregistries⟩
  | vain => exact hpoll (Machine.busy_of_verdict hw hx.finds hx.valid hlink (Or.inl hv))
  | fails err =>
    by_cases hfatal : err.IsFatal
    · rw [hv] at hgives hdoes
      simp only [Verdict.handle, Machine.failing, if_pos hfatal] at hgives
      refine Machine.Ends.imp (Machine.gives_start_failed hgives) ?_
      rintro _ _ ⟨rfl, rfl⟩
      exact ⟨by simp [Report.seen, Verdict.guard, hfatal], hdoes,
        Machine.tallies_of_eq (fun _ => rfl) hregistries⟩
    · simp only [Verdict.guard, if_neg hfatal]
      exact hpoll (Machine.busy_of_verdict hw hx.finds hx.valid hlink
        (Or.inr ⟨err, hfatal, hv⟩))

theorem conforms_acquire {env : Environment} {options : AcquireOptions} (hw : m.WellFormed)
    (hx : (Job.mk me dir name (.acquire env options)).Fits m D)
    (hlink : m.tree.NoLink D (lockEntry name)) :
    (Job.mk me dir name (.acquire env options)).Conforms m D := by
  by_cases hrefused : options.checkReentrant = true ∧
      (Job.mk me dir name (.acquire env options)).isRegistered m = true
  · have hdeed : (Job.mk me dir name (.acquire env options)).deed m D = .nothing := if_pos hrefused
    refine Machine.Gives.bind
      (Machine.gives_notReentrant hx.valid hx.concerns hrefused.1 hrefused.2)
      (Machine.ends_pure ⟨?_, ?_, ?_⟩)
    · simp only [report, if_pos hrefused]
      rfl
    · rw [hdeed]
      exact Machine.does_skip m D _ 0
    · rw [hdeed]
      exact Machine.tallies_of_eq (fun _ => rfl) rfl
  · have hdeed : (Job.mk me dir name (.acquire env options)).deed m D =
        ((Job.mk me dir name (.acquire env options)).verdict m D).deed me m.nextDescriptor :=
      if_neg hrefused
    have hlook : options.checkReentrant = true →
        (m.registry me).contains (lockPath dir name) = false := fun hcheck =>
      Bool.eq_false_iff.2 fun h => hrefused ⟨hcheck, h⟩
    refine Machine.Ends.bind (Machine.ends_acquireTimed_of_start hx.valid hx.concerns hlook
      (ends_start_verdict env hw hx hlink)) ?_
    rintro r m' ⟨hseen, hdoes, htallies⟩
    refine Machine.ends_pure ⟨?_, hdeed ▸ hdoes, hdeed ▸ htallies⟩
    simp only [report, if_neg hrefused]
    exact hseen

end Cases

/-- **Every job does and replies what its part of the machine says.** -/
theorem conforms (hw : m.WellFormed) (hx : x.Fits m D) (hlink : m.tree.NoLink D x.entry) :
    x.Conforms m D := by
  obtain ⟨me, dir, name, operation⟩ := x
  cases operation with
  | attempt => exact conforms_attempt hw hx hlink
  | release h => exact conforms_release hw hx hlink
  | acquire env options => exact conforms_acquire hw hx hlink
  | drop g => exact conforms_drop hw hx hlink
  | owner => exact conforms_owner hx
  | isHeld => exact conforms_isHeld m D

end Job

end NamedMutex
