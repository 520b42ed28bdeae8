/-
  Programs that nobody disturbs.

  What a call answers and does depends neither on the time nor on what was said
  before, unless the call asks for the time.  So the course of a program on its own
  can be followed from one machine to the next, with both left aside.

  * `Ends` says that a program ends on a machine and how, whatever the time is, and
    `Gives` with which value and on which machine;
  * `Ends.ask`, `Gives.bind`, `Ends.within`: programs are followed call by call;
  * `gives_readOwner`: a look at the owner of a lock file does nothing, and finds
    `ownerAt`.
-/
import NamedMutex.Machine.Basic
import NamedMutex.Proofs.Stamps

namespace NamedMutex

namespace Machine

/-- The machine at another time, with other things said before. -/
def moment (m : Machine) (clock : Duration) (said : List (Pid × Output)) : Machine :=
  { m with clock := clock, said := said }

/-- A program with nobody else at work ends, whatever the time is; its value and what
    becomes of the machine are such, apart from the time and from what is said. -/
def Ends {α : Type} (m : Machine) (me : Pid) (p : Program α) (Q : α → Machine → Prop) : Prop :=
  ∀ clock said, ∃ a m' clock' said', clock ≤ clock' ∧
    (m.moment clock said).run me p = (.returned a, m'.moment clock' said') ∧ Q a m'

/-- A program ends with this value and leaves the machine so. -/
abbrev Gives {α : Type} (m : Machine) (me : Pid) (p : Program α) (a : α) (m' : Machine) : Prop :=
  m.Ends me p fun b n => b = a ∧ n = m'

variable {α β : Type} {m m' m'' : Machine} {me : Pid} {a : α} {b : β} {p : Program α}
  {f : α → Program β} {Q : α → Machine → Prop} {R : β → Machine → Prop}

theorem Ends.run (h : m.Ends me p Q) : ∃ a m' clock said, m.clock ≤ clock ∧
    m.run me p = (.returned a, m'.moment clock said) ∧ Q a m' := h m.clock m.said

theorem Gives.run (h : m.Gives me p a m') : ∃ clock said, m.clock ≤ clock ∧
    m.run me p = (.returned a, m'.moment clock said) := by
  obtain ⟨_, _, clock, said, hle, hrun, rfl, rfl⟩ := Ends.run h
  exact ⟨clock, said, hle, hrun⟩

theorem Gives.at (h : m.Gives me p a m') (clock : Duration) (said : List (Pid × Output)) :
    ∃ clock' said', clock ≤ clock' ∧
      (m.moment clock said).run me p = (.returned a, m'.moment clock' said') := by
  obtain ⟨_, _, clock', said', hle, hrun, rfl, rfl⟩ := h clock said
  exact ⟨clock', said', hle, hrun⟩

/-- Whether a call asks for the time. -/
def asksTime : Call → Bool
  | .now => true
  | _ => false

/-- How long a call takes. -/
def lasts : Call → Duration
  | .sleep time => callTime + time
  | _ => callTime

/-- What has been said after a call. -/
def saidAfter (me : Pid) (said : List (Pid × Output)) : Call → List (Pid × Output)
  | .say output => (me, output) :: said
  | _ => said

/-- How long a call makes its process wait. -/
def waits : Call → Duration
  | .sleep time => time
  | _ => 0

theorem lasts_eq (c : Call) : lasts c = callTime + waits c := by cases c <;> rfl

/-- **What a call answers and does depends neither on the time nor on what was said
    before**, unless it asks for the time. -/
theorem answer_moment {c : Call} (hc : asksTime c = false) (clock : Duration)
    (said : List (Pid × Output)) : (m.moment clock said).answer me c =
      ((m.answer me c).1, (m.answer me c).2.moment (clock + waits c) (saidAfter me said c)) := by
  cases c with
  | now => cases hc
  | openFile p =>
    simp only [answer, moment, setTree, open_]
    split <;> rfl
  | tryLock d =>
    simp only [answer, moment, tryLock]
    split
    · rfl
    · split <;> rfl
  | read d =>
    simp only [answer, moment, read, seek]
    split <;> rfl
  | truncate d =>
    simp only [answer, moment, truncate, setTree]
    split
    · rfl
    · split <;> rfl
  | rewind d =>
    simp only [answer, moment, rewind, seek]
    split <;> rfl
  | write d bytes =>
    simp only [answer, moment, write, setTree, seek]
    split
    · rfl
    · split <;> rfl
  | unlink p =>
    simp only [answer, moment, setTree]
    split <;> rfl
  | unlock d =>
    by_cases h : m.opened.contains d = true
    · simp only [answer, moment, dropLock, h, if_true]
      rfl
    · simp only [answer, moment, h]
      rfl
  | makeDirs | leadsTo | readPath | close | ownPid | probe | sleep | isRegistered | register
  | unregister | say => rfl

theorem perform_moment {c : Call} (hc : asksTime c = false) (clock : Duration)
    (said : List (Pid × Output)) : (m.moment clock said).perform me c =
      ((m.answer me c).1, (m.answer me c).2.moment (clock + lasts c) (saidAfter me said c)) := by
  have hthen : (m.moment (clock + callTime) said).answer me c = _ := answer_moment hc _ said
  rw [lasts_eq, ← Nat.add_assoc]
  exact hthen

theorem perform_said (c : Call) (said : List (Pid × Output)) :
    Machine.perform { m with said := said } me c =
      ((m.perform me c).1, { (m.perform me c).2 with said := saidAfter me said c }) := by
  cases hc : asksTime c with
  | true =>
    obtain rfl : c = .now := by cases c <;> first | rfl | cases hc
    rfl
  | false =>
    have hthis : m.perform me c = _ := perform_moment hc m.clock m.said
    rw [hthis]
    exact perform_moment (m := m) hc m.clock said

/-! ## Programs step by step -/

theorem run_call (c : Call) (f : c.Answer → Program β) :
    m.run me (Program.call c >>= f) = (m.perform me c).2.run me (f (m.perform me c).1) := rfl

theorem run_bind (h : m.run me p = (.returned a, m')) :
    m.run me (p >>= f) = m'.run me (f a) := by
  induction p generalizing m with
  | done =>
    cases h
    rfl
  | halt => cases h
  | ask c next ih => exact ih (m.perform me c).1 h

theorem ends_pure (h : Q a m) : m.Ends me (pure a) Q :=
  fun clock said => ⟨a, m, clock, said, Nat.le_refl _, rfl, h⟩

theorem gives_pure (a : α) : m.Gives me (pure a) a m := ends_pure ⟨rfl, rfl⟩

theorem Ends.ask {c : Call} {x : c.Answer} {next : c.Answer → Program β} (hc : asksTime c = false)
    (h : m.answer me c = (x, m')) (hnext : m'.Ends me (next x) R) :
    m.Ends me (Program.call c >>= next) R := by
  intro clock said
  obtain ⟨b, n, clock', said', hle, hrun, hR⟩ :=
    hnext (clock + lasts c) (saidAfter me said c)
  refine ⟨b, n, clock', said', Nat.le_trans (Nat.le_add_right _ _) hle, ?_, hR⟩
  rw [run_call, perform_moment hc, h, hrun]

theorem Ends.now {next : Duration → Program β} (h : ∀ time, m.Ends me (next time) R) :
    m.Ends me (Program.call .now >>= next) R := by
  intro clock said
  obtain ⟨b, n, clock', said', hle, hrun, hR⟩ := h (clock + callTime) (clock + callTime) said
  exact ⟨b, n, clock', said', Nat.le_trans (Nat.le_add_right _ _) hle, hrun, hR⟩

theorem Ends.imp {Q' : α → Machine → Prop} (h : m.Ends me p Q) (hQ : ∀ a m', Q a m' → Q' a m') :
    m.Ends me p Q' := by
  intro clock said
  obtain ⟨a, m', clock', said', hle, hrun, ha⟩ := h clock said
  exact ⟨a, m', clock', said', hle, hrun, hQ a m' ha⟩

/-- A program goes on from wherever its first part ends. -/
theorem Ends.bind (h : m.Ends me p Q) (hf : ∀ a m', Q a m' → m'.Ends me (f a) R) :
    m.Ends me (p >>= f) R := by
  intro clock said
  obtain ⟨a, m', clock', said', hle, hrun, hQ⟩ := h clock said
  obtain ⟨b, n, clock'', said'', hle', hrun', hR⟩ := hf a m' hQ clock' said'
  exact ⟨b, n, clock'', said'', Nat.le_trans hle hle', by rw [run_bind hrun, hrun'], hR⟩

theorem Gives.bind (h : m.Gives me p a m') (hf : m'.Ends me (f a) R) : m.Ends me (p >>= f) R := by
  refine Ends.bind h ?_
  rintro _ _ ⟨rfl, rfl⟩
  exact hf

theorem gives_call {c : Call} {x : c.Answer} (hc : asksTime c = false) (h : m.answer me c = (x, m')) :
    m.Gives me (Program.call c) x m' := Ends.ask hc h (gives_pure x)

theorem Ends.report {e : Event} {f : Unit → Program β} (hf : m.Ends me (f ()) R) :
    m.Ends me (Program.report e >>= f) R := by
  intro clock said
  obtain ⟨b, n, clock', said', hle, hrun, hR⟩ :=
    hf (clock + callTime) ((me, .event [] e) :: said)
  exact ⟨b, n, clock', said', Nat.le_trans (Nat.le_add_right _ _) hle, hrun, hR⟩

theorem run_within (m : Machine) (me : Pid) (s : Span) (p : Program α)
    (said : List (Pid × Output)) : ∃ said', Machine.run me (p.within s) { m with said := said } =
      ((m.run me p).1, { (m.run me p).2 with said := said' }) := by
  induction p generalizing m said with
  | done | halt => exact ⟨said, rfl⟩
  | ask c next ih =>
    -- within the span the call is the same, or says something else
    have hstep : ∃ said', Machine.run me ((Program.ask c next).within s) { m with said := said } =
        Machine.run me ((next (m.perform me c).1).within s)
          { (m.perform me c).2 with said := said' } := by
      cases c with
      | say output => cases output <;> exact ⟨_, rfl⟩
      | _ =>
        refine ⟨said, ?_⟩
        simp only [Program.within, Machine.run, perform_said, saidAfter]
    obtain ⟨said', hstep⟩ := hstep
    rw [hstep]
    exact ih _ _ _

theorem Ends.within (h : m.Ends me p Q) (s : Span) : m.Ends me (p.within s) Q := by
  intro clock said
  obtain ⟨a, n, clock', said', hle, hrun, hQ⟩ := h clock said
  obtain ⟨said'', hwithin⟩ := run_within (m.moment clock said) me s p said
  rw [hrun] at hwithin
  exact ⟨a, n, clock', said'', hle, hwithin, hQ⟩

/-! ## Looks at an owner -/

variable {dir path : Path} {name : String} {pid : Pid} {bytes : Bytes}

/-- What a look at the existence of a process finds. -/
def sees (m : Machine) (pid : Pid) : Bool :=
  if pid = 0 ∨ Pid.limit ≤ pid then false
  else match m.probe pid with
    | .ok () => true
    | .error e => decide (e ≠ .noProcess)

/-- What a look at the owner of a lock file finds. -/
def ownerAt (m : Machine) (path : Path) : Except IoError (Option Owner) :=
  match readText (m.tree.readPath path) with
  | .ok content => .ok ((Stamp.parse? content).map fun pid => ⟨pid, m.sees pid⟩)
  | .error e => if e.kind = .notFound then .ok none else .error e

/-- What a look at the existence of a process finds is whether the system knows it. -/
theorem sees_eq_contains (hpid : pid.IsProper) : m.sees pid = m.processes.contains pid := by
  have hin : ¬ (pid = 0 ∨ Pid.limit ≤ pid) := by
    rintro (rfl | hge)
    · exact Nat.lt_irrefl 0 hpid.1
    · exact Nat.not_lt.2 hge hpid.2
  rw [sees, if_neg hin, probe, Table.contains]
  cases m.processes.get? pid with
  | none => rfl
  | some state => cases state <;> rfl

theorem sees_of_running (hpid : pid.IsProper) (hrun : m.processes.get? pid = some .running) :
    m.sees pid = true := by
  rw [sees_eq_contains hpid, Table.contains, hrun, Option.isSome_some]

theorem ownerAt_of_names (hread : m.tree.readPath path = .ok bytes)
    (hnames : Stamp.Names bytes pid) : m.ownerAt path = .ok (some ⟨pid, m.sees pid⟩) := by
  obtain ⟨content, hcontent, hparse⟩ := hnames
  simp only [ownerAt, hread, readText, hcontent, hparse, Option.map_some]

theorem gives_isAlive (m : Machine) (me pid : Pid) : m.Gives me (isAlive pid) (m.sees pid) m := by
  unfold isAlive sees
  split
  · exact gives_pure _
  · refine Ends.ask (c := .probe pid) rfl rfl ?_
    cases m.probe pid <;> exact gives_pure _

theorem gives_ownerOf (m : Machine) (me : Pid) (content : String) :
    m.Gives me (ownerOf content) ((Stamp.parse? content).map fun pid => ⟨pid, m.sees pid⟩) m := by
  unfold ownerOf
  cases Stamp.parse? content with
  | none => exact gives_pure _
  | some pid => exact (gives_isAlive m me pid).bind (gives_pure _)

/-- **A look at the owner leaves the machine alone.** -/
theorem gives_readOwner (m : Machine) (me : Pid) (hname : IsValidName name) :
    m.Gives me (readOwner dir name) (m.ownerAt (lockPath dir name)) m := by
  unfold readOwner ownerAt
  rw [if_pos hname]
  refine Ends.ask (c := .readPath (lockPath dir name)) rfl rfl ?_
  cases readText (m.tree.readPath (lockPath dir name)) with
  | error e => exact gives_pure _
  | ok content => exact (gives_ownerOf m me content).bind (gives_pure _)

theorem run_readOwner (m : Machine) (me : Pid) (hname : IsValidName name) :
    (m.run me (readOwner dir name)).1 = .returned (m.ownerAt (lockPath dir name)) := by
  obtain ⟨_, _, -, hrun⟩ := (gives_readOwner m me hname).run
  rw [hrun]

end Machine

end NamedMutex
