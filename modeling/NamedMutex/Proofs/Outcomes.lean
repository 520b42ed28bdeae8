/-
  What the commands that lock a mutex come to, among others.

  A command that makes one attempt, or polls within a time budget, ends in one of five ways:
  the name is invalid, the attempt is in vain, the lock directory cannot be used, the budget
  is used up, or the mutex is acquired, announced and released.

  * `Ending` lists these ways, with the trace and the exit status of each;
  * `Outcome` says what the exit status tells of a trace, and `Ending.outcome` that it does;
  * `among_runHold`, `among_acquireAndHold`: the commands end in these ways;
  * `Course.exit_outcome` is the main statement, about the whole command for its arguments.
-/
import NamedMutex.CommandLine.Run
import NamedMutex.Proofs.Polling

namespace NamedMutex

open Program

/-- A time was read that exceeds the first one by more than the budget. -/
def Account.Exceeds (timeout : Duration) (t : Account) : Prop :=
  match t.times with
  | [] => False
  | started :: times => ∃ time ∈ times, timeout < time - started

/-- The budget of a command, if it has one, was exceeded. -/
def Expired (budget : Option Duration) (trace : List Incident) : Prop :=
  ∃ timeout, budget = some timeout ∧ (account trace).Exceeds timeout

section Facts
variable {path : Path} {budget : Option Duration} {t trace : List Incident} {d : Descriptor}

theorem Acquired.stamped (h : Acquired path d trace) : d ∈ (account trace).stamped := by
  have hmem : ⟨.write d Stamp.newline, .ok ()⟩ ∈ calls trace := h.subset (by simp)
  clear h
  induction trace with
  | nil => cases hmem
  | cons i trace ih =>
    obtain ⟨met, c, x⟩ := i
    rcases List.mem_cons.1 hmem with heq | hmem
    · cases heq
      simp only [account, Account.ofCall, if_true]
      exact List.mem_append_left _ (List.mem_singleton_self d)
    · exact List.mem_append_right _ (ih hmem)

theorem not_acquired (h : (account trace).stamped = []) : ¬ ∃ d, Acquired path d trace := by
  rintro ⟨d, hd⟩
  have hmem := hd.stamped
  rw [h] at hmem
  cases hmem

theorem Expired.congr (h : (account t).times = (account trace).times) :
    Expired budget t ↔ Expired budget trace := by
  simp only [Expired, Account.Exceeds, h]

theorem not_expired (h : (account trace).times = []) : ¬ Expired budget trace := by
  rintro ⟨timeout, -, hexceeds⟩
  simp only [Account.Exceeds, h] at hexceeds

theorem expired_iff {timeout started : Duration} {times : List Duration}
    (h : (account trace).times = started :: times) :
    Expired (some timeout) trace ↔ ∃ time ∈ times, timeout < time - started := by
  simp only [Expired, Account.Exceeds, h, Option.some.injEq, exists_eq_left']

end Facts

theorem IoError.exitCode_of_fatal {e : IoError} (h : e.IsFatal) : e.exitCode = 1 := by
  have hkind : e.kind ≠ .notFound := by
    rcases h with h | h <;> rw [h] <;> decide
  exact if_neg hkind

namespace Command

/-! ## Endings -/

/-- What the exit status of a command that locks a mutex tells of its course. -/
structure Outcome (path : Path) (name : String) (budget : Option Duration) (me : Pid)
    (trace : List Incident) (code : Nat) (m : Machine) : Prop where
  /-- Zero: an attempt acquired the mutex. -/
  success : code = 0 ↔ ∃ d, Acquired path d trace
  /-- Exactly then there is one line on standard output. -/
  printed : (account trace).lines = if code = 0 then ["acquired mutex"] else []
  /-- When it was printed the process had the lock of the file that the attempt acquired. -/
  holding : code = 0 → ∃ before met after d,
    trace = before ++ ⟨met, .say (.line "acquired mutex"), ()⟩ :: after ∧
      Acquired path d before ∧ met.HasLock me d
  /-- At the end the process has no file open, and no lock. -/
  released : m.Idle me
  invalid : code = 2 ↔ ¬ IsValidName name
  expired : code = 3 ↔ Expired budget trace
  /-- One: the only attempt was in vain, or a step of an attempt met a fatal failure. -/
  failed : code = 1 ↔ (budget = none ∧ IsValidName name ∧ ¬ ∃ d, Acquired path d trace) ∨
    (account trace).fatal ≠ []
  unreached : code ≠ 4 ∧ code ≠ 127

/-- The ways in which such a command ends. -/
inductive Ending (path : Path) (name : String) (budget : Option Duration) (me : Pid) :
    List Incident → Nat → Machine → Prop
  | invalid {trace : List Incident} {m : Machine} : ¬ IsValidName name → account trace = .quiet →
      m.Idle me → Ending path name budget me trace 2 m
  | busy {trace : List Incident} {m : Machine} : IsValidName name → budget = none →
      account trace = .quiet → m.Idle me → Ending path name budget me trace 1 m
  | failed {trace : List Incident} {e : IoError} {times : List Duration} {m : Machine} :
      IsValidName name → account trace = ⟨[], [e], [], times⟩ → ¬ Expired budget trace →
      m.Idle me → Ending path name budget me trace 1 m
  | expired {trace : List Incident} {times : List Duration} {m : Machine} : IsValidName name →
      account trace = ⟨[], [], [], times⟩ → Expired budget trace → budget ≠ none →
      m.Idle me → Ending path name budget me trace 3 m
  | acquired {before after : List Incident} {met m : Machine} {d : Descriptor}
      {times : List Duration} : IsValidName name → account before = ⟨[], [], [d], times⟩ →
      ¬ Expired budget before → Acquired path d before → met.HasLock me d →
      account after = .quiet → m.Idle me → Ending path name budget me
        (before ++ ⟨met, .say (.line "acquired mutex"), ()⟩ :: after) 0 m

section Ending
variable {path : Path} {name : String} {budget : Option Duration} {me : Pid}
  {t trace : List Incident} {code : Nat} {m : Machine}

/-- What is to be told of a command that acquired nothing. -/
theorem Outcome.of_vain {times : List Duration} {fatal : List IoError} (hcode : code ≠ 0)
    (ht : account trace = ⟨[], fatal, [], times⟩) (hm : m.Idle me)
    (hinvalid : code = 2 ↔ ¬ IsValidName name) (hexpired : code = 3 ↔ Expired budget trace)
    (hfailed : code = 1 ↔ (budget = none ∧ IsValidName name) ∨ fatal ≠ [])
    (hunreached : code ≠ 4 ∧ code ≠ 127) : Outcome path name budget me trace code m where
  success := iff_of_false hcode (not_acquired (by rw [ht]))
  printed := by rw [if_neg hcode, ht]
  holding h := absurd h hcode
  released := hm
  invalid := hinvalid
  expired := hexpired
  failed := by
    have hnone : ¬ ∃ d, Acquired path d trace := not_acquired (by rw [ht])
    simp only [hfailed, ht, hnone, not_false_eq_true, and_true]
  unreached := hunreached

/-- **The exit status of a command tells what happened.** -/
theorem Ending.outcome (h : Ending path name budget me trace code m) :
    Outcome path name budget me trace code m := by
  cases h with
  | invalid hname ht hm =>
    have hin : ¬ Expired budget trace := not_expired (by rw [ht]; rfl)
    exact .of_vain (by decide) ht hm (by simp [hname]) (by simp [hin]) (by simp [hname]) (by decide)
  | busy hname hbudget ht hm =>
    have hin : ¬ Expired budget trace := not_expired (by rw [ht]; rfl)
    exact .of_vain (by decide) ht hm (by simp [hname]) (by simp [hin]) (by simp [hname, hbudget])
      (by decide)
  | failed hname ht hin hm =>
    exact .of_vain (by decide) ht hm (by simp [hname]) (by simp [hin]) (by simp) (by decide)
  | expired hname ht hlate hbudget hm =>
    exact .of_vain (by decide) ht hm (by simp [hname]) (by simp [hlate]) (by simp [hbudget])
      (by decide)
  | @acquired before after met m d times hname ht hin hacq hlock hquiet hm =>
    have htrace : account (before ++ ⟨met, .say (.line "acquired mutex"), ()⟩ :: after) =
        ⟨["acquired mutex"], [], [d], times⟩ := by
      rw [account_append, ht, account, hquiet]
      simp [Account.append_def, Account.ofCall, Account.quiet]
    have hall := hacq.append [] (⟨met, .say (.line "acquired mutex"), ()⟩ :: after)
    have hin' := mt (Expired.congr (by rw [htrace, ht])).1 hin
    refine ⟨iff_of_true rfl ⟨d, hall⟩, by rw [htrace, if_pos rfl],
      fun _ => ⟨before, met, after, d, rfl, hacq, hlock⟩, hm, by simp [hname],
      iff_of_false (by decide) hin', ?_, by decide⟩
    refine iff_of_false (by decide) ?_
    rintro (⟨-, -, hnone⟩ | hfatal)
    · exact hnone ⟨d, hall⟩
    · exact hfatal (by rw [htrace])

/-- What comes before an ending, and is not to be told of. -/
theorem Ending.after (ht : account t = .quiet)
    (h : Ending path name budget me trace code m) : Ending path name budget me (t ++ trace) code m := by
  have hall : ∀ trace, account (t ++ trace) = account trace := by
    intro trace
    rw [account_append, ht, Account.quiet_append]
  have hexpired : ∀ trace, Expired budget (t ++ trace) ↔ Expired budget trace :=
    fun trace => Expired.congr (by rw [hall])
  cases h with
  | invalid hname htrace hm => exact .invalid hname ((hall _).trans htrace) hm
  | busy hname hbudget htrace hm => exact .busy hname hbudget ((hall _).trans htrace) hm
  | failed hname htrace hin hm =>
    exact .failed hname ((hall _).trans htrace) (mt (hexpired _).1 hin) hm
  | expired hname htrace hlate hbudget hm =>
    exact .expired hname ((hall _).trans htrace) ((hexpired _).2 hlate) hbudget hm
  | acquired hname htrace hin hacq hlock hquiet hm =>
    have hmore := hacq.append t []
    rw [List.append_nil] at hmore
    rw [← List.append_assoc]
    exact .acquired hname ((hall _).trans htrace) (mt (hexpired _).1 hin) hmore hlock hquiet hm

end Ending

/-! ## Courses of commands -/

variable {env : Environment} {name : String} {me : Pid} {m : Machine} {verbose : Bool}
  {budget : Option Duration}

/-- The commands that lock a mutex: once, or within a time budget that is a duration. -/
inductive Locks (env : Environment) : Command → String → Option Duration → Prop
  | once {name : String} {seconds : Nat} : Locks env (.hold name seconds) name none
  | within {name : String} {timeout : Option Binary64} {holdMillis : Nat} {options : AcquireOptions} :
      withBudget (.ofEnvironment env) timeout = .ok options →
      Locks env (.acquire name timeout holdMillis) name (some options.timeout)

/-- What the rest of a command comes to that has acquired the mutex. -/
structure Finished (me : Pid) (trace : List Incident) (code : Nat) (m : Machine) : Prop where
  quiet : account trace = .quiet
  code : code = 0
  idle : m.Idle me

/-- What a command comes to that has acquired the mutex and announces it. -/
def Announced (me : Pid) (d : Descriptor) (trace : List Incident) (code : Nat) (m : Machine) :
    Prop :=
  ∃ before met after, trace = before ++ ⟨met, .say (.line "acquired mutex"), ()⟩ :: after ∧
    account before = .quiet ∧ met.HasLock me d ∧ Finished me after code m

theorem among_announce {d : Descriptor} {rest : Unit → Program Nat}
    (hs : Possesses me m (.owner d .stamped))
    (hrest : ∀ m', Possesses me m' (.owner d .stamped) →
      (rest ()).Among me m' (Yields (Finished me))) :
    (announce >>= rest).Among me m (Yields (Announced me d)) := by
  refine Among.aside trivial fun m₁ hm₁ _ => (hrest m₁ (hs.untouched hm₁)).imp fun t z m' hz => ?_
  cases z with
  | halted => exact hz
  | returned code => exact ⟨[], m, t, rfl, rfl, hs.hasLock, hz⟩

theorem among_verbosely {text : String} {d : Descriptor} {rest : Program Nat}
    (hs : Possesses me m (.owner d .stamped))
    (hrest : ∀ m', Possesses me m' (.owner d .stamped) →
      rest.Among me m' (Yields (Announced me d))) :
    (if verbose = true then do complain text; rest else rest).Among me m
      (Yields (Announced me d)) := by
  split
  · refine Among.aside trivial fun m₁ hm₁ _ => (hrest m₁ (hs.untouched hm₁)).imp fun t z m' hz => ?_
    cases z with
    | halted => exact hz
    | returned code =>
      obtain ⟨before, met, after, rfl, hquiet, hlock, hdone⟩ := hz
      refine ⟨Incident.record m (.say (.errorLine text)) () ++ before, met, after,
        (List.append_assoc ..).symm, ?_, hlock, hdone⟩
      rw [account_append, account_record, hquiet]
      rfl
  · exact hrest m hs

theorem among_complain (hm : m.Idle me) (text : String) (code : Nat) :
    (complain text >>= fun _ => pure code : Program Nat).Among me m
      (Yields fun t code' m' => account t = .quiet ∧ code' = code ∧ m'.Idle me) :=
  Among.aside trivial fun _ hm₁ _ => among_pure ⟨rfl, rfl, hm.untouched hm₁⟩

theorem among_holdFor {h : Handle} {d : Descriptor} (hpath : h.path = lockPath env.lockDir name)
    (hs : h.Stands me m) (hd : h.held = some d) (seconds : Nat) :
    (holdFor h seconds verbose).Among me m (Yields (Announced me d)) := by
  unfold holdFor
  dsimp only
  refine among_verbosely (hs.of_held hd) fun m₁ hm₁ => among_announce hm₁ fun m₂ hm₂ => ?_
  refine Among.aside trivial fun m₃ hm₃ _ => ?_
  have hs₃ : h.Stands me m₃ := .of_possesses hd (hm₂.untouched hm₃)
  refine Among.bind (Handle.among_release hpath hs₃) fun t _ m₄ ⟨hquiet, _, hm₄⟩ => ?_
  refine among_pure ⟨?_, rfl, hm₄⟩
  rw [List.append_nil, account_append, account_record, hquiet]
  rfl

theorem ending_of_announced {t trace : List Incident} {d : Descriptor} {times : List Duration}
    {code : Nat} (hname : IsValidName name) (ht : account t = ⟨[], [], [d], times⟩)
    (hin : ¬ Expired budget t) (hacq : Acquired path d t) (h : Announced me d trace code m) :
    Ending path name budget me (t ++ trace) code m := by
  obtain ⟨before, met, after, rfl, hquiet, hlock, hdone⟩ := h
  have hbefore : account (t ++ before) = ⟨[], [], [d], times⟩ := by
    rw [account_append, ht, hquiet, Account.append_quiet]
  obtain rfl := hdone.code
  rw [← List.append_assoc]
  refine .acquired hname hbefore (mt (Expired.congr (by rw [hbefore, ht])).1 hin)
    (hacq.append [] before) hlock hdone.quiet hdone.idle

/-- **A command that makes one attempt.** -/
theorem among_runHold (hm : m.Idle me) (seconds : Nat) :
    (runHold env name seconds verbose).Among me m
      (Yields (Ending (lockPath env.lockDir name) name none me)) := by
  have hnever : ∀ t, ¬ Expired none t := fun t ⟨_, h, _⟩ => by cases h
  unfold runHold
  by_cases hname : IsValidName name
  · rw [if_pos hname]
    refine Among.bind (Handle.among_acquire hname hm) fun t x m₁ hx => ?_
    cases x with
    | error e =>
      obtain ⟨he, ht⟩ := hx.account
      refine (among_complain (hx.failed e rfl) _ _).imp fun t' z m' hz => ?_
      cases z with
      | halted => exact hz
      | returned code =>
        obtain ⟨hquiet, rfl, hm'⟩ := hz
        have hall : account (t ++ t') = ⟨[], [e], [], []⟩ := by
          rw [account_append, ht, hquiet, Account.append_quiet]
        rw [IoError.exitCode_of_fatal he]
        exact .failed hname hall (hnever _) hm'
    | ok h =>
      obtain ⟨hpath, hs, hacq⟩ := hx.handle h rfl
      have ht : account t = ⟨[], [], h.held.toList, []⟩ := hx.account
      cases hheld : h.held with
      | some d =>
        have hyes : h.isAcquired = true := by rw [Handle.isAcquired, hheld, Option.isSome_some]
        rw [hheld] at ht
        simp only [hyes, if_true]
        refine (among_holdFor hpath hs hheld seconds).imp fun t' z m' hz => ?_
        cases z with
        | halted => exact hz
        | returned code => exact ending_of_announced hname ht (hnever _) (hacq d hheld) hz
      | none =>
        have hno : h.isAcquired = false := by rw [Handle.isAcquired, hheld, Option.isSome_none]
        rw [hheld] at ht
        simp only [hno]
        refine Among.bind (Handle.among_release hpath hs) ?_
        rintro t₁ _ m₂ ⟨hquiet, -, hm₂⟩
        refine (among_complain hm₂ _ _).imp fun t' z m' hz => ?_
        cases z with
        | halted => exact hz
        | returned code =>
          obtain ⟨hquiet', rfl, hm'⟩ := hz
          refine .busy hname rfl ?_ hm'
          rw [account_append, account_append, ht, hquiet, hquiet']
          rfl
  · rw [if_neg hname]
    refine (among_complain hm _ _).imp fun t z m' hz => ?_
    cases z with
    | halted => exact hz
    | returned code =>
      obtain ⟨hquiet, rfl, hm'⟩ := hz
      exact .invalid hname hquiet hm'

theorem among_drop {dir : Path} {g : Guard} (hpath : g.handle.path = lockPath dir name)
    (hs : g.handle.Stands me m) :
    g.drop.Among me m (Yields fun t _ m' => account t = .quiet ∧ m'.Idle me) := by
  refine Among.bind (Handle.among_release hpath hs) fun t h m₁ ⟨hquiet, _, hm₁⟩ => ?_
  refine Among.aside (c := .unregister h.path) trivial fun m₂ hm₂ _ => ?_
  refine among_pure ⟨?_, hm₁.untouched hm₂⟩
  rw [List.append_nil, account_append, account_record, hquiet]
  rfl

/-- A command that holds the mutex by a guard. -/
theorem among_holdGuard {g : Guard} {d : Descriptor} {text : String}
    (hpath : g.handle.path = lockPath env.lockDir name) (hs : g.handle.Stands me m)
    (hd : g.handle.held = some d) (time : Duration) :
    (if verbose = true then do complain text; announce; call (.sleep time); g.drop; pure 0
      else do announce; call (.sleep time); g.drop; pure 0 : Program Nat).Among me m
        (Yields (Announced me d)) := by
  refine among_verbosely (hs.of_held hd) fun m₁ hm₁ => among_announce hm₁ fun m₂ hm₂ => ?_
  refine Among.aside trivial fun m₃ hm₃ _ => ?_
  have hs₃ : g.handle.Stands me m₃ := .of_possesses hd (hm₂.untouched hm₃)
  refine Among.bind (among_drop hpath hs₃) fun t _ m₄ ⟨hquiet, hm₄⟩ => ?_
  refine among_pure ⟨?_, rfl, hm₄⟩
  rw [List.append_nil, account_append, account_record, hquiet]
  rfl

/-- **A command that polls within a time budget.** -/
theorem among_acquireAndHold {options : AcquireOptions} (hm : m.Idle me)
    (hdir : options.directory env = env.lockDir)
    (hlook : (m.registry me).contains (lockPath env.lockDir name) = false) (holdMillis : Nat) :
    (acquireAndHold env name options holdMillis verbose).Among me m
      (Yields (Ending (lockPath env.lockDir name) name (some options.timeout) me)) := by
  unfold acquireAndHold
  by_cases hname : IsValidName name
  · refine Among.bind (among_acquireTimed hname hdir hm hlook) fun t x m₁ hx => ?_
    obtain ⟨started, rest, hpolled, ht, hacq⟩ := hx
    cases hpolled with
    | acquired hrest hin hpath hheld hacq' hs =>
      rw [hrest] at ht
      have hin' := mt (expired_iff (by rw [ht]; rfl)).1 fun ⟨time, htime, hlt⟩ => hin time htime hlt
      refine (among_holdGuard hpath hs hheld _).imp fun t' z m' hz => ?_
      cases z with
      | halted => exact hz
      | returned code => exact ending_of_announced hname ht hin' (hacq _ hacq') hz
    | failed hrest hin he hm₁ =>
      rw [hrest] at ht
      have hin' := mt (expired_iff (by rw [ht]; rfl)).1 fun ⟨time, htime, hlt⟩ => hin time htime hlt
      refine (among_complain hm₁ _ _).imp fun t' z m' hz => ?_
      cases z with
      | halted => exact hz
      | returned code =>
        obtain ⟨hquiet, rfl, hm'⟩ := hz
        have hall : account (t ++ t') = account t := by
          rw [account_append, hquiet, Account.append_quiet]
        rw [AcquireError.exitCode, IoError.exitCode_of_fatal he]
        exact .failed hname (hall.trans ht) (mt (Expired.congr (by rw [hall])).1 hin') hm'
    | expired hrest hlate hm₁ =>
      rw [hrest] at ht
      have hlate' := (expired_iff (by rw [ht]; rfl)).2 hlate
      refine (among_complain hm₁ _ _).imp fun t' z m' hz => ?_
      cases z with
      | halted => exact hz
      | returned code =>
        obtain ⟨hquiet, rfl, hm'⟩ := hz
        have hall : account (t ++ t') = account t := by
          rw [account_append, hquiet, Account.append_quiet]
        exact .expired hname (hall.trans ht) ((Expired.congr (by rw [hall])).2 hlate') nofun hm'
  · have hrefused : acquireTimed env name options = pure (.error (.invalidName name)) := by
      unfold acquireTimed
      rw [if_neg hname]
      rfl
    rw [hrefused]
    refine Among.imp (among_complain hm _ _) fun t z m' hz => ?_
    cases z with
    | halted => exact hz
    | returned code =>
      obtain ⟨hquiet, rfl, hm'⟩ := hz
      exact .invalid hname hquiet hm'

theorem lockDir_withBudget {options options' : AcquireOptions} {timeout : Option Binary64}
    (h : withBudget options timeout = .ok options') : options'.lockDir = options.lockDir := by
  unfold withBudget at h
  split at h
  · split at h
    · split at h <;> cases h
      rfl
    · cases h
      rfl
  · cases h
    rfl

/-- **A command that locks a mutex**, once or within a time budget. -/
theorem Locks.among_run {command : Command} {build : Build} (h : command.Locks env name budget)
    (hm : m.Idle me) (hlook : (m.registry me).contains (lockPath env.lockDir name) = false) :
    (command.run build env verbose).Among me m
      (Yields (Ending (lockPath env.lockDir name) name budget me)) := by
  cases h with
  | once => exact among_runHold hm _
  | @within name timeout holdMillis options hbudget =>
    have hdir : options.directory env = env.lockDir := by
      rw [AcquireOptions.directory, lockDir_withBudget hbudget]
      rfl
    simp only [Command.run, runAcquire, hbudget]
    exact among_acquireAndHold hm hdir hlook holdMillis

theorem among_complaints (lines : List String) (hm : m.Idle me) :
    (lines.forM complain).Among me m (Yields fun t _ m' => account t = .quiet ∧ m'.Idle me ∧
      m'.registry me = m.registry me) := by
  induction lines generalizing m with
  | nil => exact among_pure ⟨rfl, hm, rfl⟩
  | cons line lines ih =>
    refine Among.aside trivial fun m₁ hm₁ helse => (ih (hm.untouched hm₁)).imp fun t z m' hz => ?_
    cases z with
    | halted => exact hz
    | returned =>
      obtain ⟨hquiet, hm', hregistry⟩ := hz
      refine ⟨?_, hm', hregistry.trans helse.registry⟩
      rw [account_append, account_record, hquiet]
      rfl

end Command

/-- **What the exit status of the command tells.**  If its arguments ask it to lock a mutex,
    once or within a time budget, and its process has just started, then in every course among
    others the command ends, and its exit status and its output are those of the outcome;
    unless it stops before, because the filter for events cannot be read. -/
theorem Course.exit_outcome {build : Build} {env : Environment} {args : List Bytes} {verbose : Bool}
    {command : Command} {name : String} {budget : Option Duration} {me : Pid} {m m' : Machine}
    {trace : List Incident} {z : Completion CommandEnd}
    (hparse : Request.parse args = .perform verbose command) (hlocks : command.Locks env name budget)
    (hm : m.Idle me) (hregistry : m.registry me = .empty)
    (h : Course me (runCommand build env args) m trace z m') :
    (∃ e, (Telemetry.start env ⟨false, false⟩).2.1 = .halted e ∧ z = .halted e) ∨
      ∃ code, z = .returned (.exited code) ∧
        Command.Outcome (lockPath env.lockDir name) name budget me trace code m' := by
  obtain ⟨state, ending, printed, hstart⟩ : ∃ state ending printed,
      Telemetry.start env ⟨false, false⟩ = (state, ending, printed) := ⟨_, _, _, rfl⟩
  have hcommand : (runCommand build env args).Among me m fun trace z m' =>
      (∃ e, ending = .halted e ∧ z = .halted e) ∨ ∃ code, z = .returned (.exited code) ∧
        Command.Ending (lockPath env.lockDir name) name budget me trace code m' := by
    unfold runCommand
    rw [hstart]
    refine Among.bind (Command.among_complaints printed hm) fun t _ m₁ ⟨hquiet, hm₁, hsame⟩ => ?_
    cases ending with
    | halted e => exact among_halt (Or.inl ⟨e, rfl, rfl⟩)
    | returned _ =>
      have hlook : (m₁.registry me).contains (lockPath env.lockDir name) = false := by
        rw [hsame, hregistry]
        rfl
      simp only [hparse, Request.run]
      refine Among.bind (hlocks.among_run hm₁ hlook) fun t' code m₂ hending => among_pure ?_
      rw [List.append_nil]
      exact Or.inr ⟨code, rfl, hending.after hquiet⟩
  rw [hstart]
  rcases hcommand trace z m' h with hhalted | ⟨code, hz, hending⟩
  · exact Or.inl hhalted
  · exact Or.inr ⟨code, hz, hending.outcome⟩

theorem Machine.idle_of_entries {m : Machine} {me : Pid} (hw : m.WellFormed)
    (h : ∀ e ∈ m.opened.entries, e.2.process ≠ me) : m.Idle me :=
  ⟨hw, fun _ _ hd => h _ ((Table.get?_eq_some_iff hw.openedKeys).1 hd)⟩

/-- The root directory is that for temporary files. -/
def rooted : Environment := [("TMPDIR", [Path.slash])]

/-- A process acquires the mutex `a` once, and ends with zero; another one polls for it while
    a third one holds it, and ends with three. -/
theorem Course.exit_outcome_of_two :
    (∃ trace m, Course 1 (runCommand ⟨"", "", "", "", "", ""⟩ rooted
        (["hold", "a", "--seconds", "0"].map Utf8.encode)) (.bare 1) trace
        (.returned (.exited 0)) m ∧
      Command.Outcome (lockPath Contest.root "a") "a" none 1 trace 0 m) ∧
    ∃ trace m, Course 2 (runCommand ⟨"", "", "", "", "", ""⟩ rooted
        (["acquire", "a", "--timeout", "0"].map Utf8.encode))
        ((Machine.bare 1).run 1 (Handle.acquire Contest.root "a")).2 trace
        (.returned (.exited 3)) m ∧
      Command.Outcome (lockPath Contest.root "a") "a" (some 0) 2 trace 3 m := by
  have hw := Machine.bare_wellFormed 1
  have hdir : rooted.lockDir = Contest.root := by decide +kernel
  constructor
  · have hparse : Request.parse (["hold", "a", "--seconds", "0"].map Utf8.encode) =
        .perform false (.hold "a" 0) := by decide +kernel
    have hend : ((Machine.bare 1).run 1 (runCommand ⟨"", "", "", "", "", ""⟩ rooted
        (["hold", "a", "--seconds", "0"].map Utf8.encode))).1 = .returned (.exited 0) := by
      decide +kernel
    obtain ⟨trace, hcourse⟩ := Course.alone 1 (runCommand ⟨"", "", "", "", "", ""⟩ rooted
      (["hold", "a", "--seconds", "0"].map Utf8.encode)) (.bare 1)
    rw [hend] at hcourse
    rcases Course.exit_outcome hparse .once (Machine.idle_of_entries hw nofun) rfl hcourse with
      ⟨e, -, hz⟩ | ⟨code, hz, houtcome⟩
    · cases hz
    · cases hz
      rw [hdir] at houtcome
      exact ⟨trace, _, hcourse, houtcome⟩
  · have hparse : Request.parse (["acquire", "a", "--timeout", "0"].map Utf8.encode) =
        .perform false (.acquire "a" (Binary64.parse? "0") 0) := by decide +kernel
    obtain ⟨options, hbudget, htimeout⟩ : ∃ options,
        Command.withBudget (.ofEnvironment rooted) (Binary64.parse? "0") = .ok options ∧
          options.timeout = 0 := by
      have hzero : (Command.withBudget (.ofEnvironment rooted) (Binary64.parse? "0")).toOption.map
          (·.timeout) = some 0 := by decide +kernel
      cases hoptions : Command.withBudget (.ofEnvironment rooted) (Binary64.parse? "0") with
      | ok options =>
        rw [hoptions] at hzero
        exact ⟨options, rfl, Option.some.inj hzero⟩
      | error e =>
        rw [hoptions] at hzero
        cases hzero
    have hopened : ∀ e ∈ ((Machine.bare 1).run 1 (Handle.acquire Contest.root "a")).2.opened.entries,
        e.2.process ≠ 2 := by decide +kernel
    have hend : (((Machine.bare 1).run 1 (Handle.acquire Contest.root "a")).2.run 2
        (runCommand ⟨"", "", "", "", "", ""⟩ rooted
          (["acquire", "a", "--timeout", "0"].map Utf8.encode))).1 = .returned (.exited 3) := by
      decide +kernel
    obtain ⟨trace, hcourse⟩ := Course.alone 2 (runCommand ⟨"", "", "", "", "", ""⟩ rooted
      (["acquire", "a", "--timeout", "0"].map Utf8.encode))
      ((Machine.bare 1).run 1 (Handle.acquire Contest.root "a")).2
    rw [hend] at hcourse
    rcases Course.exit_outcome hparse (.within hbudget)
        (Machine.idle_of_entries (Machine.run_wellFormed hw 1 _) hopened) (by decide +kernel)
        hcourse with ⟨e, -, hz⟩ | ⟨code, hz, houtcome⟩
    · cases hz
    · cases hz
      rw [hdir, htimeout] at houtcome
      exact ⟨trace, _, hcourse, houtcome⟩

end NamedMutex
