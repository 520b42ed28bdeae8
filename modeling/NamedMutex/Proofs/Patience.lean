/-
  Timed acquisitions that nobody disturbs.

  Every attempt in vain takes time, so an acquisition that polls a held mutex comes to
  the end of its budget before it has used up the rounds it was allotted.

  * `gives_notReentrant`: an acquisition of what the process holds is refused;
  * `gives_start`: if the first attempt acquires, the acquisition yields a guard and
    registers it, and `gives_drop` takes both back;
  * `ends_start`: if all attempts fail, the acquisition times out.
-/
import NamedMutex.Proofs.LockStates
import NamedMutex.Timed

namespace NamedMutex

namespace Machine

variable {α : Type} {m m' : Machine} {dir : Path} {name : String} {me : Pid}
  {options : AcquireOptions} {env : Environment}
  {Q : Except AcquireError Guard → Machine → Prop}

/-- The machine after a process has registered a path. -/
def registered (m : Machine) (me : Pid) (p : Path) : Machine :=
  m.setRegistry me ((m.registry me).register p)

/-- The machine after a process has taken a registration of a path back. -/
def unregistered (m : Machine) (me : Pid) (p : Path) : Machine :=
  m.setRegistry me ((m.registry me).unregister p)

theorem registry_setRegistry (m : Machine) (me q : Pid) (r : Registry) :
    (m.setRegistry me r).registry q = if q = me then r else m.registry q := by
  simp only [registry, setRegistry, Table.get?_insert]
  split <;> rfl

theorem ends_acquireTimed_of_start (hname : IsValidName name) (hdir : options.directory env = dir)
    (hlook : options.checkReentrant = true → (m.registry me).contains (lockPath dir name) = false)
    (h : m.Ends me (AcquireTimed.start dir name options) Q) :
    m.Ends me (acquireTimed env name options) Q := by
  refine Ends.within ?_ _
  rw [if_pos hname]
  simp only [hdir]
  split
  · rename_i hcheck
    refine Ends.ask (c := .isRegistered (lockPath dir name)) (x := false) rfl ?_ h
    simp only [answer, hlook hcheck]
  · exact h

theorem gives_notReentrant (hname : IsValidName name) (hdir : options.directory env = dir)
    (hcheck : options.checkReentrant = true)
    (hlook : (m.registry me).contains (lockPath dir name) = true) :
    m.Gives me (acquireTimed env name options) (.error (.notReentrant name)) m := by
  refine Ends.within ?_ _
  rw [if_pos hname, if_pos hcheck]
  simp only [hdir]
  refine Ends.ask (c := .isRegistered (lockPath dir name)) (x := true) rfl ?_ (gives_pure _)
  simp only [answer, hlook]

theorem exists_rounds (options : AcquireOptions) : ∃ n, options.patience = n + 1 := by
  unfold AcquireOptions.patience
  split <;> exact ⟨_, rfl⟩

/-- **An acquisition whose first attempt acquires** yields a guard. -/
theorem gives_start {h : Handle} (hacquire : m.Gives me (Handle.acquire dir name) (.ok h) m')
    (hh : h.isAcquired = true) : m.Gives me (AcquireTimed.start dir name options) (.ok ⟨h⟩)
      (m'.registered me h.path) := by
  obtain ⟨n, hn⟩ := exists_rounds options
  refine Ends.now fun started => ?_
  rw [hn]
  refine Gives.bind hacquire ?_
  simp only [hh, if_true]
  exact Ends.ask (c := .register h.path) rfl rfl (Ends.report (gives_pure _))

theorem gives_start_failed {e : IoError} (hacquire : m.Gives me (Handle.acquire dir name) (.error e) m') :
    m.Gives me (AcquireTimed.start dir name options) (.error (.io e)) m' := by
  obtain ⟨n, hn⟩ := exists_rounds options
  refine Ends.now fun started => ?_
  rw [hn]
  exact Gives.bind hacquire (gives_pure _)

/-- **A guard that is dropped** releases the mutex, and is registered no more. -/
theorem gives_drop {g : Guard} (hrelease : m.Gives me g.handle.release g.handle.released m') :
    m.Gives me g.drop () (m'.unregistered me g.handle.path) := by
  have hpath : g.handle.released.path = g.handle.path := by rw [Handle.released_eq]
  refine hrelease.bind ?_
  rw [hpath]
  exact gives_call rfl rfl

/-! ## Budgets -/

/-- The time that is sure to pass from one attempt in vain to the next. -/
def pause (options : AcquireOptions) : Duration := max options.pollInterval 1

/-- The rounds that are allotted outlast the budget. -/
theorem exists_patience (options : AcquireOptions) :
    ∃ n, options.patience = n + 1 ∧ options.timeout < n * pause options := by
  unfold AcquireOptions.patience pause
  split
  · rename_i hpoll
    exact ⟨options.timeout + 1, rfl, by simp [hpoll]⟩
  · rename_i hpoll
    refine ⟨options.timeout / options.pollInterval + 1, rfl, ?_⟩
    rw [Nat.max_eq_left (Nat.pos_of_ne_zero hpoll), Nat.mul_comm]
    exact Nat.lt_mul_div_succ _ (Nat.pos_of_ne_zero hpoll)

/-- Attempts are in vain, and do nothing but open a file now and then. -/
def Busy (m : Machine) (me : Pid) (dir : Path) (name : String) : Prop :=
  ∀ n, ∃ n', (m.skip n).Gives me (Handle.acquire dir name)
    (.ok (.ofAttempt name (lockPath dir name) none)) (m.skip n')

/-- An acquisition that has timed out: it took longer than its budget. -/
def TimedOut (m : Machine) (name : String) (options : AcquireOptions)
    (x : Except AcquireError Guard) (m' : Machine) : Prop :=
  ∃ elapsed n, x = .error (.timeout name elapsed) ∧ options.timeout < elapsed ∧ m' = m.skip n

/-- One round of polling in vain: it is the last one if the budget is used up after the
    attempt. -/
theorem run_round (hbusy : m.Busy me dir name) (started : Duration) (rounds attempts n : Nat)
    (clock : Duration) (said : List (Pid × Output)) : ∃ n' clock' said', clock ≤ clock' ∧
      ((m.skip n).moment clock said).run me
        (AcquireTimed.poll dir name options started (rounds + 1) attempts) =
      if options.timeout < clock' + callTime - started then
        (.returned (.error (.timeout name (clock' + callTime - started))),
          (m.skip n').moment (clock' + callTime + callTime)
            ((me, .event [] (.pollGaveUp attempts)) :: said'))
      else ((m.skip n').moment (clock' + callTime + callTime + options.pollInterval) said').run
        me (AcquireTimed.poll dir name options started rounds (attempts + 1)) := by
  obtain ⟨n', hgives⟩ := hbusy n
  obtain ⟨clock', said', hle, hrun⟩ := hgives.at clock said
  refine ⟨n', clock', said', hle, ?_⟩
  rw [AcquireTimed.poll, run_bind hrun]
  show Machine.run me (if options.timeout < clock' + callTime - started then _ else _) _ = _
  split
  · rfl
  · rfl

/-- What is left of a budget is gone after the last round. -/
theorem spent_after_last {budget start now now' call pause : Nat} (hcall : 0 < call)
    (hstart : start ≤ now) (hleft : budget < now - start + 0 * pause + 1) (hle : now ≤ now') :
    budget < now' + call - start := by
  omega

/-- What is left of a budget after a round passes in the rounds to come. -/
theorem left_after_round {budget start now now' call poll rounds : Nat} (hcall : 0 < call)
    (hstart : start ≤ now) (hleft : budget < now - start + (rounds + 1) * max poll 1 + 1)
    (hle : now ≤ now') :
    start ≤ now' + call + call + poll ∧
      budget < now' + call + call + poll - start + rounds * max poll 1 + 1 := by
  have hpause : max poll 1 ≤ call + poll := Nat.max_le.2 ⟨by omega, by omega⟩
  rw [Nat.succ_mul] at hleft
  omega

/-- **Polling in vain** ends when the budget is used up: whatever is left of it passes
    in the rounds that are left. -/
theorem run_poll_busy (hbusy : m.Busy me dir name) (started : Duration) (rounds : Nat) :
    ∀ attempts n clock said, started ≤ clock →
      options.timeout < clock - started + rounds * pause options + 1 →
      ∃ x m' clock' said', clock ≤ clock' ∧ ((m.skip n).moment clock said).run me
        (AcquireTimed.poll dir name options started (rounds + 1) attempts) =
          (.returned x, m'.moment clock' said') ∧ m.TimedOut name options x m' := by
  have hcall : 0 < callTime := by decide
  induction rounds with
  | zero =>
    intro attempts n clock said hstart hleft
    obtain ⟨n', clock', said', hle, hround⟩ := run_round hbusy started 0 attempts n clock said
    have hspent := spent_after_last hcall hstart hleft hle
    rw [hround, if_pos hspent]
    exact ⟨_, _, _, _, Nat.le_trans hle (Nat.add_assoc .. ▸ Nat.le_add_right ..), rfl, _, _, rfl,
      hspent, rfl⟩
  | succ rounds ih =>
    intro attempts n clock said hstart hleft
    obtain ⟨n', clock', said', hle, hround⟩ :=
      run_round hbusy started (rounds + 1) attempts n clock said
    have hlater : clock ≤ clock' + callTime + callTime :=
      Nat.le_trans hle (Nat.add_assoc .. ▸ Nat.le_add_right ..)
    rw [hround]
    split
    · rename_i hspent
      exact ⟨_, _, _, _, hlater, rfl, _, _, rfl, hspent, rfl⟩
    · obtain ⟨hstart', hleft'⟩ := left_after_round hcall hstart hleft hle
      obtain ⟨x, m', clock'', said'', hle', hrun, hx⟩ := ih (attempts + 1) n' _ said' hstart' hleft'
      exact ⟨x, m', clock'', said'',
        Nat.le_trans (Nat.le_trans hlater (Nat.le_add_right _ _)) hle', hrun, hx⟩

/-- **An acquisition whose attempts are all in vain times out.** -/
theorem ends_start (hbusy : m.Busy me dir name) :
    m.Ends me (AcquireTimed.start dir name options) (m.TimedOut name options) := by
  obtain ⟨rounds, hrounds, hbudget⟩ := exists_patience options
  intro clock said
  have hleft : options.timeout <
      clock + callTime - (clock + callTime) + rounds * pause options + 1 := by
    rw [Nat.sub_self, Nat.zero_add]
    exact Nat.lt_succ_of_lt hbudget
  obtain ⟨x, m', clock', said', hle, hrun, hx⟩ := run_poll_busy hbusy (clock + callTime) rounds 1 0
    (clock + callTime) said (Nat.le_refl _) hleft
  refine ⟨x, m', clock', said', Nat.le_trans (Nat.le_add_right _ _) hle, ?_, hx⟩
  rw [AcquireTimed.start, run_call, hrounds]
  exact hrun

end Machine

end NamedMutex
