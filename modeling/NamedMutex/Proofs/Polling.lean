/-
  Series of attempts among others.

  An acquisition within a time budget polls.  Whatever the others do, the clock goes on from
  one attempt to the next, so the budget is used up before the rounds are.

  * `Program.Among.aside` passes the calls that are about no file;
  * `Polled` is what a series of attempts comes to: the mutex acquired, a fatal failure, or a
    time read that exceeds the budget;
  * `among_poll`, `among_start`: every series comes to that.
-/
import NamedMutex.Proofs.Accounts
import NamedMutex.Proofs.Patience

namespace NamedMutex

open Program

/-! ## Calls that concern no file -/

section Aside
variable {β : Type} {me : Pid} {m m' : Machine} {manner : Manner} {c : Call} {x : c.Answer}
  {next : c.Answer → Program β} {R : List Incident → Completion β → Machine → Prop}

/-- The calls that cannot fail and are about no file. -/
def Call.IsAside : Call → Prop
  | ownPid | probe _ | now | sleep _ | isRegistered _ | register _ | unregister _ | say _ => True
  | _ => False

theorem Replies.of_aside (h : Replies m me manner c x m') (hc : c.IsAside) :
    x = (m.perform me c).1 ∧ m' = (m.perform me c).2 := by
  cases h with
  | answered => exact ⟨rfl, rfl⟩
  | failed he =>
    cases c with
    | ownPid | probe | now | sleep | isRegistered | register | unregister | say => cases he
    | _ => exact hc.elim
  | torn => exact hc.elim

theorem Machine.untouched_aside (m : Machine) (me : Pid) (hc : c.IsAside) :
    Machine.Untouched me m (m.perform me c).2 := by
  have heffect := Machine.effect me c m.tick
  have hkinds : c.opensOrCloses = false ∧ c.locksOrUnlocks = false ∧ c.file? = none := by
    cases c with
    | ownPid | probe | now | sleep | isRegistered | register | unregister | say =>
      exact ⟨rfl, rfl, rfl⟩
    | _ => exact hc.elim
  obtain ⟨hopens, hlocks, hfile⟩ := hkinds
  refine ⟨fun hw => Machine.answer_wellFormed hw.tick me c, fun d f _ => ?_, fun i d f _ _ => ?_,
    Nat.le_trans (Nat.le_add_right _ _) heffect.clock⟩
  · rcases heffect.opened hopens d with hsame | ⟨_, _, hfile', -⟩
    · exact iff_of_eq (congrArg (· = some f) hsame)
    · rw [hfile] at hfile'
      cases hfile'
  · exact iff_of_eq (congrArg (fun locks => locks.get? i = some d) (heffect.locks hlocks))

theorem Program.Among.aside (hc : c.IsAside)
    (h : ∀ m₂, Machine.Untouched me m m₂ → Machine.Elsewhere me (m.perform me c).2 m₂ →
      (next (m.perform me c).1).Among me m₂ fun trace z m' =>
        R (Incident.record m c (m.perform me c).1 ++ trace) z m') :
    (Program.call c >>= next).Among me m R := by
  refine Among.call fun manner x m₁ m₂ hreply helse => ?_
  obtain ⟨rfl, rfl⟩ := hreply.of_aside hc
  exact h m₂ ((Machine.untouched_aside m me hc).trans helse.toUntouched) helse

end Aside

section Stands
variable {h : Handle} {me : Pid} {m m' : Machine} {d : Descriptor}

theorem Handle.Stands.of_held (hs : h.Stands me m) (hd : h.held = some d) :
    Possesses me m (.owner d .stamped) := by
  rwa [Handle.Stands, hd] at hs

theorem Handle.Stands.of_possesses (hd : h.held = some d) (hm : Possesses me m (.owner d .stamped)) :
    h.Stands me m := by
  rwa [Handle.Stands, hd]

theorem Handle.Stands.untouched (hs : h.Stands me m) (hm : Machine.Untouched me m m') :
    h.Stands me m' := by
  unfold Stands at hs ⊢
  split at hs
  · exact Possesses.untouched hs hm
  · exact Machine.Idle.untouched hs hm

end Stands

theorem Acquired.append {path : Path} {d : Descriptor} {t : List Incident} (h : Acquired path d t)
    (before after : List Incident) : Acquired path d (before ++ t ++ after) := by
  unfold Acquired at h ⊢
  rw [calls_append, calls_append]
  exact (h.trans (List.sublist_append_right _ _)).trans (List.sublist_append_left _ _)

/-! ## Series of attempts -/

namespace AcquireTimed

variable {dir : Path} {name : String} {me : Pid} {m : Machine} {options : AcquireOptions}
  {timeout started : Duration} {t trace : List Incident} {x : Except AcquireError Guard}

/-- What a series of attempts that began at some time comes to. -/
inductive Polled (dir : Path) (name : String) (me : Pid) (timeout started : Duration) :
    List Incident → Except AcquireError Guard → Machine → Prop
  | acquired {trace : List Incident} {g : Guard} {d : Descriptor} {times : List Duration}
      {m : Machine} : account trace = ⟨[], [], [d], times⟩ →
      (∀ time ∈ times, ¬ timeout < time - started) → g.handle.path = lockPath dir name →
      g.handle.held = some d → Acquired (lockPath dir name) d trace → g.handle.Stands me m →
      Polled dir name me timeout started trace (.ok g) m
  | failed {trace : List Incident} {e : IoError} {times : List Duration} {m : Machine} :
      account trace = ⟨[], [e], [], times⟩ → (∀ time ∈ times, ¬ timeout < time - started) →
      e.IsFatal → m.Idle me → Polled dir name me timeout started trace (.error (.io e)) m
  | expired {trace : List Incident} {elapsed : Duration} {times : List Duration} {m : Machine} :
      account trace = ⟨[], [], [], times⟩ → (∃ time ∈ times, timeout < time - started) →
      m.Idle me → Polled dir name me timeout started trace (.error (.timeout name elapsed)) m

theorem Polled.after (h : Polled dir name me timeout started trace x m) {times : List Duration}
    (ht : account t = ⟨[], [], [], times⟩) (hin : ∀ time ∈ times, ¬ timeout < time - started) :
    Polled dir name me timeout started (t ++ trace) x m := by
  have happend : ∀ {lines fatal stamped more}, account trace = ⟨lines, fatal, stamped, more⟩ →
      account (t ++ trace) = ⟨lines, fatal, stamped, times ++ more⟩ := by
    intro lines fatal stamped more htrace
    rw [account_append, ht, htrace]
    rfl
  have hall : ∀ {more}, (∀ time ∈ more, ¬ timeout < time - started) →
      ∀ time ∈ times ++ more, ¬ timeout < time - started := by
    intro more hmore time htime
    rcases List.mem_append.1 htime with htime | htime
    · exact hin time htime
    · exact hmore time htime
  cases h with
  | acquired htrace hwithin hpath hheld hacq hs =>
    refine .acquired (happend htrace) (hall hwithin) hpath hheld ?_ hs
    have hmore := hacq.append t []
    rwa [List.append_nil] at hmore
  | failed htrace hwithin he hm => exact .failed (happend htrace) (hall hwithin) he hm
  | expired htrace hlate hm =>
    obtain ⟨time, htime, hlt⟩ := hlate
    exact .expired (happend htrace) ⟨time, List.mem_append_right _ htime, hlt⟩ hm

theorem among_make {h : Handle} (hs : h.Stands me m) (attempts : Nat) :
    (Guard.make h attempts).Among me m (Yields fun trace x m' =>
      account trace = .quiet ∧ x = .ok ⟨h⟩ ∧ h.Stands me m') := by
  refine Among.aside trivial fun m₁ hm₁ _ => ?_
  refine Among.aside trivial fun m₂ hm₂ _ => ?_
  exact among_pure ⟨rfl, rfl, (hs.untouched hm₁).untouched hm₂⟩

theorem among_giveUp (hm : m.Idle me) (name : String) (elapsed : Duration) (attempts : Nat) :
    (giveUp name elapsed attempts).Among me m (Yields fun trace x m' =>
      account trace = .quiet ∧ x = .error (.timeout name elapsed) ∧ m'.Idle me) := by
  refine Among.aside trivial fun m₁ hm₁ _ => ?_
  exact among_pure ⟨rfl, rfl, hm.untouched hm₁⟩

/-- One round of a series: it is the last one, or time goes on until the next. -/
theorem among_round (hname : IsValidName name) (hm : m.Idle me) (rounds attempts : Nat)
    (hrest : ∀ clock m', m.clock ≤ clock → ¬ options.timeout < clock + Machine.callTime - started →
      clock + Machine.callTime + Machine.callTime + options.pollInterval ≤ m'.clock → m'.Idle me →
      (poll dir name options started rounds (attempts + 1)).Among me m'
        (Yields (Polled dir name me options.timeout started))) :
    (poll dir name options started (rounds + 1) attempts).Among me m
      (Yields (Polled dir name me options.timeout started)) := by
  rw [poll]
  refine Among.bind (Handle.among_acquire hname hm) fun t x m₁ hx => ?_
  cases x with
  | error e =>
    obtain ⟨he, ht⟩ := hx.account
    refine among_pure ?_
    rw [List.append_nil]
    exact .failed ht (List.forall_mem_nil _) he (hx.failed e rfl)
  | ok h =>
    obtain ⟨hpath, hs, hacq⟩ := hx.handle h rfl
    have ht : account t = ⟨[], [], h.held.toList, []⟩ := hx.account
    cases hheld : h.held with
    | some d =>
      have hyes : h.isAcquired = true := by rw [Handle.isAcquired, hheld, Option.isSome_some]
      simp only [hyes, if_true]
      refine (among_make hs attempts).imp fun t' z m' hz => ?_
      cases z with
      | halted => exact hz
      | returned x =>
        obtain ⟨hquiet, rfl, hs'⟩ := hz
        refine .acquired (d := d) ?_ (List.forall_mem_nil _) hpath hheld ?_ hs'
        · rw [account_append, ht, hquiet, hheld]
          rfl
        · exact (hacq d hheld).append [] t'
    | none =>
      have hno : h.isAcquired = false := by rw [Handle.isAcquired, hheld, Option.isSome_none]
      rw [hheld] at ht
      simp only [hno]
      refine Among.bind (Handle.among_release hpath hs) ?_
      rintro t₁ _ m₂ ⟨hquiet, hclock, hm₂⟩
      refine Among.aside trivial fun m₃ hm₃ helse₃ => ?_
      have hle : m.clock ≤ m₂.clock := Nat.le_trans hx.clock hclock
      have htold : ∀ {t' times}, account t' = ⟨[], [], [], times⟩ →
          account (t ++ (t₁ ++ (Incident.record m₂ .now (m₂.clock + Machine.callTime) ++ t'))) =
            ⟨[], [], [], (m₂.clock + Machine.callTime) :: times⟩ := by
        intro t' times ht'
        simp only [account_append, account_record, ht, hquiet, ht']
        rfl
      show (if options.timeout < m₂.clock + Machine.callTime - started then _ else _ :
        Program _).Among me m₃ _
      split
      · rename_i hlate
        refine (among_giveUp (hm₂.untouched hm₃) name _ attempts).imp fun t' z m' hz => ?_
        cases z with
        | halted => exact hz
        | returned x =>
          obtain ⟨hquiet', rfl, hm'⟩ := hz
          exact .expired (htold hquiet') ⟨_, List.mem_cons_self .., hlate⟩ hm'
      · rename_i hin
        refine Among.aside trivial fun m₄ hm₄ helse₄ => ?_
        have hread : m₂.clock + Machine.callTime ≤ m₃.clock := helse₃.clock
        have hslept : m₃.clock + Machine.callTime + options.pollInterval ≤ m₄.clock := helse₄.clock
        have hlater : m₂.clock + Machine.callTime + Machine.callTime + options.pollInterval ≤
            m₄.clock :=
          Nat.le_trans (Nat.add_le_add_right (Nat.add_le_add_right hread _) _) hslept
        have hquiet' : account (Incident.record m₃ (.sleep options.pollInterval) ()) =
            ⟨[], [], [], []⟩ := account_record ..
        refine (hrest m₂.clock m₄ hle hin hlater ((hm₂.untouched hm₃).untouched hm₄)).imp
          fun t' z m' hz => ?_
        cases z with
        | halted => exact hz
        | returned x =>
          have hafter := Polled.after hz (htold hquiet') (by simpa using hin)
          simp only [List.append_assoc] at hafter
          exact hafter

/-- **A series of attempts ends before its rounds are used up**: in each of them time goes on,
    and what is left of the budget passes in the rounds that are left. -/
theorem among_poll (hname : IsValidName name) (rounds : Nat) : ∀ attempts m, m.Idle me →
    started ≤ m.clock →
    options.timeout < m.clock - started + rounds * Machine.pause options + 1 →
    (poll dir name options started (rounds + 1) attempts).Among me m
      (Yields (Polled dir name me options.timeout started)) := by
  have hcall : 0 < Machine.callTime := by decide
  induction rounds with
  | zero =>
    intro attempts m hm hstart hleft
    refine among_round hname hm 0 attempts fun clock m' hle hin _ _ => ?_
    exact absurd (Machine.spent_after_last hcall hstart hleft hle) hin
  | succ rounds ih =>
    intro attempts m hm hstart hleft
    refine among_round hname hm (rounds + 1) attempts fun clock m' hle _ hlater hm' => ?_
    obtain ⟨hstart', hleft'⟩ := Machine.left_after_round hcall hstart hleft hle
    refine ih (attempts + 1) m' hm' (Nat.le_trans hstart' hlater) (Nat.lt_of_lt_of_le hleft' ?_)
    exact Nat.add_le_add_right (Nat.add_le_add_right (Nat.sub_le_sub_right hlater _) _) _

/-- What a whole acquisition within a time budget comes to: it looks at the clock, and makes
    a series of attempts. -/
def Started (dir : Path) (name : String) (me : Pid) (timeout : Duration) (trace : List Incident)
    (x : Except AcquireError Guard) (m : Machine) : Prop :=
  ∃ started rest, Polled dir name me timeout started rest x m ∧
    account trace = ⟨[], [], [], [started]⟩ ++ account rest ∧
    ∀ d, Acquired (lockPath dir name) d rest → Acquired (lockPath dir name) d trace

theorem among_start (hname : IsValidName name) (hm : m.Idle me) :
    (start dir name options).Among me m (Yields (Started dir name me options.timeout)) := by
  obtain ⟨rounds, hrounds, hbudget⟩ := Machine.exists_patience options
  refine Among.aside trivial fun m₁ hm₁ helse => ?_
  have hread : m.clock + Machine.callTime ≤ m₁.clock := helse.clock
  rw [hrounds]
  have hleft : options.timeout < m₁.clock - (m.clock + Machine.callTime) +
      rounds * Machine.pause options + 1 :=
    Nat.lt_succ_of_lt (Nat.lt_of_lt_of_le hbudget (Nat.le_add_left _ _))
  refine (among_poll hname rounds 1 m₁ (hm.untouched hm₁) hread hleft).imp fun t z m' hz => ?_
  cases z with
  | halted => exact hz
  | returned x =>
    refine ⟨_, t, hz, ?_, fun d hd => ?_⟩
    · rw [account_append, account_record]
      rfl
    · have hmore := hd.append (Incident.record m .now (m.clock + Machine.callTime)) []
      rwa [List.append_nil] at hmore

end AcquireTimed

/-- **What an acquisition within a time budget comes to among others**, unless the process has
    registered the lock path. -/
theorem among_acquireTimed {dir : Path} {name : String} {me : Pid} {m : Machine}
    {env : Environment} {options : AcquireOptions} (hname : IsValidName name)
    (hdir : options.directory env = dir) (hm : m.Idle me)
    (hlook : (m.registry me).contains (lockPath dir name) = false) :
    (acquireTimed env name options).Among me m
      (Yields (AcquireTimed.Started dir name me options.timeout)) := by
  refine Among.within ?_ _
  rw [if_pos hname]
  simp only [hdir]
  split
  · refine Among.aside trivial fun m₁ hm₁ _ => ?_
    have hanswer : (m.perform me (.isRegistered (lockPath dir name))).1 = false := hlook
    rw [hanswer]
    refine (AcquireTimed.among_start hname (hm.untouched hm₁)).imp fun t z m' hz => ?_
    cases z with
    | halted => exact hz
    | returned x =>
      obtain ⟨started, rest, hpolled, ht, hacq⟩ := hz
      refine ⟨started, rest, hpolled, ?_, fun d hd => ?_⟩
      · rw [account_append, account_record, ht]
        rfl
      · have hmore := (hacq d hd).append
          (Incident.record m (.isRegistered (lockPath dir name)) false) []
        rwa [List.append_nil] at hmore
  · exact AcquireTimed.among_start hname hm

end NamedMutex
