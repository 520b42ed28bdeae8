/-
  How long a series of attempts lasts.

  If the clock never goes back, and no pause is shorter than it was meant to be, then each
  round of a series takes a pause from its budget.  A round may begin when the budget is just
  used up, so there is one more than there are pauses in the budget, and the attempt that
  ends the series.

  * `length_le_of_timely` bounds the rounds that go on;
  * `Bounded` is what an acquisition with a time budget may cost, `acquireTimedFor_bounded`
    that it costs no more, and ends;
  * `exists_polled_longest`: while the mutex stays busy, it may cost as much;
  * `polling_ends`: so does every acquisition as the environment configures it.
-/
import Mathlib.Algebra.Ring.Nat
import NamedMutex.Proofs.Series

namespace NamedMutex

namespace AcquireTimed

section Timely
variable {dir : Path} {name : String} {me : Pid} {timeout started pause time : Duration}
  {past : List Round} {rest : List Exchange}

theorem Round.GoesOn.timely (hname : IsValidName name) {r : Round}
    (hr : Round.GoesOn dir name me timeout started r)
    (h : Timely time (r.exchanges pause ++ rest)) :
    time ≤ r.time ∧ Timely (r.time + pause) rest := by
  obtain ⟨_, hattempt, -⟩ := hr.vain
  obtain ⟨-, haside, -⟩ := Handle.dialogue_acquire hname hattempt
  rw [Round.exchanges, List.append_assoc] at h
  exact (timely_append haside time).1 h

/-- What goes by until the next round, and after it, goes by from this round on. -/
theorem spent_round {budget start now reading pause later : Nat} (hstart : start ≤ now)
    (hread : now ≤ reading) (h : reading + pause - start + later ≤ budget + pause) :
    now - start + (later + pause) ≤ budget + pause := by
  omega

/-- What goes by in rounds that go on is the budget at most, and the pause after the last of
    them: the time since the start grows by a pause from one to the next. -/
theorem spent_le (hname : IsValidName name) :
    ∀ {time}, (∀ r ∈ past, Round.GoesOn dir name me timeout started r) → started ≤ time →
      Timely time (past.flatMap (Round.exchanges pause) ++ rest) → past ≠ [] →
      time - started + past.length * pause ≤ timeout + pause := by
  induction past with
  | nil => exact fun _ _ _ hne => absurd rfl hne
  | cons r past ih =>
    intro time hpast hstart htime _
    obtain ⟨hr, hpast⟩ := List.forall_mem_cons.1 hpast
    rw [List.flatMap_cons, List.append_assoc] at htime
    obtain ⟨hread, hlater⟩ := hr.timely hname htime
    have hin : r.time - started ≤ timeout := hr.inTime
    cases past with
    | nil =>
      rw [List.length_singleton, Nat.one_mul]
      exact Nat.add_le_add_right (Nat.le_trans (Nat.sub_le_sub_right hread _) hin) _
    | cons r' past =>
      have hspent := ih hpast (Nat.le_trans (Nat.le_trans hstart hread) (Nat.le_add_right _ _))
        hlater (List.cons_ne_nil _ _)
      rw [List.length_cons, Nat.succ_mul]
      exact spent_round hstart hread hspent

/-- **The rounds that go on are bounded by the pauses that fit into the budget.** -/
theorem length_le_of_timely (hname : IsValidName name) (hpause : 0 < pause)
    (hpast : ∀ r ∈ past, Round.GoesOn dir name me timeout started r)
    (htime : Timely started (past.flatMap (Round.exchanges pause) ++ rest)) :
    past.length ≤ timeout / pause + 1 := by
  rw [← Nat.add_div_right _ hpause, Nat.le_div_iff_mul_le hpause]
  by_cases hne : past = []
  · rw [hne, List.length_nil, Nat.zero_mul]
    exact Nat.zero_le _
  · have hspent := spent_le hname hpast (Nat.le_refl _) htime hne
    rwa [Nat.sub_self, Nat.zero_add] at hspent

end Timely

/-- What an acquisition with a time budget may cost; the number of attempts that it reports is
    the number of those that it made. -/
structure Bounded (options : AcquireOptions) (told : List Exchange)
    (z : Completion (Except AcquireError Guard)) : Prop where
  attempts : attemptsIn told ≤ options.timeout / options.pollInterval + 2
  pauses : (pausesIn told).length ≤ options.timeout / options.pollInterval + 1
  paused : (pausesIn told).sum ≤ options.timeout + options.pollInterval
  counter : options.timeout / options.pollInterval + 2 < 2 ^ 32 →
    attemptsIn told < 2 ^ 32
  succeeded : ∀ g, z = .returned (.ok g) →
    told.getLast? = some ⟨.say (.event [] (.pollSucceeded (attemptsIn told))), ()⟩
  gaveUp : ∀ name elapsed, z = .returned (.error (.timeout name elapsed)) →
    told.getLast? = some ⟨.say (.event [] (.pollGaveUp (attemptsIn told))), ()⟩

section Bounded
variable {dir : Path} {name : String} {me : Pid} {options : AcquireOptions}
  {timeout started : Duration} {n rounds : Nat} {told last : List Exchange} {past : List Round}
  {x : Except AcquireError Guard} {z : Completion (Except AcquireError Guard)}

/-- The last attempt reports its number. -/
theorem Final.reports (h : Final dir name me timeout started n told x) :
    (∀ g, x = .ok g → told.getLast? = some ⟨.say (.event [] (.pollSucceeded n)), ()⟩) ∧
      ∀ name' elapsed, x = .error (.timeout name' elapsed) →
        told.getLast? = some ⟨.say (.event [] (.pollGaveUp n)), ()⟩ := by
  cases h with
  | acquired =>
    refine ⟨fun _ _ => ?_, fun _ _ hx => by cases hx⟩
    rw [List.getLast?_append]
    rfl
  | failed => exact ⟨fun _ hx => (by cases hx), fun _ _ hx => by cases hx⟩
  | expired =>
    refine ⟨fun _ hx => (by cases hx), fun _ _ _ => ?_⟩
    rw [List.getLast?_append]
    rfl

/-- **A series costs no more than its budget allows**, and ends if so many rounds are
    allotted. -/
theorem Series.bounded (hname : IsValidName name) (hpause : 0 < options.pollInterval)
    (h : Series dir name me options.timeout started options.pollInterval rounds past last told z)
    (htime : Timely started (past.flatMap (Round.exchanges options.pollInterval) ++ last)) :
    Bounded options told z ∧
      (options.timeout / options.pollInterval + 2 ≤ rounds → ∃ x, z = .returned x) := by
  have hpast : past.length ≤ options.timeout / options.pollInterval + 1 :=
    length_le_of_timely hname hpause h.goesOn htime
  have hpauses : pausesIn told = List.replicate past.length options.pollInterval :=
    h.pauses_eq hname
  have hpaused : (pausesIn told).sum ≤ options.timeout + options.pollInterval := by
    rw [hpauses, List.sum_replicate_nat]
    calc past.length * options.pollInterval
        ≤ (options.timeout / options.pollInterval + 1) * options.pollInterval :=
          Nat.mul_le_mul_right _ hpast
      _ ≤ options.timeout + options.pollInterval := by
          rw [Nat.succ_mul]
          exact Nat.add_le_add_right (Nat.div_mul_le_self _ _) _
  have hlength : (pausesIn told).length ≤ options.timeout / options.pollInterval + 1 := by
    rwa [hpauses, List.length_replicate]
  have hattempts := h.attempts_eq hname
  cases h.ends with
  | @final last x hlt hfinal =>
    rw [(hfinal.record hname).1] at hattempts
    have hlast : ∀ {y}, last.getLast? = some y → told.getLast? = some y := by
      intro y hy
      rw [h.told_eq, ← List.cons_append, List.getLast?_append, hy]
      rfl
    have hfew : attemptsIn told ≤ options.timeout / options.pollInterval + 2 := by
      rw [hattempts]
      exact Nat.succ_le_succ hpast
    refine ⟨⟨hfew, hlength, hpaused, Nat.lt_of_le_of_lt hfew, ?_, ?_⟩, fun _ => ⟨x, rfl⟩⟩
    · intro g hg
      cases hg
      rw [hattempts]
      exact hlast (hfinal.reports.1 g rfl)
    · intro name' elapsed hx
      cases hx
      rw [hattempts]
      exact hlast (hfinal.reports.2 _ _ rfl)
  | unfinished hrounds =>
    rw [attemptsIn_nil, Nat.add_zero] at hattempts
    have hfew : attemptsIn told ≤ options.timeout / options.pollInterval + 2 := by
      rw [hattempts]
      exact Nat.le_succ_of_le hpast
    refine ⟨⟨hfew, hlength, hpaused, Nat.lt_of_le_of_lt hfew, ?_, ?_⟩, fun hlarge => ?_⟩
    · intro g hg
      cases hg
    · intro name' elapsed hx
      cases hx
    · exact absurd (Nat.le_trans hlarge (hrounds ▸ hpast)) (Nat.not_succ_le_self _)

end Bounded

section Waits
variable {dir : Path} {name : String} {me : Pid} {timeout pause time : Duration} {n : Nat}
  {vain rest : List Exchange}

/-- Rounds of the same attempt, on a clock on which pauses take time, and nothing else does. -/
def waits (vain : List Exchange) (pause time : Duration) : Nat → List Round
  | 0 => []
  | n + 1 => ⟨vain, time⟩ :: waits vain pause (time + pause) n

theorem length_waits : (waits vain pause time n).length = n := by
  induction n generalizing time with
  | zero => rfl
  | succ n ih => rw [waits, List.length_cons, ih]

/-- Such rounds go on as long as the pauses before the last one fit into the budget. -/
theorem goesOn_waits {h : Handle}
    (hvain : Dialogue me (Handle.acquire dir name) vain (.returned (.ok h)))
    (hh : h.isAcquired = false) (hfits : time + n * pause ≤ timeout + pause) :
    ∀ r ∈ waits vain pause time n, Round.GoesOn dir name me timeout 0 r := by
  induction n generalizing time with
  | zero => exact List.forall_mem_nil _
  | succ n ih =>
    rw [Nat.succ_mul, ← Nat.add_assoc] at hfits
    have hnow : time ≤ timeout :=
      Nat.le_trans (Nat.le_add_right _ _) (Nat.le_of_add_le_add_right hfits)
    refine List.forall_mem_cons.2 ⟨⟨⟨h, hvain, hh⟩, hnow⟩, ih ?_⟩
    rwa [Nat.add_right_comm]

theorem timely_waits (hvain : ∀ x ∈ vain, x.1.timesOrRegisters = false) :
    Timely time ((waits vain pause time n).flatMap (Round.exchanges pause) ++ rest) ↔
      Timely (time + n * pause) rest := by
  induction n generalizing time with
  | zero => rw [Nat.zero_mul]; exact Iff.rfl
  | succ n ih =>
    rw [waits, List.flatMap_cons, Round.exchanges, List.append_assoc, List.append_assoc,
      timely_append hvain, Nat.succ_mul, ← Nat.add_assoc, Nat.add_right_comm, ← ih]
    exact ⟨And.right, And.intro (Nat.le_refl _)⟩

/-- A series that nothing ends but the budget. -/
theorem exists_series_waits (hname : IsValidName name) (hpause : 0 < pause) {h : Handle}
    (hvain : Dialogue me (Handle.acquire dir name) vain (.returned (.ok h)))
    (hh : h.isAcquired = false) {rounds : Nat} (hrounds : timeout / pause + 2 ≤ rounds) :
    ∃ last told elapsed, Series dir name me timeout 0 pause rounds
        (waits vain pause 0 (timeout / pause + 1)) last told
        (.returned (.error (.timeout name elapsed))) ∧
      attemptsIn last = 1 ∧ Timely 0 told := by
  obtain ⟨hone, haside, -⟩ := Handle.dialogue_acquire hname hvain
  have hfits : 0 + (timeout / pause + 1) * pause ≤ timeout + pause := by
    rw [Nat.zero_add, Nat.succ_mul]
    exact Nat.add_le_add_right (Nat.div_mul_le_self _ _) _
  -- What the clock tells after the last pause is the first time beyond the budget.
  have hlate : timeout < (timeout / pause + 1) * pause - 0 :=
    Nat.lt_mul_of_div_lt (Nat.lt_succ_self _) hpause
  have hallotted : (waits vain pause 0 (timeout / pause + 1)).length < rounds := by
    rwa [length_waits]
  refine ⟨_, _, _, ⟨goesOn_waits hvain hh hfits,
    .final hallotted (.expired hvain hh hlate), rfl⟩, ?_, Nat.le_refl _, ?_⟩
  · rw [attemptsIn_append, hone]
    rfl
  · rw [timely_waits haside, timely_append haside, Nat.zero_add]
    exact ⟨Nat.le_refl _, trivial⟩

end Waits

end AcquireTimed

section Acquisition
variable {name : String} {me : Pid} {env : Environment} {options : AcquireOptions} {rounds : Nat}
  {told : List Exchange} {z : Completion (Except AcquireError Guard)} {time : Duration}

theorem AcquireTimed.Bounded.of_refused {e : AcquireError} (hattempts : attemptsIn told = 0)
    (hpauses : pausesIn told = []) (hz : z = .returned (.error e))
    (he : ∀ name elapsed, e ≠ .timeout name elapsed) : AcquireTimed.Bounded options told z where
  attempts := hattempts ▸ Nat.zero_le _
  pauses := by simp [hpauses]
  paused := by simp [hpauses]
  counter _ := by simp [hattempts]
  succeeded g hg := by
    rw [hz] at hg
    cases hg
  gaveUp name elapsed hx := by
    rw [hz] at hx
    cases hx
    exact absurd rfl (he _ _)

theorem record_cleared : attemptsIn (options.cleared env name) = 0 ∧
    pausesIn (options.cleared env name) = [] := by
  unfold AcquireOptions.cleared
  split <;> exact ⟨rfl, rfl⟩

theorem AcquireTimed.Bounded.cleared (h : AcquireTimed.Bounded options told z) (env : Environment)
    (name : String) : AcquireTimed.Bounded options (options.cleared env name ++ told) z := by
  have hattempts : attemptsIn (options.cleared env name ++ told) = attemptsIn told := by
    rw [attemptsIn_append, record_cleared.1, Nat.zero_add]
  have hpauses : pausesIn (options.cleared env name ++ told) = pausesIn told := by
    rw [pausesIn_append, record_cleared.2, List.nil_append]
  have hlast : ∀ {y}, told.getLast? = some y →
      (options.cleared env name ++ told).getLast? = some y := by
    intro y hy
    rw [List.getLast?_append, hy]
    rfl
  constructor
  · exact hattempts ▸ h.attempts
  · exact hpauses ▸ h.pauses
  · exact hpauses ▸ h.paused
  · exact hattempts ▸ h.counter
  · exact fun g hg => hattempts ▸ hlast (h.succeeded g hg)
  · exact fun name' elapsed hx => hattempts ▸ hlast (h.gaveUp name' elapsed hx)

theorem timely_cleared : Timely time (options.cleared env name ++ told) ↔ Timely time told := by
  unfold AcquireOptions.cleared
  split <;> exact Iff.rfl

/-- **An acquisition with a time budget costs no more than the budget allows**, and ends if so
    many rounds are allotted, whatever its attempts come to. -/
theorem acquireTimedFor_bounded (hpause : 0 < options.pollInterval)
    (h : Dialogue me (acquireTimedFor rounds env name options) told z) (htime : Timely time told) :
    AcquireTimed.Bounded options told z ∧
      (options.timeout / options.pollInterval + 2 ≤ rounds → ∃ x, z = .returned x) := by
  rcases dialogue_acquireTimedFor_cases h with ⟨rfl, rfl⟩ | ⟨rfl, rfl⟩ | ⟨hname, rest, rfl, hstart⟩
  · exact ⟨.of_refused rfl rfl rfl nofun, fun _ => ⟨_, rfl⟩⟩
  · exact ⟨.of_refused rfl rfl rfl nofun, fun _ => ⟨_, rfl⟩⟩
  · obtain ⟨started, past, last, hseries⟩ := (AcquireTimed.dialogue_startFor hname).1 hstart
    have hlater := timely_cleared.1 htime
    rw [hseries.told_eq] at hlater
    obtain ⟨hbounded, hends⟩ := hseries.bounded hname hpause hlater.2
    exact ⟨hbounded.cleared env name, hends⟩

/-- **The bound is attained**: the mutex stays busy, and the clock tells the pauses and nothing
    else. -/
theorem exists_polled_longest (me : Pid) (rounds : Nat) (env : Environment)
    (options : AcquireOptions) (hname : IsValidName name) (hpause : 0 < options.pollInterval)
    (hrounds : options.timeout / options.pollInterval + 2 ≤ rounds) :
    ∃ told elapsed, Dialogue me (acquireTimedFor rounds env name options) told
        (.returned (.error (.timeout name elapsed))) ∧ Timely 0 told ∧
      attemptsIn told = options.timeout / options.pollInterval + 2 ∧
      pausesIn told =
        List.replicate (options.timeout / options.pollInterval + 1) options.pollInterval := by
  obtain ⟨q, hq⟩ := exists_parent_lockPath (options.directory env) hname
  have hvain : Dialogue me (Handle.acquire (options.directory env) name) _ _ :=
    Handle.dialogue_busy (e := .os .wouldBlock) hname hq rfl 0 (.os .noEntry)
  obtain ⟨last, told, elapsed, hseries, hlast, htime⟩ :=
    AcquireTimed.exists_series_waits hname hpause hvain rfl hrounds
  have hattempts := hseries.attempts_eq hname
  have hpauses := hseries.pauses_eq hname
  rw [AcquireTimed.length_waits] at hattempts hpauses
  refine ⟨options.cleared env name ++ told, elapsed,
    ((acquireTimedFor_series hname).1 _ _).2 ⟨_, _, _, hseries⟩, timely_cleared.2 htime, ?_, ?_⟩
  · rw [attemptsIn_append, record_cleared.1, hattempts, hlast, Nat.zero_add]
  · rw [pausesIn_append, record_cleared.2, hpauses, List.nil_append]

/-- **Polling ends.**  If the clock never goes back, and pauses last as long as they are meant
    to, an acquisition makes no more attempts than there are pauses in its budget and two, and
    returns after them, however many rounds it is allotted beyond that.  As the environment
    configures no acquisition without a pause, this holds of all that follow it. -/
theorem polling_ends :
    (∀ me rounds env name options time told z, 0 < options.pollInterval →
      Dialogue me (acquireTimedFor rounds env name options) told z → Timely time told →
      AcquireTimed.Bounded options told z ∧
        (options.timeout / options.pollInterval + 2 ≤ rounds → ∃ x, z = .returned x)) ∧
    (∀ env, 0 < (AcquireOptions.ofEnvironment env).pollInterval) ∧
    ∀ me env name time told z, Dialogue me (acquireTimed env name (.ofEnvironment env)) told z →
      Timely time told →
      AcquireTimed.Bounded (.ofEnvironment env) told z ∧ ∃ x, z = .returned x := by
  refine ⟨fun me rounds env name options time told z hpause h htime => ?_, fun env => ?_, ?_⟩
  · exact acquireTimedFor_bounded hpause h htime
  · exact env.pollInterval_pos
  · intro me env name time told z h htime
    have hpause : 0 < (AcquireOptions.ofEnvironment env).pollInterval := env.pollInterval_pos
    rw [← acquireTimedFor_patience] at h
    obtain ⟨hbounded, hends⟩ := acquireTimedFor_bounded hpause h htime
    exact ⟨hbounded, hends (Nat.le_of_eq (if_neg (Nat.ne_of_gt hpause)).symm)⟩

/-- A mutex that stays busy is given up after four attempts if the budget is seven and a pause
    takes three, and after 135 with nothing configured.  On a machine on which another process
    holds it for good, the acquisition ends as well. -/
theorem polling_ends_when_busy :
    (∃ told elapsed, Dialogue 1 (acquireTimedFor 9 [] "a" ⟨7, 3, true, some Contest.root⟩) told
        (.returned (.error (.timeout "a" elapsed))) ∧ Timely 0 told ∧ attemptsIn told = 4 ∧
      pausesIn told = [3, 3, 3] ∧ (pausesIn told).sum ≤ 10 ∧
      told.getLast? = some ⟨.say (.event [] (.pollGaveUp 4)), ()⟩) ∧
    (∃ told elapsed, Dialogue 1 (acquireTimed [] "a" (.ofEnvironment [])) told
        (.returned (.error (.timeout "a" elapsed))) ∧ Timely 0 told ∧ attemptsIn told = 135 ∧
      told.getLast? = some ⟨.say (.event [] (.pollGaveUp 135)), ()⟩) ∧
    let m := ((Machine.bare 1).run 2 (Handle.acquireConfigured [] "a")).2
    ∃ trace told x m', Course 1 (acquireTimed [] "a" (.ofEnvironment [])) m trace (.returned x) m' ∧
      Dialogue 1 (acquireTimed [] "a" (.ofEnvironment [])) told (.returned x) ∧
      attemptsIn told ≤ 135 := by
  have hvalid : IsValidName "a" := by decide
  refine ⟨?_, ?_, ?_⟩
  · obtain ⟨told, elapsed, htold, htime, hattempts, hpauses⟩ :=
      exists_polled_longest 1 9 [] ⟨7, 3, true, some Contest.root⟩ hvalid (by decide) (by decide)
    obtain ⟨hbounded, -⟩ := polling_ends.1 1 9 [] "a" _ _ told _ (by decide) htold htime
    have hlast := hbounded.gaveUp "a" elapsed rfl
    rw [hattempts] at hlast
    exact ⟨told, elapsed, htold, htime, hattempts, hpauses, hbounded.paused, hlast⟩
  · obtain ⟨told, elapsed, htold, htime, hattempts, -⟩ :=
      exists_polled_longest 1 _ [] (.ofEnvironment []) hvalid (by decide) (Nat.le_refl _)
    obtain ⟨hbounded, -⟩ := polling_ends.2.2 1 [] "a" _ told _ htold htime
    have hcount : attemptsIn told = 135 := hattempts
    have hlast := hbounded.gaveUp "a" elapsed rfl
    rw [hcount] at hlast
    exact ⟨told, elapsed, htold, htime, hcount, hlast⟩
  · intro m
    obtain ⟨trace, hcourse⟩ := Course.alone 1 (acquireTimed [] "a" (.ofEnvironment [])) m
    obtain ⟨told, htold, htime⟩ := hcourse.dialogue
    obtain ⟨hbounded, x, hx⟩ := polling_ends.2.2 1 [] "a" _ told _ htold htime
    rw [hx] at hcourse htold
    exact ⟨trace, told, x, _, hcourse, htold, hbounded.attempts⟩

end Acquisition

end NamedMutex
