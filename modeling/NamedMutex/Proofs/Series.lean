/-
  Series of attempts, whatever they come to and whatever the clock tells.

  A series goes on while its attempts acquire nothing and no more time has gone by than the
  budget has.  What it was told falls apart accordingly: rounds in vain, each with a look at
  the clock and a pause, and a last attempt, after which there is no pause.

  * `acquireTimedFor` is `acquireTimed` with any number of rounds allotted;
  * `dialogue_round`: what one round is told and comes to; `dialogue_poll`: what all rounds
    are, by induction on those that are allotted;
  * `acquireTimedFor_series`: the same for a whole acquisition that passed its checks.
-/
import NamedMutex.Proofs.Dialogues

namespace NamedMutex

open Program

/-! ## One attempt -/

section Attempt
variable {dir : Path} {name : String} {me : Pid} {told : List Exchange}
  {z : Completion (Except IoError Handle)} {h : Handle}

theorem Attempt.Ends.isInside {a : Attempt} {r : Role} (h : Attempt.Ends a r) :
    r.isInside = true := by
  cases a with
  | error e =>
    obtain rfl : r = _ := h
    rfl
  | ok held =>
    cases held with
    | none =>
      obtain ⟨e, rfl⟩ := h
      rfl
    | some d =>
      obtain rfl : r = _ := h
      rfl

/-- **An attempt to acquire a valid name ends**, whatever it is told; it makes the lock
    directory once, and leaves clock and registry alone. -/
theorem Handle.dialogue_acquire (hname : IsValidName name)
    (h : Dialogue me (Handle.acquire dir name) told z) :
    attemptsIn told = 1 ∧ (∀ x ∈ told, x.1.timesOrRegisters = false) ∧ ∃ x, z = .returned x ∧
      ∀ handle, x = .ok handle → handle.path = lockPath dir name := by
  obtain ⟨r, hproceeds, hr⟩ := h.proceeds (Handle.acquire_obeys dir name me)
  have houtside : Role.start (lockPath dir name) = .outside := by
    obtain ⟨q, hq⟩ := exists_parent_lockPath dir hname
    refine if_neg fun hnone => ?_
    rw [hq] at hnone
    cases hnone
  have hmade := hproceeds.attempts
  rw [houtside] at hmade
  have hone : r.isInside = true → attemptsIn told = 1 := by
    intro hinside
    rw [hinside] at hmade
    exact (Nat.zero_add _).symm.trans hmade
  cases z with
  | halted => exact absurd hname hr.1
  | returned x =>
    refine ⟨hone ?_, hproceeds.timesOrRegisters, x, rfl, ?_⟩
    · cases x with
      | error e =>
        obtain rfl : r = _ := hr
        rfl
      | ok handle => exact hr.2.2.isInside
    · rintro handle rfl
      exact hr.1

/-- An attempt is in vain whose directory cannot be made, for a reason that may pass. -/
theorem Handle.dialogue_unmade (hname : IsValidName name) {q : Path} {e : IoError}
    (hq : (lockPath dir name).parent? = some q) (he : ¬ e.IsFatal) :
    Dialogue me (Handle.acquire dir name)
      [⟨.makeDirs q, .error e⟩, ⟨.say (.event [] (.lockDirFailed e)), ()⟩]
      (.returned (.ok (.ofAttempt name (lockPath dir name) none))) := by
  have hfail : Dialogue me (Attempt.fail e (.lockDirFailed e))
      [⟨.say (.event [] (.lockDirFailed e)), ()⟩] (.returned (.ok none)) := by
    rw [Attempt.fail, if_neg he]
    exact .report _ .done
  have hattempt : Dialogue me (attempt (lockPath dir name))
      [⟨.makeDirs q, .error e⟩, ⟨.say (.event [] (.lockDirFailed e)), ()⟩]
      (.returned (.ok none)) := by
    rw [attempt, dialogue_within, hq]
    exact .call (.makeDirs q) (.error e) trivial hfail
  rw [Handle.acquire, dialogue_within, if_pos hname, ← List.append_nil (_ :: _)]
  exact hattempt.bind .done

/-- What an attempt is told that finds the file locked, and by whom it cannot tell. -/
def Attempt.turnedAway (path q : Path) (d : Descriptor) (e e' : IoError) : List Exchange :=
  [⟨.makeDirs q, .ok ()⟩, ⟨.openFile path, .ok d⟩, ⟨.tryLock d, .error e⟩,
    ⟨.readPath path, .error e'⟩, ⟨.say (.event [] (.busy path none)), ()⟩, ⟨.close d, ()⟩]

/-- An attempt is in vain that finds the file locked. -/
theorem Handle.dialogue_busy (hname : IsValidName name) {q : Path} {e : IoError}
    (hq : (lockPath dir name).parent? = some q) (he : e.IsContention) (d : Descriptor)
    (e' : IoError) :
    Dialogue me (Handle.acquire dir name) (Attempt.turnedAway (lockPath dir name) q d e e')
      (.returned (.ok (.ofAttempt name (lockPath dir name) none))) := by
  have hrefused : Dialogue me (Attempt.refused (lockPath dir name) d e)
      [⟨.readPath (lockPath dir name), .error e'⟩,
        ⟨.say (.event [] (.busy (lockPath dir name) none)), ()⟩, ⟨.close d, ()⟩]
      (.returned (.ok none)) := by
    rw [Attempt.refused, if_pos he]
    exact .call (.readPath _) (.error e') trivial (.report _ (.call (.close d) () trivial .done))
  have hattempt : Dialogue me (attempt (lockPath dir name))
      (Attempt.turnedAway (lockPath dir name) q d e e') (.returned (.ok none)) := by
    rw [attempt, dialogue_within, hq]
    refine .call (.makeDirs q) (.ok ()) trivial ?_
    refine .call (.openFile _) (.ok d) trivial ?_
    exact .call (.tryLock d) (.error e) trivial hrefused
  rw [Handle.acquire, dialogue_within, if_pos hname, ← List.append_nil (Attempt.turnedAway ..)]
  exact hattempt.bind .done

theorem Handle.release_of_not_acquired (hh : h.isAcquired = false) : h.release = pure h := by
  have hheld : h.held = none := by simpa [Handle.isAcquired] using hh
  rw [Handle.release, hheld]

end Attempt

/-! ## Rounds -/

namespace AcquireTimed

/-- An attempt that does not end its series, and the time that is read after it. -/
structure Round where
  told : List Exchange
  time : Duration

/-- All that is told in a round. -/
def Round.exchanges (pause : Duration) (r : Round) : List Exchange :=
  r.told ++ [⟨.now, r.time⟩, ⟨.sleep pause, ()⟩]

section Rounds
variable (dir : Path) (name : String) (me : Pid) (timeout started : Duration)

/-- The attempt of a round acquired nothing, and the budget was not used up then. -/
structure Round.GoesOn (r : Round) : Prop where
  vain : ∃ h, Dialogue me (Handle.acquire dir name) r.told (.returned (.ok h)) ∧
    h.isAcquired = false
  inTime : r.time - started ≤ timeout

/-- What the attempt number `n` is told if it ends its series, and what the series comes to
    then. -/
inductive Final (n : Nat) : List Exchange → Except AcquireError Guard → Prop
  | acquired {told : List Exchange} {h : Handle} :
      Dialogue me (Handle.acquire dir name) told (.returned (.ok h)) → h.isAcquired = true →
      Final n (told ++ [⟨.register (lockPath dir name), ()⟩,
        ⟨.say (.event [] (.pollSucceeded n)), ()⟩]) (.ok ⟨h⟩)
  | failed {told : List Exchange} {e : IoError} :
      Dialogue me (Handle.acquire dir name) told (.returned (.error e)) →
      Final n told (.error (.io e))
  | expired {told : List Exchange} {h : Handle} {time : Duration} :
      Dialogue me (Handle.acquire dir name) told (.returned (.ok h)) → h.isAcquired = false →
      timeout < time - started →
      Final n (told ++ [⟨.now, time⟩, ⟨.say (.event [] (.pollGaveUp n)), ()⟩])
        (.error (.timeout name (time - started)))

/-- How a series ends after some rounds, with so many allotted: with the attempt after them, or
    because there is no round left. -/
inductive Ends (rounds past : Nat) :
    List Exchange → Completion (Except AcquireError Guard) → Prop
  | final {last : List Exchange} {x : Except AcquireError Guard} :
      past < rounds → Final dir name me timeout started (past + 1) last x →
      Ends rounds past last (.returned x)
  | unfinished : past = rounds → Ends rounds past [] (.halted .unfinished)

/-- A series of attempts from the start of the clock on: rounds that go on, and an end. -/
structure Series (pause : Duration) (rounds : Nat) (past : List Round) (last told : List Exchange)
    (z : Completion (Except AcquireError Guard)) : Prop where
  goesOn : ∀ r ∈ past, Round.GoesOn dir name me timeout started r
  ends : Ends dir name me timeout started rounds past.length last z
  told_eq : told = ⟨.now, started⟩ :: (past.flatMap (Round.exchanges pause) ++ last)

end Rounds

section Poll
variable {dir : Path} {name : String} {me : Pid} {options : AcquireOptions} {started : Duration}
  {told : List Exchange} {z : Completion (Except AcquireError Guard)} {h : Handle}

theorem dialogue_make {n : Nat} : Dialogue me (Guard.make h n) told z ↔
    told = [⟨.register h.path, ()⟩, ⟨.say (.event [] (.pollSucceeded n)), ()⟩] ∧
      z = .returned (.ok ⟨h⟩) := by
  constructor
  · intro hmake
    obtain ⟨_, _, -, hregistered, rfl⟩ := dialogue_call_iff.1 hmake
    obtain ⟨_, hreported, rfl⟩ := dialogue_report_iff.1 hregistered
    obtain ⟨rfl, rfl⟩ := dialogue_pure_iff.1 hreported
    exact ⟨rfl, rfl⟩
  · rintro ⟨rfl, rfl⟩
    exact .call (.register h.path) () trivial (.report _ .done)

theorem dialogue_giveUp {elapsed : Duration} {n : Nat} :
    Dialogue me (giveUp name elapsed n) told z ↔
      told = [⟨.say (.event [] (.pollGaveUp n)), ()⟩] ∧
        z = .returned (.error (.timeout name elapsed)) := by
  constructor
  · intro hgive
    obtain ⟨_, hreported, rfl⟩ := dialogue_report_iff.1 hgive
    obtain ⟨rfl, rfl⟩ := dialogue_pure_iff.1 hreported
    exact ⟨rfl, rfl⟩
  · rintro ⟨rfl, rfl⟩
    exact .report _ .done

/-- **One round of a series** ends it, or is in vain and in time; then the clock is read, and a
    pause made before the next one. -/
theorem dialogue_round (hname : IsValidName name) {rounds n : Nat} :
    Dialogue me (poll dir name options started (rounds + 1) n) told z ↔
      (∃ x, Final dir name me options.timeout started n told x ∧ z = .returned x) ∨
      ∃ r rest, Round.GoesOn dir name me options.timeout started r ∧
        Dialogue me (poll dir name options started rounds (n + 1)) rest z ∧
        told = r.exchanges options.pollInterval ++ rest := by
  rw [poll]
  constructor
  · intro hpoll
    rcases hpoll.of_bind with ⟨x, t, rest, hattempt, hrest, rfl⟩ | ⟨e, hattempt, -⟩
    · cases x with
      | error e =>
        obtain ⟨rfl, rfl⟩ := dialogue_pure_iff.1 hrest
        rw [List.append_nil]
        exact Or.inl ⟨_, .failed hattempt, rfl⟩
      | ok h =>
        obtain ⟨-, -, x, hx, hpath⟩ := Handle.dialogue_acquire hname hattempt
        cases hx
        cases hh : h.isAcquired with
        | true =>
          simp only [hh, if_true] at hrest
          obtain ⟨rfl, rfl⟩ := dialogue_make.1 hrest
          rw [hpath h rfl]
          exact Or.inl ⟨_, .acquired hattempt hh, rfl⟩
        | false =>
          simp only [hh, Bool.false_eq_true, if_false, Handle.release_of_not_acquired hh] at hrest
          obtain ⟨time, _, -, hread, rfl⟩ := dialogue_call_iff.1 hrest
          split at hread
          · rename_i hlate
            obtain ⟨rfl, rfl⟩ := dialogue_giveUp.1 hread
            exact Or.inl ⟨_, .expired hattempt hh hlate, rfl⟩
          · rename_i hin
            obtain ⟨_, later, -, hslept, rfl⟩ := dialogue_call_iff.1 hread
            refine Or.inr ⟨⟨t, time⟩, later, ⟨⟨h, hattempt, hh⟩, Nat.not_lt.1 hin⟩, hslept, ?_⟩
            rw [Round.exchanges, List.append_assoc]
            rfl
    · obtain ⟨-, -, x, hx, -⟩ := Handle.dialogue_acquire hname hattempt
      cases hx
  · rintro (⟨x, hfinal, rfl⟩ | ⟨r, rest, ⟨⟨h, hattempt, hh⟩, hin⟩, hrest, rfl⟩)
    · cases hfinal with
      | @acquired t h hattempt hh =>
        refine hattempt.bind ?_
        obtain ⟨-, -, x, hx, hpath⟩ := Handle.dialogue_acquire hname hattempt
        cases hx
        simp only [hh, if_true]
        rw [← hpath h rfl]
        exact dialogue_make.2 ⟨rfl, rfl⟩
      | failed hattempt =>
        rw [← List.append_nil told]
        exact hattempt.bind .done
      | expired hattempt hh hlate =>
        refine hattempt.bind ?_
        simp only [hh, Bool.false_eq_true, if_false, Handle.release_of_not_acquired hh]
        refine .call .now _ trivial ?_
        rw [if_pos hlate]
        exact dialogue_giveUp.2 ⟨rfl, rfl⟩
    · rw [Round.exchanges, List.append_assoc]
      refine hattempt.bind ?_
      simp only [hh, Bool.false_eq_true, if_false, Handle.release_of_not_acquired hh]
      refine .call .now r.time trivial ?_
      rw [if_neg (Nat.not_lt.2 hin)]
      exact .call (.sleep options.pollInterval) () trivial hrest

/-- **A series of attempts** is rounds that go on, and an end. -/
theorem dialogue_poll (hname : IsValidName name) (rounds : Nat) : ∀ n told z,
    Dialogue me (poll dir name options started rounds (n + 1)) told z ↔
      ∃ (past : List Round) (last : List Exchange),
        (∀ r ∈ past, Round.GoesOn dir name me options.timeout started r) ∧
        Ends dir name me options.timeout started (n + rounds) (n + past.length) last z ∧
        told = past.flatMap (Round.exchanges options.pollInterval) ++ last := by
  induction rounds with
  | zero =>
    intro n told z
    rw [poll]
    refine dialogue_halt_iff.trans ⟨?_, ?_⟩
    · rintro ⟨rfl, rfl⟩
      exact ⟨[], [], List.forall_mem_nil _, .unfinished rfl, rfl⟩
    · rintro ⟨past, last, -, hends, rfl⟩
      cases hends with
      | final hlt => exact absurd hlt (by omega)
      | unfinished hpast =>
        obtain rfl : past = [] := List.length_eq_zero_iff.1 (by omega)
        exact ⟨rfl, rfl⟩
  | succ rounds ih =>
    intro n told z
    refine (dialogue_round hname).trans ⟨?_, ?_⟩
    · rintro (⟨x, hfinal, rfl⟩ | ⟨r, rest, hr, hrest, rfl⟩)
      · exact ⟨[], told, List.forall_mem_nil _, .final (by simp) hfinal, rfl⟩
      · obtain ⟨past, last, hpast, hends, rfl⟩ := (ih (n + 1) rest z).1 hrest
        refine ⟨r :: past, last, List.forall_mem_cons.2 ⟨hr, hpast⟩, ?_, ?_⟩
        · rwa [Nat.add_assoc, Nat.add_comm 1 rounds, Nat.add_assoc, Nat.add_comm 1] at hends
        · rw [List.flatMap_cons, List.append_assoc]
    · rintro ⟨past, last, hpast, hends, rfl⟩
      cases past with
      | nil =>
        cases hends with
        | final _ hfinal => exact Or.inl ⟨_, hfinal, rfl⟩
        | unfinished hrounds => exact absurd hrounds (by simp)
      | cons r past =>
        obtain ⟨hr, hpast⟩ := List.forall_mem_cons.1 hpast
        refine Or.inr ⟨r, _, hr, (ih (n + 1) _ z).2 ⟨past, last, hpast, ?_, rfl⟩, ?_⟩
        · rwa [Nat.add_assoc, Nat.add_comm 1 rounds, Nat.add_assoc, Nat.add_comm 1]
        · rw [List.flatMap_cons, List.append_assoc]

end Poll

/-- Starts the clock and polls, with any number of rounds allotted. -/
def startFor (rounds : Nat) (dir : Path) (name : String) (options : AcquireOptions) :
    Program (Except AcquireError Guard) := do
  let started ← call .now
  poll dir name options started rounds 1

end AcquireTimed

/-- `acquireTimed` with any number of rounds allotted. -/
def acquireTimedFor (rounds : Nat) (env : Environment) (name : String)
    (options : AcquireOptions) : Program (Except AcquireError Guard) :=
  within (.timed name options.timeout) <|
    if IsValidName name then
      let dir := options.directory env
      if options.checkReentrant then do
        if ← isHeldLocally dir name then pure (.error (.notReentrant name))
        else AcquireTimed.startFor rounds dir name options
      else AcquireTimed.startFor rounds dir name options
    else pure (.error (.invalidName name))

theorem acquireTimedFor_patience (env : Environment) (name : String) (options : AcquireOptions) :
    acquireTimedFor options.patience env name options = acquireTimed env name options := rfl

/-- What an acquisition is told that may go ahead: that its process has not registered the
    path, if it asks. -/
def AcquireOptions.cleared (options : AcquireOptions) (env : Environment) (name : String) :
    List Exchange :=
  if options.checkReentrant then
    [⟨.isRegistered (lockPath (options.directory env) name), false⟩]
  else []

/-! ## What a series leaves on record -/

/-- The path that a call registers. -/
def Call.registers? : Call → Option Path
  | register path => some path
  | _ => none

/-- The registrations in a dialogue. -/
def registrationsIn (told : List Exchange) : List Path := told.filterMap (·.1.registers?)

@[simp] theorem registrationsIn_append (t t' : List Exchange) :
    registrationsIn (t ++ t') = registrationsIn t ++ registrationsIn t' :=
  List.filterMap_append

theorem registrationsIn_eq_nil {t : List Exchange} (h : ∀ x ∈ t, x.1.timesOrRegisters = false) :
    registrationsIn t = [] := by
  refine List.filterMap_eq_nil_iff.2 fun x hx => ?_
  have hkind := h x hx
  cases hc : x.1 with
  | register =>
    rw [hc] at hkind
    cases hkind
  | _ => rfl

namespace AcquireTimed

section Record
variable {dir : Path} {name : String} {me : Pid} {timeout started : Duration} {n : Nat}
  {told : List Exchange} {x : Except AcquireError Guard} {past : List Round}

theorem Round.GoesOn.record (pause : Duration) (hname : IsValidName name) {r : Round}
    (h : Round.GoesOn dir name me timeout started r) :
    attemptsIn (r.exchanges pause) = 1 ∧ pausesIn (r.exchanges pause) = [pause] ∧
      registrationsIn (r.exchanges pause) = [] := by
  obtain ⟨h, hattempt, -⟩ := h.vain
  obtain ⟨hone, haside, -⟩ := Handle.dialogue_acquire hname hattempt
  refine ⟨?_, ?_, ?_⟩
  · rw [Round.exchanges, attemptsIn_append, hone]
    rfl
  · rw [Round.exchanges, pausesIn_append, pausesIn_eq_nil haside]
    rfl
  · rw [Round.exchanges, registrationsIn_append, registrationsIn_eq_nil haside]
    rfl

/-- Rounds that go on are so many attempts, with a pause after each. -/
theorem record_past (pause : Duration) (hname : IsValidName name)
    (h : ∀ r ∈ past, Round.GoesOn dir name me timeout started r) :
    attemptsIn (past.flatMap (Round.exchanges pause)) = past.length ∧
      pausesIn (past.flatMap (Round.exchanges pause)) = List.replicate past.length pause ∧
      registrationsIn (past.flatMap (Round.exchanges pause)) = [] := by
  induction past with
  | nil => exact ⟨rfl, rfl, rfl⟩
  | cons r past ih =>
    obtain ⟨hr, hpast⟩ := List.forall_mem_cons.1 h
    obtain ⟨hone, hpause, hnone⟩ := hr.record pause hname
    obtain ⟨hattempts, hpauses, hregistrations⟩ := ih hpast
    rw [List.flatMap_cons]
    refine ⟨?_, ?_, ?_⟩
    · rw [attemptsIn_append, hone, hattempts, Nat.add_comm, List.length_cons]
    · rw [pausesIn_append, hpause, hpauses]
      rfl
    · rw [registrationsIn_append, hnone, hregistrations]
      rfl

/-- The last attempt is followed by no pause, and by a registration if it acquired. -/
theorem Final.record (hname : IsValidName name) (h : Final dir name me timeout started n told x) :
    attemptsIn told = 1 ∧ pausesIn told = [] ∧
      registrationsIn told = if x.isOk then [lockPath dir name] else [] := by
  cases h with
  | acquired hattempt =>
    obtain ⟨hone, haside, -⟩ := Handle.dialogue_acquire hname hattempt
    rw [attemptsIn_append, pausesIn_append, registrationsIn_append, hone, pausesIn_eq_nil haside,
      registrationsIn_eq_nil haside]
    exact ⟨rfl, rfl, rfl⟩
  | failed hattempt =>
    obtain ⟨hone, haside, -⟩ := Handle.dialogue_acquire hname hattempt
    exact ⟨hone, pausesIn_eq_nil haside, registrationsIn_eq_nil haside⟩
  | expired hattempt =>
    obtain ⟨hone, haside, -⟩ := Handle.dialogue_acquire hname hattempt
    rw [attemptsIn_append, pausesIn_append, registrationsIn_append, hone, pausesIn_eq_nil haside,
      registrationsIn_eq_nil haside]
    exact ⟨rfl, rfl, rfl⟩

theorem Final.late (h : Final dir name me timeout started n told x) {name' : String}
    {elapsed : Duration} (hx : x = .error (.timeout name' elapsed)) :
    name' = name ∧ timeout < elapsed := by
  cases h with
  | acquired | failed => cases hx
  | expired _ _ hlate =>
    cases hx
    exact ⟨rfl, hlate⟩

end Record

/-- What a series has on record that ended with `x`. -/
structure Record (path : Path) (name : String) (options : AcquireOptions) (told : List Exchange)
    (x : Except AcquireError Guard) : Prop where
  attempts : 0 < attemptsIn told
  pauses : pausesIn told = List.replicate (attemptsIn told - 1) options.pollInterval
  registrations : registrationsIn told = if x.isOk then [path] else []
  late : ∀ name' elapsed, x = .error (.timeout name' elapsed) →
    name' = name ∧ options.timeout < elapsed

section Series
variable {dir : Path} {name : String} {me : Pid} {options : AcquireOptions} {started : Duration}
  {rounds : Nat} {past : List Round} {last told : List Exchange}
  {z : Completion (Except AcquireError Guard)}

theorem dialogue_startFor (hname : IsValidName name) :
    Dialogue me (startFor rounds dir name options) told z ↔ ∃ started past last,
      Series dir name me options.timeout started options.pollInterval rounds past last told z := by
  rw [startFor, dialogue_call_iff]
  refine exists_congr fun started => ⟨?_, ?_⟩
  · rintro ⟨rest, -, hrest, rfl⟩
    obtain ⟨past, last, hpast, hends, rfl⟩ := (dialogue_poll hname rounds 0 rest z).1 hrest
    rw [Nat.zero_add, Nat.zero_add] at hends
    exact ⟨past, last, hpast, hends, rfl⟩
  · rintro ⟨past, last, hpast, hends, rfl⟩
    refine ⟨_, trivial, (dialogue_poll hname rounds 0 _ z).2 ⟨past, last, hpast, ?_, rfl⟩, rfl⟩
    rwa [Nat.zero_add, Nat.zero_add]

section Counts
variable (hname : IsValidName name)
  (h : Series dir name me options.timeout started options.pollInterval rounds past last told z)
include hname h

theorem Series.attempts_eq : attemptsIn told = past.length + attemptsIn last := by
  obtain ⟨hattempts, -, -⟩ := record_past options.pollInterval hname h.goesOn
  rw [h.told_eq, attemptsIn_cons, attemptsIn_append, hattempts]
  rfl

theorem Series.pauses_eq : pausesIn told = List.replicate past.length options.pollInterval := by
  obtain ⟨-, hpauses, -⟩ := record_past options.pollInterval hname h.goesOn
  have hlast : pausesIn last = [] := by
    cases h.ends with
    | final _ hfinal => exact (hfinal.record hname).2.1
    | unfinished => rfl
  rw [h.told_eq]
  show pausesIn (_ ++ _) = _
  rw [pausesIn_append, hpauses, hlast, List.append_nil]

theorem Series.registrations_eq : registrationsIn told = registrationsIn last := by
  obtain ⟨-, -, hregistrations⟩ := record_past options.pollInterval hname h.goesOn
  rw [h.told_eq]
  show registrationsIn (_ ++ _) = _
  rw [registrationsIn_append, hregistrations, List.nil_append]

end Counts

theorem Series.record {x : Except AcquireError Guard} (hname : IsValidName name)
    (h : Series dir name me options.timeout started options.pollInterval rounds past last told
      (.returned x)) : Record (lockPath dir name) name options told x := by
  cases h.ends with
  | final _ hfinal =>
    obtain ⟨hattempt, -, hregistration⟩ := hfinal.record hname
    have hcount : attemptsIn told = past.length + 1 := by rw [h.attempts_eq hname, hattempt]
    refine ⟨?_, ?_, ?_, fun name' elapsed => hfinal.late⟩
    · rw [hcount]
      exact Nat.succ_pos _
    · rw [hcount, Nat.add_sub_cancel, h.pauses_eq hname]
    · rw [h.registrations_eq hname, hregistration]

end Series

end AcquireTimed

section Acquisition
variable {name : String} {me : Pid} {env : Environment} {options : AcquireOptions} {rounds : Nat}
  {told : List Exchange} {z : Completion (Except AcquireError Guard)}

theorem dialogue_acquireTimedFor (hname : IsValidName name) :
    Dialogue me (acquireTimedFor rounds env name options) (options.cleared env name ++ told) z ↔
      Dialogue me (AcquireTimed.startFor rounds (options.directory env) name options) told z := by
  unfold acquireTimedFor AcquireOptions.cleared
  rw [dialogue_within, if_pos hname]
  cases options.checkReentrant with
  | false => exact Iff.rfl
  | true =>
    simp only [if_true]
    refine dialogue_call_iff.trans ⟨?_, fun h => ⟨false, told, trivial, h, rfl⟩⟩
    rintro ⟨x, rest, -, hrest, htold⟩
    cases htold
    exact hrest

/-- An acquisition is refused for its name, or because its process holds the mutex, or it passes
    its checks. -/
theorem dialogue_acquireTimedFor_cases
    (h : Dialogue me (acquireTimedFor rounds env name options) told z) :
    (told = [] ∧ z = .returned (.error (.invalidName name))) ∨
      (told = [⟨.isRegistered (lockPath (options.directory env) name), true⟩] ∧
        z = .returned (.error (.notReentrant name))) ∨
      (IsValidName name ∧ ∃ rest, told = options.cleared env name ++ rest ∧ Dialogue me
        (AcquireTimed.startFor rounds (options.directory env) name options) rest z) := by
  by_cases hname : IsValidName name
  · by_cases hcheck : options.checkReentrant = true
    · have hasks := h
      rw [acquireTimedFor, dialogue_within, if_pos hname, if_pos hcheck] at hasks
      obtain ⟨registered, rest, -, hrest, rfl⟩ := dialogue_call_iff.1 hasks
      cases registered with
      | true =>
        obtain ⟨rfl, rfl⟩ := dialogue_pure_iff.1 hrest
        exact Or.inr (Or.inl ⟨rfl, rfl⟩)
      | false =>
        refine Or.inr (Or.inr ⟨hname, rest, ?_, hrest⟩)
        rw [AcquireOptions.cleared, if_pos hcheck]
        rfl
    · have hcleared : options.cleared env name = [] := if_neg hcheck
      refine Or.inr (Or.inr ⟨hname, told, by rw [hcleared]; rfl, ?_⟩)
      refine (dialogue_acquireTimedFor hname).1 ?_
      rwa [hcleared, List.nil_append]
  · rw [acquireTimedFor, dialogue_within, if_neg hname] at h
    obtain ⟨rfl, rfl⟩ := dialogue_pure_iff.1 h
    exact Or.inl ⟨rfl, rfl⟩

/-- **What an acquisition with a time budget does that passed its checks**, whatever its
    attempts come to and whatever the clock tells.  It makes attempts as long as they acquire
    nothing and no more time has gone by than the budget has, with one pause after each of
    these; the attempt that is not followed by another one decides.  So there is an attempt
    even without a budget, no pause but between two attempts, a registration just for a guard,
    and a timeout only after more time than the budget. -/
theorem acquireTimedFor_series (hname : IsValidName name) :
    (∀ told z,
      Dialogue me (acquireTimedFor rounds env name options) (options.cleared env name ++ told) z ↔
        ∃ started past last, AcquireTimed.Series (options.directory env) name me options.timeout
          started options.pollInterval rounds past last told z) ∧
    ∀ told x, Dialogue me (acquireTimedFor rounds env name options)
        (options.cleared env name ++ told) (.returned x) →
      AcquireTimed.Record (lockPath (options.directory env) name) name options told x := by
  refine ⟨fun told z => ?_, fun told x h => ?_⟩
  · exact (dialogue_acquireTimedFor hname).trans (AcquireTimed.dialogue_startFor hname)
  · have hstart := (dialogue_acquireTimedFor hname).1 h
    obtain ⟨started, past, last, hseries⟩ := (AcquireTimed.dialogue_startFor hname).1 hstart
    exact hseries.record hname

/-- Without a budget there is a second attempt if no time has gone by after the first one, and
    no third one if some has after the second. -/
theorem acquireTimedFor_series_without_budget :
    let options : AcquireOptions := ⟨0, 3, true, some Contest.root⟩
    let path := lockPath Contest.root "a"
    let e : IoError := .os .noEntry
    let vain : List Exchange :=
      [⟨.makeDirs Contest.root, .error e⟩, ⟨.say (.event [] (.lockDirFailed e)), ()⟩]
    IsValidName "a" ∧ Dialogue 1 (acquireTimedFor 5 [] "a" options)
      ([⟨.isRegistered path, false⟩] ++ (⟨.now, 7⟩ :: (vain ++ [⟨.now, 7⟩, ⟨.sleep 3, ()⟩] ++
        (vain ++ [⟨.now, 8⟩, ⟨.say (.event [] (.pollGaveUp 2)), ()⟩]))))
      (.returned (.error (.timeout "a" 1))) := by
  intro options path e vain
  have hvalid : IsValidName "a" := by decide
  have hroot : path.parent? = some Contest.root := by decide
  have hvain : Dialogue 1 (Handle.acquire Contest.root "a") vain _ :=
    Handle.dialogue_unmade hvalid hroot (by decide)
  refine ⟨hvalid, ((acquireTimedFor_series hvalid).1 _ _).2 ⟨7, [⟨vain, 7⟩], _, ?_, ?_, rfl⟩⟩
  · exact List.forall_mem_singleton.2 ⟨⟨_, hvain, rfl⟩, by decide⟩
  · have hlate : options.timeout < 8 - 7 := by decide
    exact .final (by decide) (.expired hvain rfl hlate)

end Acquisition

end NamedMutex
