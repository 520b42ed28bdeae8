/-
  Accounts of attempts and releases among others.

  * `Account` sums up what a trace tells: lines, fatal failures, stamped files and times;
    `Program.Tells` says what account there is of a program whatever it is answered;
  * `acquire_tells`, `quiet_release`: the accounts of attempts and releases;
  * `among_acquire`, `among_release`: what they come to, and leave behind, among others.
-/
import NamedMutex.Proofs.Possessions
import NamedMutex.Proofs.Stamps

namespace NamedMutex

/-! ## Accounts -/

/-- What a trace tells. -/
structure Account where
  /-- The lines on standard output. -/
  lines : List String
  /-- The failures that say that the lock directory cannot be used at all. -/
  fatal : List IoError
  /-- The files that got a whole stamp. -/
  stamped : List Descriptor
  /-- What the clock said. -/
  times : List Duration

namespace Account

/-- There is nothing to tell. -/
def quiet : Account := ⟨[], [], [], []⟩

/-- A failure, which matters if it is fatal. -/
def ofFailure (e : IoError) : Account := if e.IsFatal then ⟨[], [e], [], []⟩ else quiet

/-- What an answer tells. -/
def ofCall : (c : Call) → c.Answer → Account
  | .say (.line text), _ => ⟨[text], [], [], []⟩
  | .makeDirs _, .error e | .tryLock _, .error e => ofFailure e
  | .openFile _, .error e => ofFailure e
  | .write d bytes, .ok () => if bytes = Stamp.newline then ⟨[], [], [d], []⟩ else quiet
  | .now, time => ⟨[], [], [], [time]⟩
  | _, _ => quiet

/-- One account and then another. -/
def append (a b : Account) : Account :=
  ⟨a.lines ++ b.lines, a.fatal ++ b.fatal, a.stamped ++ b.stamped, a.times ++ b.times⟩

instance : Append Account := ⟨append⟩

theorem append_def (a b : Account) : a ++ b =
    ⟨a.lines ++ b.lines, a.fatal ++ b.fatal, a.stamped ++ b.stamped, a.times ++ b.times⟩ := rfl

@[simp] theorem quiet_append (a : Account) : quiet ++ a = a := rfl

@[simp] theorem append_quiet (a : Account) : a ++ quiet = a := by
  simp [append_def, quiet]

theorem append_assoc (a b c : Account) : a ++ b ++ c = a ++ (b ++ c) := by
  simp [append_def]

end Account

/-- What a trace tells, all in all. -/
def account : List Incident → Account
  | [] => .quiet
  | i :: trace => .ofCall i.call i.answer ++ account trace

theorem account_append (t t' : List Incident) : account (t ++ t') = account t ++ account t' := by
  induction t with
  | nil => rfl
  | cons i t ih => simp only [List.cons_append, account, ih, Account.append_assoc]

@[simp] theorem account_record (m : Machine) (c : Call) (x : c.Answer) :
    account (Incident.record m c x) = .ofCall c x := by
  unfold Incident.record
  split
  · rfl
  · exact Account.append_quiet _

namespace Program

/-- Whatever a program is answered, it ends with a value and with an account of which this
    holds. -/
def Tells {α : Type} (p : Program α) (me : Pid) (S : Account → α → Prop) : Prop :=
  ∀ m, p.Among me m (Yields fun trace a _ => S (account trace) a)

/-- There is nothing to tell of a program. -/
abbrev Quiet {α : Type} (p : Program α) (me : Pid) : Prop := p.Tells me fun t _ => t = .quiet

variable {α β : Type} {me : Pid} {p : Program α} {f : α → Program β} {S : Account → α → Prop}
  {S' : Account → β → Prop}

theorem tells_pure {a : α} (h : S .quiet a) : (pure a : Program α).Tells me S :=
  fun _ => among_pure h

theorem Tells.call {c : Call} {next : c.Answer → Program β}
    (h : ∀ x, (next x).Tells me fun t b => S' (.ofCall c x ++ t) b) :
    (Program.call c >>= next).Tells me S' := by
  intro m
  refine Among.call fun manner x m₁ m₂ _ _ => (h x m₂).imp fun trace z m' hz => ?_
  cases z with
  | returned b =>
    show S' (account (Incident.record m c x ++ trace)) b
    rw [account_append, account_record]
    exact hz
  | halted => exact hz

theorem Tells.bind (hp : p.Tells me S)
    (hf : ∀ t a, S t a → (f a).Tells me fun t' b => S' (t ++ t') b) :
    (p >>= f).Tells me S' := by
  intro m
  refine Among.bind (hp m) fun trace a m₁ ha => (hf _ a ha m₁).imp fun trace' z m' hz => ?_
  cases z with
  | returned b =>
    show S' (account (trace ++ trace')) b
    rw [account_append]
    exact hz
  | halted => exact hz

theorem Tells.within (h : p.Tells me S) (s : Span) : (p.within s).Tells me S :=
  fun m => (h m).within s

theorem Quiet.then (hp : p.Quiet me) (hf : ∀ a, (f a).Tells me S') : (p >>= f).Tells me S' := by
  refine Tells.bind hp ?_
  rintro t a rfl
  exact hf a

theorem quiet_report (e : Event) : (report e).Quiet me :=
  fun _ => Among.call fun _ _ _ _ _ _ => among_pure rfl

theorem tells_call {c : Call} {S : Account → c.Answer → Prop} (h : ∀ x, S (.ofCall c x) x) :
    (Program.call c).Tells me S := by
  have hpure : ∀ x, (pure x : Program c.Answer).Tells me fun t b => S (.ofCall c x ++ t) b := by
    intro x
    refine tells_pure ?_
    rw [Account.append_quiet]
    exact h x
  exact Tells.call hpure

theorem quiet_isAlive (pid : Pid) : (isAlive pid).Quiet me := by
  unfold isAlive
  split
  · exact tells_pure rfl
  · refine Tells.call fun x => ?_
    cases x <;> exact tells_pure rfl

theorem quiet_ownerOf (content : String) : (ownerOf content).Quiet me := by
  unfold ownerOf
  split
  · exact tells_pure rfl
  · exact (quiet_isAlive _).then fun _ => tells_pure rfl

end Program

/-! ## Accounts of attempts and releases -/

theorem Stamp.digits_ne_newline (pid : Pid) : digits pid ≠ newline := by
  intro h
  have hmem : (0x0A : UInt8) ∈ digits pid := h ▸ List.mem_singleton_self _
  rw [digits, Utf8.encode_ascii isAscii_digits] at hmem
  obtain ⟨c, hc, heq⟩ := List.mem_map.1 hmem
  have hdigit : 48 ≤ c.toNat ∧ c.toNat ≤ 57 := by
    simpa [Char.isDigit, UInt32.le_iff_toNat_le] using Numeral.isDigit_ofNat pid c hc
  have hnat := congrArg UInt8.toNat heq
  rw [UInt8.toNat_ofNat', Nat.mod_eq_of_lt (by omega)] at hnat
  have hten : (0x0A : UInt8).toNat = 10 := rfl
  omega

namespace Attempt

open Program

variable {me : Pid} {path : Path} {d : Descriptor}

/-- The account of an attempt: that it stamped the file that it yields, or that it failed. -/
def Tale : Account → Attempt → Prop
  | t, .ok held => t = ⟨[], [], held.toList, []⟩
  | t, .error e => e.IsFatal ∧ t = ⟨[], [e], [], []⟩

/-- The account of a stamp. -/
def StampTale (d : Descriptor) : Account → Except IoError Unit → Prop
  | t, .ok () => t = ⟨[], [], [d], []⟩
  | t, .error _ => t = .quiet

theorem fail_tells (e : IoError) (event : Event) :
    (fail e event).Tells me fun t a => Tale (.ofFailure e ++ t) a := by
  unfold fail
  by_cases he : e.IsFatal
  · simp only [Account.ofFailure, if_pos he]
    exact tells_pure ⟨he, rfl⟩
  · simp only [Account.ofFailure, if_neg he]
    exact (quiet_report _).then fun _ => tells_pure rfl

theorem closing_tells {p : Program Attempt} {S : Account → Attempt → Prop} (hp : p.Tells me S) :
    (closing d p).Tells me S := by
  refine Tells.bind hp fun t a ha => Tells.call fun _ => tells_pure ?_
  show S (t ++ .quiet) a
  rwa [Account.append_quiet]

theorem quiet_reportFormerOwner (p : Path) (pid : Pid) (content : String) :
    (reportFormerOwner p pid content).Quiet me := by
  unfold reportFormerOwner
  split
  · exact tells_pure rfl
  split
  · exact quiet_report _
  · refine (quiet_isAlive _).then fun alive => ?_
    cases alive <;> exact quiet_report _

theorem quiet_busyOwner (p : Path) : (busyOwner p).Quiet me := by
  unfold busyOwner
  refine Tells.call fun x => ?_
  split
  · exact quiet_ownerOf _
  · exact tells_pure rfl

theorem restamp_tells (pid : Pid) : (restamp pid d).Tells me (StampTale d) := by
  unfold restamp andThen
  refine Tells.call fun x => ?_
  cases x with
  | error e => exact tells_pure rfl
  | ok =>
    refine Tells.call fun x => ?_
    cases x with
    | error e => exact tells_pure rfl
    | ok =>
      refine Tells.call fun x => ?_
      cases x with
      | error e => exact tells_pure rfl
      | ok =>
        refine tells_call fun x => ?_
        have hdigits : Account.ofCall (.write d (Stamp.digits pid)) (.ok ()) = .quiet :=
          if_neg (Stamp.digits_ne_newline pid)
        rw [hdigits]
        cases x <;> exact rfl

theorem stamp_tells : (stamp path d).Tells me (StampTale d) := by
  unfold stamp
  refine Tells.call fun x => ?_
  cases readText x with
  | error e => exact tells_pure rfl
  | ok content =>
    refine Tells.call fun pid => ?_
    exact (quiet_reportFormerOwner _ _ _).then fun _ => restamp_tells pid

theorem finish_tells : (finish path d).Tells me Tale := by
  unfold finish
  refine Tells.bind stamp_tells fun t x hx => ?_
  cases x with
  | ok =>
    obtain rfl := hx
    exact tells_pure rfl
  | error e =>
    obtain rfl := hx
    exact closing_tells ((quiet_report _).then fun _ => Tells.call fun _ => tells_pure rfl)

theorem refused_tells (e : IoError) :
    (refused path d e).Tells me fun t a => Tale (.ofFailure e ++ t) a := by
  unfold refused
  refine closing_tells ?_
  split
  · rename_i he
    have hfatal : ¬ e.IsFatal := by
      have hkind : e.kind = .wouldBlock := he
      simp [IoError.IsFatal, hkind]
    simp only [Account.ofFailure, if_neg hfatal]
    exact (quiet_busyOwner _).then fun _ => (quiet_report _).then fun _ => tells_pure rfl
  · exact fail_tells e _

theorem tryRounds_tells (path : Path) : ∀ n : Nat, (tryRounds path n).Tells me Tale
  | 0 => tells_pure rfl
  | n + 1 => by
    unfold tryRounds
    refine Tells.call fun x => ?_
    cases x with
    | error e => exact fail_tells e _
    | ok file =>
      refine Tells.call fun x => ?_
      cases x with
      | error e => exact refused_tells e
      | ok =>
        refine Tells.call fun linked => ?_
        cases linked with
        | true => exact finish_tells
        | false =>
          exact (quiet_report _).then fun _ => Tells.call fun _ => Tells.call fun _ =>
            tryRounds_tells path n

theorem attempt_tells (path : Path) : (attempt path).Tells me Tale := by
  unfold attempt
  refine Tells.within ?_ _
  cases path.parent? with
  | none => exact tryRounds_tells path _
  | some dir =>
    refine Tells.call fun x => ?_
    cases x with
    | error e => exact fail_tells e _
    | ok => exact tryRounds_tells path _

end Attempt

namespace Handle

open Program

variable {me : Pid} {dir : Path} {name : String}

/-- **An account of an attempt**: a fatal failure is what it ends with, and it stamped the file
    that it yields and no other. -/
theorem acquire_tells (hname : IsValidName name) :
    (acquire dir name).Tells me fun t x => Attempt.Tale t (x.map held) := by
  unfold acquire
  refine Tells.within ?_ _
  rw [if_pos hname]
  refine Tells.bind (Attempt.attempt_tells _) fun t a ha => ?_
  cases a with
  | error e => exact tells_pure (by rwa [Account.append_quiet])
  | ok held =>
    cases held with
    | none => exact tells_pure (by rwa [Account.append_quiet])
    | some d => exact (quiet_report _).then fun _ => tells_pure (by rwa [Account.append_quiet])

theorem quiet_release (h : Handle) : h.release.Quiet me := by
  unfold release
  split
  · exact tells_pure rfl
  · rename_i d _
    have hremove : (removeFile h.path).Quiet me := by
      refine Tells.call fun x => ?_
      cases x with
      | ok => exact tells_pure rfl
      | error e =>
        dsimp only
        split
        · exact tells_pure rfl
        · exact quiet_report _
    have hclose : (closeFile h.path h.name d).Quiet me := by
      refine Tells.call fun x => ?_
      have hend : (do report (.released h.name); call (.close d) : Program Unit).Quiet me :=
        (quiet_report _).then fun _ => tells_call fun _ => rfl
      cases x with
      | ok => exact hend
      | error e => exact (quiet_report _).then fun _ => hend
    exact hremove.then fun _ => hclose.then fun _ => tells_pure rfl

end Handle

/-! ## What they leave behind -/

theorem Replies.clock {m m' : Machine} {me : Pid} {manner : Manner} {c : Call} {x : c.Answer}
    (h : Replies m me manner c x m') : m.clock ≤ m'.clock := by
  have heffect : ∀ c, m.clock ≤ (m.perform me c).2.clock := fun c =>
    Nat.le_trans (Nat.le_add_right _ _) (Machine.effect me c m.tick).clock
  cases h with
  | answered => exact heffect _
  | failed => exact Nat.le_refl _
  | torn => exact heffect _

theorem Course.clock {α : Type} {me : Pid} {p : Program α} {m m' : Machine} {trace : List Incident}
    {z : Completion α} (h : Course me p m trace z m') : m.clock ≤ m'.clock := by
  induction h with
  | done | halt => exact Nat.le_refl _
  | ask hreply helse _ ih => exact Nat.le_trans hreply.clock (Nat.le_trans helse.clock ih)

namespace Handle

open Program

variable {me : Pid} {dir : Path} {name : String} {m : Machine} {h : Handle}

/-- What a process has open if it has a handle, and nothing else. -/
def Stands (h : Handle) (me : Pid) (m : Machine) : Prop :=
  match h.held with
  | some d => Possesses me m (.owner d .stamped)
  | none => m.Idle me

/-- What a whole attempt comes to. -/
structure Attempted (dir : Path) (name : String) (me : Pid) (m : Machine) (trace : List Incident)
    (x : Except IoError Handle) (m' : Machine) : Prop where
  account : Attempt.Tale (account trace) (x.map held)
  clock : m.clock ≤ m'.clock
  failed : ∀ e, x = .error e → m'.Idle me
  handle : ∀ h, x = .ok h → h.path = lockPath dir name ∧ h.Stands me m' ∧
    ∀ d, h.held = some d → Acquired (lockPath dir name) d trace

/-- **What a whole attempt comes to among others.** -/
theorem among_acquire (hname : IsValidName name) (hm : m.Idle me) :
    (acquire dir name).Among me m (Yields (Attempted dir name me m)) := by
  intro trace z m' hcourse
  have hstart := hm.possesses (Role.file_start (lockPath dir name))
  have htells := acquire_tells hname m trace z m' hcourse
  obtain ⟨r, hends, hposs, hsub⟩ := (acquire_obeys dir name me).among hstart trace z m' hcourse
  cases z with
  | halted => exact htells
  | returned x =>
    refine ⟨htells, hcourse.clock, fun e he => ?_, fun h hh => ?_⟩
    · subst he
      obtain rfl : r = _ := hends
      exact hposs.idle rfl
    · subst hh
      obtain ⟨hpath, -, hrole⟩ := hends
      have hevidence : (Role.start (lockPath dir name)).evidence (lockPath dir name) = [] := by
        rcases Role.start_cases (lockPath dir name) with h | h <;> rw [h] <;> rfl
      rw [hevidence, List.nil_append] at hsub
      cases hheld : h.held with
      | none =>
        rw [hheld] at hrole
        obtain ⟨e, rfl⟩ := hrole
        refine ⟨hpath, ?_, nofun⟩
        rw [Stands, hheld]
        exact hposs.idle rfl
      | some d =>
        rw [hheld] at hrole
        obtain rfl : r = _ := hrole
        refine ⟨hpath, ?_, ?_⟩
        · rw [Stands, hheld]
          exact hposs
        · rintro _ ⟨⟩
          exact hsub

/-- **A whole release leaves nothing open**, and there is nothing to tell of it. -/
theorem among_release (hpath : h.path = lockPath dir name) (hs : h.Stands me m) :
    h.release.Among me m (Yields fun trace _ m' => account trace = .quiet ∧ m.clock ≤ m'.clock ∧
      m'.Idle me) := by
  intro trace z m' hcourse
  have hquiet := quiet_release h m trace z m' hcourse
  obtain ⟨r, hposs, howner, hout⟩ : ∃ r, Possesses me m r ∧
      (∀ d, h.held = some d → r = .owner d .stamped) ∧ (h.held = none → ∃ e, r = .out e) := by
    unfold Stands at hs
    split at hs
    · rename_i d hd
      refine ⟨_, hs, fun d' hd' => ?_, fun hnone => ?_⟩
      · rw [hd] at hd'
        cases hd'
        rfl
      · rw [hd] at hnone
        cases hnone
    · rename_i hnone
      refine ⟨.out none, hs.possesses rfl, fun d hd => ?_, fun _ => ⟨_, rfl⟩⟩
      rw [hnone] at hd
      cases hd
  obtain ⟨r', hends, hposs', -⟩ :=
    (release_obeys hpath howner hout).among hposs trace z m' hcourse
  cases z with
  | halted => exact hquiet
  | returned h' =>
    obtain ⟨-, -, e, rfl⟩ := hends
    exact ⟨hquiet, hcourse.clock, hposs'.idle rfl⟩

end Handle

end NamedMutex
