/-
  What the failures of its calls make of an attempt.

  Of the calls of an attempt a few decide: those that make the directory, open the file, lock
  it, look whether it is linked still, and stamp it.  The others tell what was found, or clean
  up, and whatever they are answered makes no difference.

  * `decisions` are the exchanges that decide; `decides_tryRounds` and `decides_attempt` take
    those of an attempt apart: rounds that lost their file, and a last one;
  * `Exchange.Ends`: what the last of them makes of the attempt (`Exchange.Ends.unique`);
  * `Attempt.sorted`: when an attempt fails, when it yields a file, and when it is in vain;
    hence no acquisition fails with other errors than fatal ones.
-/
import NamedMutex.Proofs.Series

namespace NamedMutex

open Program

/-! ## Decisions -/

/-- The calls whose answers decide an attempt. -/
def Call.decides : Call → Bool
  | makeDirs _ | openFile _ | tryLock _ | leadsTo _ _ | read _ | truncate _ | rewind _
  | write _ _ => true
  | _ => false

/-- The exchanges that decide an attempt. -/
def decisions (told : List Exchange) : List Exchange := told.filter (·.1.decides)

theorem decisions_append (t t' : List Exchange) :
    decisions (t ++ t') = decisions t ++ decisions t' :=
  List.filter_append ..

namespace Program

/-- A program returns whatever it is told, and so by the exchanges that decide. -/
def Decides {α : Type} (me : Pid) (p : Program α) (R : List Exchange → α → Prop) : Prop :=
  ∀ told z, Dialogue me p told z → ∃ a, z = .returned a ∧ R (decisions told) a

section Decides
variable {α β : Type} {me : Pid} {p : Program α} {f : α → Program β} {R : List Exchange → α → Prop}
  {S : List Exchange → β → Prop}

theorem decides_pure {a : α} (h : R [] a) : (pure a : Program α).Decides me R := by
  intro told z hpure
  obtain ⟨rfl, rfl⟩ := dialogue_pure_iff.1 hpure
  exact ⟨a, rfl, h⟩

theorem Decides.call {c : Call} {next : c.Answer → Program β}
    (h : ∀ x, c.Answers me x →
      (next x).Decides me fun t b => S (decisions [.of c x] ++ t) b) :
    (Program.call c >>= next).Decides me S := by
  intro told z hcall
  obtain ⟨x, rest, hx, hrest, rfl⟩ := dialogue_call_iff.1 hcall
  obtain ⟨b, hz, hb⟩ := h x hx rest z hrest
  refine ⟨b, hz, ?_⟩
  rwa [← decisions_append] at hb

theorem decides_call {c : Call} {T : List Exchange → c.Answer → Prop}
    (h : ∀ x, c.Answers me x → T (decisions [.of c x]) x) : (Program.call c).Decides me T := by
  intro told z hcall
  cases hcall with
  | ask hx hrest =>
    cases hrest
    exact ⟨_, rfl, h _ hx⟩

theorem Decides.bind (hp : p.Decides me R)
    (hf : ∀ t a, R t a → (f a).Decides me fun t' b => S (t ++ t') b) :
    (p >>= f).Decides me S := by
  intro told z hbind
  rcases hbind.of_bind with ⟨a, t, t', hfirst, hsecond, rfl⟩ | ⟨e, hfirst, -⟩
  · obtain ⟨_, ha, hR⟩ := hp t _ hfirst
    cases ha
    obtain ⟨b, hz, hb⟩ := hf _ a hR t' z hsecond
    refine ⟨b, hz, ?_⟩
    rwa [decisions_append]
  · obtain ⟨_, ha, -⟩ := hp told _ hfirst
    cases ha

theorem Decides.imp {R' : List Exchange → α → Prop} (hp : p.Decides me R)
    (h : ∀ t a, R t a → R' t a) : p.Decides me R' := by
  intro told z hdialogue
  obtain ⟨a, hz, ha⟩ := hp told z hdialogue
  exact ⟨a, hz, h _ a ha⟩

theorem Decides.within (hp : p.Decides me R) (s : Span) : (p.within s).Decides me R :=
  fun told z h => hp told z ((dialogue_within s).1 h)

theorem Neutral.decides {path : Path} (hp : Neutral path me p) :
    p.Decides me fun t _ => t = [] := by
  intro told z h
  obtain ⟨r, hproceeds, hr⟩ := h.proceeds (hp (.out none))
  have hnone : ∀ {r₁ r₂ : Role} {t : List Exchange}, Proceeds path me r₁ t r₂ → r₁ = .out none →
      decisions t = [] := by
    intro r₁ r₂ t ht
    induction ht with
    | nil => exact fun _ => rfl
    | @cons r₁ r₁' r₂ x t hfollows _ ih =>
      rintro rfl
      obtain ⟨c, x⟩ := x
      cases hfollows with
      | say | ownPid | probe | readPath => exact ih rfl
      | opened hr | unopened hr => rcases hr with hr | hr <;> cases hr
  cases z with
  | returned a => exact ⟨a, rfl, hnone hproceeds rfl⟩
  | halted => exact hr.elim

theorem Neutral.then_decides {path : Path} (hp : Neutral path me p)
    (hf : ∀ a, (f a).Decides me S) : (p >>= f).Decides me S := by
  refine hp.decides.bind ?_
  rintro _ a rfl
  exact hf a

end Decides

end Program

/-! ## The parts of an attempt -/

namespace Attempt

/-- The round of an attempt that lost its file: the path led to another one. -/
def lost (path : Path) (d : Descriptor) : List Exchange :=
  [⟨.openFile path, .ok d⟩, ⟨.tryLock d, .ok ()⟩, ⟨.leadsTo path d, false⟩]

/-- The part of a round in which a file is locked, and linked still. -/
def gained (path : Path) (d : Descriptor) : List Exchange :=
  [⟨.openFile path, .ok d⟩, ⟨.tryLock d, .ok ()⟩, ⟨.leadsTo path d, true⟩]

/-- The whole of a stamp, put over an old content. -/
def rewritten (me : Pid) (d : Descriptor) (old : Bytes) : List Exchange :=
  [⟨.read d, .ok old⟩, ⟨.truncate d, .ok ()⟩, ⟨.rewind d, .ok ()⟩,
    ⟨.write d (Stamp.digits me), .ok ()⟩, ⟨.write d Stamp.newline, .ok ()⟩]

/-- How far a stamp comes, and whether it comes to its end. -/
inductive Stamping (me : Pid) (d : Descriptor) : List Exchange → Bool → Prop
  | unread {e : IoError} : Stamping me d [⟨.read d, .error e⟩] false
  | illegible {old : Bytes} : Utf8.decode? old = none →
      Stamping me d [⟨.read d, .ok old⟩] false
  | uncut {old : Bytes} {e : IoError} :
      Stamping me d [⟨.read d, .ok old⟩, ⟨.truncate d, .error e⟩] false
  | unwound {old : Bytes} {e : IoError} :
      Stamping me d [⟨.read d, .ok old⟩, ⟨.truncate d, .ok ()⟩, ⟨.rewind d, .error e⟩] false
  | unnumbered {old : Bytes} {e : IoError} :
      Stamping me d [⟨.read d, .ok old⟩, ⟨.truncate d, .ok ()⟩, ⟨.rewind d, .ok ()⟩,
        ⟨.write d (Stamp.digits me), .error e⟩] false
  | unended {old : Bytes} {e : IoError} :
      Stamping me d [⟨.read d, .ok old⟩, ⟨.truncate d, .ok ()⟩, ⟨.rewind d, .ok ()⟩,
        ⟨.write d (Stamp.digits me), .ok ()⟩, ⟨.write d Stamp.newline, .error e⟩] false
  | whole {old : Bytes} : (Utf8.decode? old).isSome = true →
      Stamping me d (rewritten me d old) true

/-- How an attempt ends after it has lost so many files, and what it comes to. -/
inductive Settles (path : Path) (me : Pid) (rounds lost : Nat) : List Exchange → Attempt → Prop
  | exhausted : lost = rounds → Settles path me rounds lost [] (.ok none)
  | unopened {e : IoError} : lost < rounds →
      Settles path me rounds lost [⟨.openFile path, .error e⟩] (Machine.failing e)
  | unlocked {d : Descriptor} {e : IoError} : lost < rounds →
      Settles path me rounds lost [⟨.openFile path, .ok d⟩, ⟨.tryLock d, .error e⟩]
        (if e.IsContention then .ok none else Machine.failing e)
  | stamped {d : Descriptor} {t : List Exchange} {whole : Bool} : lost < rounds →
      Stamping me d t whole →
      Settles path me rounds lost (gained path d ++ t) (.ok (if whole then some d else none))

/-- What decides an attempt without its directory. -/
def Rounds (path : Path) (me : Pid) (rounds : Nat) (t : List Exchange) (a : Attempt) : Prop :=
  ∃ files last, t = List.flatMap (lost path) files ++ last ∧
    Settles path me rounds files.length last a

section Parts
variable {path : Path} {me : Pid} {d : Descriptor}

theorem decides_fail (e : IoError) (event : Event) :
    (fail e event).Decides me fun t a => t = [] ∧ a = Machine.failing e := by
  unfold fail Machine.failing
  split
  · exact decides_pure ⟨rfl, rfl⟩
  · have hreport : Neutral ⟨[]⟩ me (report event) := neutral_report event
    exact hreport.then_decides fun _ => decides_pure ⟨rfl, rfl⟩

theorem decides_closing {p : Program Attempt} {R : List Exchange → Attempt → Prop}
    (hp : p.Decides me R) : (closing d p).Decides me R := by
  refine hp.bind fun t a ha => .call fun x _ => decides_pure ?_
  rwa [List.append_nil, show decisions [.of (.close d) x] = [] from rfl, List.append_nil]

theorem decides_stamp : (stamp path d).Decides me fun t x => Stamping me d t x.isOk := by
  unfold stamp
  refine .call fun x _ => ?_
  cases x with
  | error e => exact decides_pure .unread
  | ok old =>
    cases hold : Utf8.decode? old with
    | none =>
      simp only [readText, hold]
      exact decides_pure (.illegible hold)
    | some s =>
      simp only [readText, hold]
      refine .call fun pid hpid => ?_
      obtain rfl : pid = me := hpid
      have hreport : Neutral path pid (reportFormerOwner path pid s) :=
        neutral_reportFormerOwner path pid s
      refine hreport.then_decides fun _ => ?_
      unfold restamp andThen
      refine .call fun x _ => ?_
      cases x with
      | error e => exact decides_pure .uncut
      | ok =>
        refine .call fun x _ => ?_
        cases x with
        | error e => exact decides_pure .unwound
        | ok =>
          refine .call fun x _ => ?_
          cases x with
          | error e => exact decides_pure .unnumbered
          | ok =>
            refine decides_call fun x _ => ?_
            cases x with
            | error e => exact .unended
            | ok => exact .whole (by rw [hold]; rfl)

theorem decides_finish : (finish path d).Decides me fun t a =>
    ∃ whole, Stamping me d t whole ∧ a = .ok (if whole then some d else none) := by
  unfold finish
  refine decides_stamp.bind fun t x hx => ?_
  cases x with
  | ok =>
    refine decides_pure ⟨true, ?_, rfl⟩
    rwa [List.append_nil]
  | error e =>
    refine decides_closing ?_
    have hreport : Neutral path me (report (.stampFailed e)) := neutral_report _
    refine hreport.then_decides fun _ => .call fun x _ => decides_pure ⟨false, ?_, rfl⟩
    rwa [show decisions [.of (.unlock d) x] = [] from rfl, List.append_nil, List.append_nil]

theorem decides_refused (e : IoError) : (refused path d e).Decides me fun t a =>
    t = [] ∧ a = if e.IsContention then .ok none else Machine.failing e := by
  unfold refused
  refine decides_closing ?_
  split
  · have howner : Neutral path me (busyOwner path) := neutral_busyOwner path
    refine howner.then_decides fun owner => ?_
    have hreport : Neutral path me (report (.busy path owner)) := neutral_report _
    exact hreport.then_decides fun _ => decides_pure ⟨rfl, rfl⟩
  · exact decides_fail e _

theorem Rounds.lose {rounds : Nat} {t : List Exchange} {a : Attempt} (h : Rounds path me rounds t a)
    (d : Descriptor) : Rounds path me (rounds + 1) (lost path d ++ t) a := by
  obtain ⟨files, last, rfl, hlast⟩ := h
  refine ⟨d :: files, last, ?_, ?_⟩
  · rw [List.flatMap_cons, List.append_assoc]
  · rw [List.length_cons]
    cases hlast with
    | exhausted h => exact .exhausted (congrArg (· + 1) h)
    | unopened h => exact .unopened (Nat.succ_lt_succ h)
    | unlocked h => exact .unlocked (Nat.succ_lt_succ h)
    | stamped h hstamp => exact .stamped (Nat.succ_lt_succ h) hstamp

/-- **What decides the rounds of an attempt**, by induction on those that are left. -/
theorem decides_tryRounds (rounds : Nat) :
    (tryRounds path rounds).Decides me (Rounds path me rounds) := by
  induction rounds with
  | zero => exact decides_pure ⟨[], [], rfl, .exhausted rfl⟩
  | succ rounds ih =>
    have hpos : ([] : List Descriptor).length < rounds + 1 := Nat.succ_pos _
    unfold tryRounds
    refine .call fun x _ => ?_
    cases x with
    | error e =>
      refine (decides_fail e _).imp ?_
      rintro _ _ ⟨rfl, rfl⟩
      exact ⟨[], _, rfl, .unopened hpos⟩
    | ok d =>
      refine .call fun x _ => ?_
      cases x with
      | error e =>
        refine (decides_refused e).imp ?_
        rintro _ _ ⟨rfl, rfl⟩
        exact ⟨[], _, rfl, .unlocked hpos⟩
      | ok =>
        refine .call fun linked _ => ?_
        cases linked with
        | true =>
          refine decides_finish.imp ?_
          rintro t _ ⟨whole, hstamp, rfl⟩
          exact ⟨[], _, rfl, .stamped hpos hstamp⟩
        | false =>
          have hreport : Neutral path me (report .orphaned) := neutral_report _
          refine hreport.then_decides fun _ => .call fun x _ => .call fun y _ => ?_
          exact ih.imp fun t a ht => ht.lose d

/-- What decides an attempt: its directory cannot be made, or its rounds decide. -/
def Decision (path : Path) (me : Pid) (t : List Exchange) (a : Attempt) : Prop :=
  match path.parent? with
  | none => Rounds path me rounds t a
  | some dir => (∃ e, t = [⟨.makeDirs dir, .error e⟩] ∧ a = Machine.failing e) ∨
      ∃ rest, t = ⟨.makeDirs dir, .ok ()⟩ :: rest ∧ Rounds path me rounds rest a

/-- **What decides a whole attempt.** -/
theorem decides_attempt : (attempt path).Decides me (Decision path me) := by
  refine Decides.within ?_ _
  unfold Decision
  cases path.parent? with
  | none => exact decides_tryRounds rounds
  | some dir =>
    refine .call fun x _ => ?_
    cases x with
    | error e =>
      refine (decides_fail e _).imp ?_
      rintro _ _ ⟨rfl, rfl⟩
      exact Or.inl ⟨e, rfl, rfl⟩
    | ok => exact (decides_tryRounds rounds).imp fun t a ht => Or.inr ⟨t, rfl, ht⟩

end Parts

end Attempt

/-! ## What the last decision makes of an attempt -/

/-- An exchange that keeps an attempt from its file: the directory cannot be made, the file not
    be opened, or not be locked for another reason than contention. -/
inductive Exchange.Bars (e : IoError) : Exchange → Prop
  | unmade {dir : Path} : Bars e ⟨.makeDirs dir, .error e⟩
  | unopened {path : Path} : Bars e ⟨.openFile path, .error e⟩
  | unlocked {d : Descriptor} : ¬ e.IsContention → Bars e ⟨.tryLock d, .error e⟩

/-- An exchange that ends an attempt in vain. -/
inductive Exchange.Excuses : Exchange → Prop
  | barred {x : Exchange} {e : IoError} : x.Bars e → ¬ e.IsFatal → Excuses x
  | contended {d : Descriptor} {e : IoError} : e.IsContention → Excuses ⟨.tryLock d, .error e⟩
  | orphaned {path : Path} {d : Descriptor} : Excuses ⟨.leadsTo path d, false⟩
  | unread {d : Descriptor} {e : IoError} : Excuses ⟨.read d, .error e⟩
  | illegible {d : Descriptor} {old : Bytes} : Utf8.decode? old = none →
      Excuses ⟨.read d, .ok old⟩
  | uncut {d : Descriptor} {e : IoError} : Excuses ⟨.truncate d, .error e⟩
  | unwound {d : Descriptor} {e : IoError} : Excuses ⟨.rewind d, .error e⟩
  | unwritten {d : Descriptor} {bytes : Bytes} {e : IoError} : Excuses ⟨.write d bytes, .error e⟩

/-- How an attempt ends with an exchange. -/
inductive Exchange.Ends : Exchange → Attempt → Prop
  | failed {x : Exchange} {e : IoError} : x.Bars e → e.IsFatal → Ends x (.error e)
  | gained {d : Descriptor} : Ends ⟨.write d Stamp.newline, .ok ()⟩ (.ok (some d))
  | vain {x : Exchange} : x.Excuses → Ends x (.ok none)

/-- What an attempt comes to that ends with an exchange. -/
def Exchange.verdict : Exchange → Attempt
  | ⟨.makeDirs _, .error e⟩ => Machine.failing e
  | ⟨.openFile _, .error e⟩ => Machine.failing e
  | ⟨.tryLock _, .error e⟩ => if e.IsContention then .ok none else Machine.failing e
  | ⟨.write d _, .ok _⟩ => .ok (some d)
  | _ => .ok none

theorem Exchange.Bars.verdict {e : IoError} {x : Exchange} (h : x.Bars e) :
    x.verdict = Machine.failing e := by
  cases h with
  | unmade | unopened => rfl
  | unlocked he => exact if_neg he

theorem Exchange.Ends.verdict {x : Exchange} {a : Attempt} (h : x.Ends a) : x.verdict = a := by
  cases h with
  | failed hbars he => exact hbars.verdict.trans (if_pos he)
  | gained => rfl
  | vain hexcuses =>
    cases hexcuses with
    | barred hbars he => exact hbars.verdict.trans (if_neg he)
    | contended he => exact if_pos he
    | _ => rfl

/-- **The last decision decides.** -/
theorem Exchange.Ends.unique {x : Exchange} {a b : Attempt} (h : x.Ends a) (h' : x.Ends b) :
    a = b :=
  h.verdict.symm.trans h'.verdict

theorem Exchange.Bars.ends {e : IoError} {x : Exchange} (h : x.Bars e) :
    x.Ends (Machine.failing e) := by
  unfold Machine.failing
  split
  · rename_i he
    exact .failed h he
  · rename_i he
    exact .vain (.barred h he)

namespace Attempt

section Last
variable {path : Path} {me : Pid} {d : Descriptor} {t : List Exchange} {a : Attempt} {rounds : Nat}

theorem Stamping.ends {whole : Bool} (h : Stamping me d t whole) : ∃ x, t.getLast? = some x ∧
    x.Ends (.ok (if whole then some d else none)) := by
  cases h with
  | unread => exact ⟨_, rfl, .vain .unread⟩
  | illegible hold => exact ⟨_, rfl, .vain (.illegible hold)⟩
  | uncut => exact ⟨_, rfl, .vain .uncut⟩
  | unwound => exact ⟨_, rfl, .vain .unwound⟩
  | unnumbered | unended => exact ⟨_, rfl, .vain .unwritten⟩
  | whole => exact ⟨_, rfl, .gained⟩

theorem Settles.ends {lost : Nat} (h : Settles path me rounds lost t a) :
    (t = [] ∧ lost = rounds ∧ a = .ok none) ∨ ∃ x, t.getLast? = some x ∧ x.Ends a := by
  cases h with
  | exhausted h => exact Or.inl ⟨rfl, h, rfl⟩
  | unopened => exact Or.inr ⟨_, rfl, Exchange.Bars.unopened.ends⟩
  | unlocked =>
    refine Or.inr ⟨_, rfl, ?_⟩
    split
    · rename_i he
      exact .vain (.contended he)
    · rename_i he
      exact (Exchange.Bars.unlocked he).ends
  | stamped _ hstamp =>
    obtain ⟨x, hx, hends⟩ := hstamp.ends
    refine Or.inr ⟨x, ?_, hends⟩
    rw [List.getLast?_append, hx]
    rfl

theorem Rounds.ends (h : Rounds path me (rounds + 1) t a) :
    ∃ x, t.getLast? = some x ∧ x.Ends a := by
  obtain ⟨files, last, rfl, hlast⟩ := h
  rcases hlast.ends with ⟨rfl, hlength, rfl⟩ | ⟨x, hx, hends⟩
  · have hne : files ≠ [] := by
      rintro rfl
      cases hlength
    -- the last file was lost as well
    obtain ⟨others, d, rfl⟩ := (List.eq_nil_or_concat files).resolve_left hne
    refine ⟨⟨.leadsTo path d, false⟩, ?_, .vain .orphaned⟩
    rw [List.concat_eq_append, List.flatMap_append, List.append_nil, List.getLast?_append]
    rfl
  · refine ⟨x, ?_, hends⟩
    rw [List.getLast?_append, hx]
    rfl

/-- **Every attempt ends with a decision.** -/
theorem Decision.ends (h : Decision path me t a) : ∃ x, t.getLast? = some x ∧ x.Ends a := by
  unfold Decision at h
  split at h
  · exact h.ends
  · rcases h with ⟨e, rfl, rfl⟩ | ⟨rest, rfl, hrest⟩
    · exact ⟨_, rfl, Exchange.Bars.unmade.ends⟩
    · obtain ⟨x, hx, hends⟩ := hrest.ends
      refine ⟨x, ?_, hends⟩
      rw [List.getLast?_cons, hx]
      rfl

/-- The directory of an attempt was made, if there is one. -/
def made (path : Path) : List Exchange :=
  match path.parent? with
  | none => []
  | some dir => [⟨.makeDirs dir, .ok ()⟩]

/-- What decides an attempt that yields a file: after fewer rounds than there are, in which it
    lost its file, one in which it gained it and put its whole stamp into it. -/
def Gains (path : Path) (me : Pid) (d : Descriptor) (t : List Exchange) : Prop :=
  ∃ files old, files.length < Attempt.rounds ∧ (Utf8.decode? old).isSome = true ∧
    t = made path ++ (List.flatMap (lost path) files ++ (gained path d ++ rewritten me d old))

theorem Gains.ends (h : Gains path me d t) :
    ∃ x, t.getLast? = some x ∧ x.Ends (.ok (some d)) := by
  obtain ⟨files, old, -, -, rfl⟩ := h
  refine ⟨⟨.write d Stamp.newline, .ok ()⟩, ?_, .gained⟩
  rw [List.getLast?_append, List.getLast?_append, List.getLast?_append]
  rfl

theorem failing_ne (e : IoError) (d : Descriptor) : Machine.failing e ≠ .ok (some d) := by
  unfold Machine.failing
  split <;> exact nofun

theorem Settles.gains {lost : Nat} (h : Settles path me rounds lost t a) (ha : a = .ok (some d)) :
    lost < rounds ∧ ∃ old, (Utf8.decode? old).isSome = true ∧
      t = gained path d ++ rewritten me d old := by
  cases h with
  | exhausted => cases ha
  | unopened => exact absurd ha (failing_ne _ _)
  | unlocked =>
    split at ha
    · cases ha
    · exact absurd ha (failing_ne _ _)
  | stamped hlt hstamp =>
    cases hstamp with
    | whole hold =>
      cases ha
      exact ⟨hlt, _, hold, rfl⟩
    | _ => cases ha

theorem Decision.gains (h : Decision path me t (.ok (some d))) : Gains path me d t := by
  have hrounds : ∀ {rest}, Rounds path me Attempt.rounds rest (.ok (some d)) →
      ∃ files old, files.length < Attempt.rounds ∧ (Utf8.decode? old).isSome = true ∧
        rest = List.flatMap (lost path) files ++ (gained path d ++ rewritten me d old) := by
    rintro _ ⟨files, last, rfl, hlast⟩
    obtain ⟨hlt, old, hold, rfl⟩ := hlast.gains rfl
    exact ⟨files, old, hlt, hold, rfl⟩
  unfold Decision at h
  unfold Gains made
  split at h
  · exact hrounds h
  · rcases h with ⟨e, -, he⟩ | ⟨rest, rfl, hrest⟩
    · exact absurd he.symm (failing_ne _ _)
    · obtain ⟨files, old, hlt, hold, rfl⟩ := hrounds hrest
      exact ⟨files, old, hlt, hold, rfl⟩

end Last

/-- When an attempt fails, when it yields a file, and when it is in vain. -/
structure Sorted (path : Path) (me : Pid) (told : List Exchange) (z : Completion Attempt) :
    Prop where
  failed : ∀ e, z = .returned (.error e) ↔ ∃ x, (decisions told).getLast? = some x ∧ x.Bars e ∧
    (e.kind = .permissionDenied ∨ e.kind = .unsupported)
  gained : ∀ d, z = .returned (.ok (some d)) ↔ Gains path me d (decisions told)
  vain : z = .returned (.ok none) ↔ ∃ x, (decisions told).getLast? = some x ∧ x.Excuses
  otherwise : (∀ e, z ≠ .returned (.error e)) → (∀ d, z ≠ .returned (.ok (some d))) →
    z = .returned (.ok none)

/-- **Every attempt is sorted by its decisions**, whatever it is told. -/
theorem sorted {path : Path} {me : Pid} {told : List Exchange} {z : Completion Attempt}
    (h : Dialogue me (attempt path) told z) : Sorted path me told z := by
  obtain ⟨a, rfl, hdecision⟩ := decides_attempt told z h
  obtain ⟨x, hx, hends⟩ := hdecision.ends
  -- whatever ends with the same exchange is the same
  have hsame : ∀ {b : Attempt}, (∃ y, (decisions told).getLast? = some y ∧ y.Ends b) → a = b := by
    rintro b ⟨y, hy, hb⟩
    rw [hx] at hy
    cases hy
    exact hends.unique hb
  refine ⟨fun e => ⟨?_, ?_⟩, fun d => ⟨?_, ?_⟩, ⟨?_, ?_⟩, ?_⟩
  · intro ha
    cases ha
    cases hends with
    | failed hbars he => exact ⟨x, hx, hbars, he⟩
  · rintro ⟨y, hy, hbars, he⟩
    rw [hsame ⟨y, hy, .failed hbars he⟩]
  · intro ha
    cases ha
    exact hdecision.gains
  · intro hgains
    rw [hsame hgains.ends]
  · intro ha
    cases ha
    cases hends with
    | vain hexcuses => exact ⟨x, hx, hexcuses⟩
  · rintro ⟨y, hy, hexcuses⟩
    rw [hsame ⟨y, hy, .vain hexcuses⟩]
  · intro herror hheld
    cases a with
    | error e => exact absurd rfl (herror e)
    | ok held =>
      cases held with
      | none => rfl
      | some d => exact absurd rfl (hheld d)

end Attempt

/-! ## Errors that are passed on -/

theorem Handle.isFatal_of_dialogue {dir : Path} {name : String} {me : Pid} {told : List Exchange}
    {e : IoError} (h : Dialogue me (Handle.acquire dir name) told (.returned (.error e))) :
    e.IsFatal := by
  rw [Handle.acquire, dialogue_within] at h
  split at h
  · rcases h.of_bind with ⟨a, t, rest, hattempt, hrest, rfl⟩ | ⟨_, -, hz⟩
    · cases a with
      | error e' =>
        obtain ⟨rfl, he⟩ := dialogue_pure_iff.1 hrest
        cases he
        obtain ⟨-, -, -, he⟩ := ((Attempt.sorted hattempt).failed e).1 rfl
        exact he
      | ok held =>
        cases held with
        | none => cases (dialogue_pure_iff.1 hrest).2
        | some d =>
          obtain ⟨_, hreported, rfl⟩ := dialogue_report_iff.1 hrest
          cases (dialogue_pure_iff.1 hreported).2
    · cases hz
  · cases (dialogue_halt_iff.1 h).2

theorem isFatal_of_acquireTimedFor {rounds : Nat} {env : Environment} {name : String} {me : Pid}
    {options : AcquireOptions} {told : List Exchange} {e : IoError}
    (h : Dialogue me (acquireTimedFor rounds env name options) told (.returned (.error (.io e)))) :
    e.IsFatal := by
  rcases dialogue_acquireTimedFor_cases h with ⟨-, hz⟩ | ⟨-, hz⟩ | ⟨hname, rest, -, hstart⟩
  · cases hz
  · cases hz
  · obtain ⟨started, past, last, hseries⟩ := (AcquireTimed.dialogue_startFor hname).1 hstart
    cases hseries.ends with
    | final _ hfinal =>
      cases hfinal with
      | failed hattempt => exact Handle.isFatal_of_dialogue hattempt

end NamedMutex
