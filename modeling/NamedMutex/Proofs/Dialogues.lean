/-
  Programs that are told anything.

  A dialogue of a program lists the calls that it makes, each with what it was answered.  No
  machine stands behind the answers, so what holds of all dialogues holds however the system
  behaves and whichever of its calls fail.

  * `Dialogue` is a dialogue of a program, and how the program ends in it;
  * `Dialogue.bind`, `Dialogue.of_bind`, `dialogue_within`: the dialogues of programs that are
    put together;
  * `Dialogue.proceeds`: a program that follows the protocol goes from role to role in all its
    dialogues; hence an attempt makes one directory, and leaves clock and registry alone;
  * `Timely` is what a clock that never goes back, and sleeps that last long enough, tell;
    `Course.dialogue`: what a program is told on a machine is such.
-/
import NamedMutex.Proofs.Polling

namespace NamedMutex

open Program

/-- A call and what it was answered. -/
abbrev Exchange := (c : Call) × c.Answer

/-- An exchange as it is put on record: events without the spans in which they lie. -/
def Exchange.of : (c : Call) → c.Answer → Exchange
  | .say (.event _ e), _ => ⟨.say (.event [] e), ()⟩
  | c, x => ⟨c, x⟩

/-- The dialogues of a program of the process `me`. -/
inductive Dialogue (me : Pid) {α : Type} : Program α → List Exchange → Completion α → Prop
  | done {a : α} : Dialogue me (.done a) [] (.returned a)
  | halt {h : Halt} : Dialogue me (.halt h) [] (.halted h)
  | ask {c : Call} {next : c.Answer → Program α} {x : c.Answer} {told : List Exchange}
      {z : Completion α} : c.Answers me x → Dialogue me (next x) told z →
      Dialogue me (.ask c next) (.of c x :: told) z

section Dialogue
variable {α β : Type} {me : Pid} {p : Program α} {f : α → Program β} {told told' : List Exchange}
  {a : α} {z : Completion β}

theorem dialogue_pure_iff {y : Completion α} :
    Dialogue me (pure a) told y ↔ told = [] ∧ y = .returned a := by
  constructor
  · intro h
    cases h
    exact ⟨rfl, rfl⟩
  · rintro ⟨rfl, rfl⟩
    exact .done

theorem dialogue_halt_iff {e : Halt} :
    Dialogue me (.halt e : Program β) told z ↔ told = [] ∧ z = .halted e := by
  constructor
  · intro h
    cases h
    exact ⟨rfl, rfl⟩
  · rintro ⟨rfl, rfl⟩
    exact .halt

theorem Dialogue.call (c : Call) {next : c.Answer → Program β} (x : c.Answer)
    (hx : c.Answers me x) (h : Dialogue me (next x) told z) :
    Dialogue me (Program.call c >>= next) (.of c x :: told) z := .ask hx h

/-- A program begins with its first call, whatever that is answered. -/
theorem dialogue_call_iff {c : Call} {next : c.Answer → Program β} :
    Dialogue me (Program.call c >>= next) told z ↔
      ∃ x rest, c.Answers me x ∧ Dialogue me (next x) rest z ∧ told = .of c x :: rest := by
  constructor
  · intro h
    cases h with
    | ask hx hrest => exact ⟨_, _, hx, hrest, rfl⟩
  · rintro ⟨x, rest, hx, hrest, rfl⟩
    exact .ask hx hrest

theorem Dialogue.report (e : Event) {next : Unit → Program β} (h : Dialogue me (next ()) told z) :
    Dialogue me (report e >>= next) (⟨.say (.event [] e), ()⟩ :: told) z :=
  .call (.say (.event [] e)) () trivial h

theorem Dialogue.bind (hp : Dialogue me p told (.returned a)) (hf : Dialogue me (f a) told' z) :
    Dialogue me (p >>= f) (told ++ told') z := by
  induction p generalizing told with
  | done =>
    cases hp
    exact hf
  | halt => cases hp
  | ask c next ih =>
    cases hp with
    | ask hx hrest => exact .ask hx (ih _ hrest)

/-- A dialogue of two programs, one after the other, is one of the first and then one of the
    second. -/
theorem Dialogue.of_bind (h : Dialogue me (p >>= f) told z) :
    (∃ a t₁ t₂, Dialogue me p t₁ (.returned a) ∧ Dialogue me (f a) t₂ z ∧ told = t₁ ++ t₂) ∨
      ∃ e, Dialogue me p told (.halted e) ∧ z = .halted e := by
  induction p generalizing told with
  | done a => exact Or.inl ⟨a, [], told, .done, h, rfl⟩
  | halt e =>
    cases h
    exact Or.inr ⟨e, .halt, rfl⟩
  | ask c next ih =>
    cases h with
    | ask hx hrest =>
      rcases ih _ hrest with ⟨a, t₁, t₂, hfirst, hsecond, rfl⟩ | ⟨e, hfirst, rfl⟩
      · exact Or.inl ⟨a, _, t₂, .ask hx hfirst, hsecond, rfl⟩
      · exact Or.inr ⟨e, .ask hx hfirst, rfl⟩

theorem dialogue_report_iff {e : Event} {next : Unit → Program β} :
    Dialogue me (report e >>= next) told z ↔
      ∃ rest, Dialogue me (next ()) rest z ∧ told = ⟨.say (.event [] e), ()⟩ :: rest := by
  refine dialogue_call_iff.trans ⟨?_, ?_⟩
  · rintro ⟨_, rest, -, hrest, rfl⟩
    exact ⟨rest, hrest, rfl⟩
  · rintro ⟨rest, hrest, rfl⟩
    exact ⟨(), rest, trivial, hrest, rfl⟩

/-- **A span makes no difference to the dialogues of a program.** -/
theorem dialogue_within {y : Completion α} (s : Span) :
    Dialogue me (p.within s) told y ↔ Dialogue me p told y := by
  induction p generalizing told with
  | done | halt => exact Iff.rfl
  | ask c next ih =>
    have hstep : (∃ x rest, c.Answers me x ∧ Dialogue me ((next x).within s) rest y ∧
        told = .of c x :: rest) ↔
        ∃ x rest, c.Answers me x ∧ Dialogue me (next x) rest y ∧ told = .of c x :: rest :=
      exists_congr fun x => exists_congr fun rest => by rw [ih]
    cases c with
    | say output =>
      cases output with
      | event scope e =>
        -- The event is reported within one span more, which is not put on record.
        refine (dialogue_call_iff (c := .say (.event (s :: scope) e))).trans ?_
        exact hstep.trans dialogue_call_iff.symm
      | line | errorLine => exact dialogue_call_iff.trans (hstep.trans dialogue_call_iff.symm)
    | _ => exact dialogue_call_iff.trans (hstep.trans dialogue_call_iff.symm)

end Dialogue

/-! ## What was told -/

namespace Call

/-- The calls that make the directory of a lock file.  An attempt begins with one. -/
def makesDirs : Call → Bool
  | makeDirs _ => true
  | _ => false

/-- The calls about time and registry. -/
def timesOrRegisters : Call → Bool
  | now | sleep _ | isRegistered _ | register _ | unregister _ => true
  | _ => false

/-- How long a process pauses. -/
def pause? : Call → Option Duration
  | sleep time => some time
  | _ => none

end Call

/-- The number of attempts in a dialogue. -/
def attemptsIn (told : List Exchange) : Nat := told.countP (·.1.makesDirs)

/-- The pauses in a dialogue. -/
def pausesIn (told : List Exchange) : List Duration := told.filterMap (·.1.pause?)

section Told
variable (t t' : List Exchange) (x : Exchange)

@[simp] theorem attemptsIn_nil : attemptsIn [] = 0 := rfl

@[simp] theorem attemptsIn_append : attemptsIn (t ++ t') = attemptsIn t + attemptsIn t' :=
  List.countP_append

theorem attemptsIn_cons : attemptsIn (x :: t) = attemptsIn t + x.1.makesDirs.toNat := by
  unfold attemptsIn
  rw [List.countP_cons]
  cases x.1.makesDirs <;> rfl

@[simp] theorem pausesIn_nil : pausesIn [] = [] := rfl

@[simp] theorem pausesIn_append : pausesIn (t ++ t') = pausesIn t ++ pausesIn t' :=
  List.filterMap_append

end Told

theorem pausesIn_eq_nil {t : List Exchange} (h : ∀ x ∈ t, x.1.timesOrRegisters = false) :
    pausesIn t = [] := by
  refine List.filterMap_eq_nil_iff.2 fun x hx => ?_
  have hkind := h x hx
  cases hc : x.1 with
  | sleep =>
    rw [hc] at hkind
    cases hkind
  | _ => rfl

/-! ## Dialogues and the protocol -/

/-- The roles through which a dialogue proceeds. -/
inductive Proceeds (path : Path) (me : Pid) : Role → List Exchange → Role → Prop
  | nil {r : Role} : Proceeds path me r [] r
  | cons {r r' r'' : Role} {x : Exchange} {told : List Exchange} :
      Follows path me r x.1 x.2 r' → Proceeds path me r' told r'' → Proceeds path me r (x :: told) r''

section Proceeds
variable {path : Path} {me : Pid} {r r' : Role} {told : List Exchange}

theorem Follows.of_record {c : Call} {x : c.Answer} (h : Follows path me r c x r') :
    Follows path me r (Exchange.of c x).1 (Exchange.of c x).2 r' := by
  cases c with
  | say output =>
    cases output with
    | event scope e =>
      cases h with
      | say => exact .say
      | stamped h | unstamped h => cases h
    | line | errorLine => exact h
  | _ => exact h

/-- **A program that follows the protocol goes from role to role**, whatever it is told. -/
theorem Dialogue.proceeds {α : Type} {p : Program α} {z : Completion α}
    {Q : Completion α → Role → Prop} (h : Dialogue me p told z) (hp : p.Obeys path me Q r) :
    ∃ r', Proceeds path me r told r' ∧ Q z r' := by
  induction h generalizing r with
  | done | halt => exact ⟨r, .nil, hp⟩
  | ask hx hrest ih =>
    obtain ⟨r₁, hfollows, hnext⟩ := hp _ hx
    obtain ⟨r', hproceeds, hQ⟩ := ih hnext
    exact ⟨r', .cons hfollows.of_record hproceeds, hQ⟩

theorem Follows.timesOrRegisters {c : Call} {x : c.Answer} (h : Follows path me r c x r') :
    c.timesOrRegisters = false := by
  cases h with
  | stamped h | unstamped h => cases h <;> rfl
  | _ => rfl

/-- The protocol has no use for clock and registry. -/
theorem Proceeds.timesOrRegisters (h : Proceeds path me r told r') :
    ∀ x ∈ told, x.1.timesOrRegisters = false := by
  induction h with
  | nil => exact List.forall_mem_nil _
  | cons hfollows _ ih => exact List.forall_mem_cons.2 ⟨hfollows.timesOrRegisters, ih⟩

/-- Whether the lock directory is made already. -/
def Role.isInside : Role → Bool
  | .outside => false
  | _ => true

theorem Follows.isInside {c : Call} {x : c.Answer} (h : Follows path me r c x r') :
    r.isInside.toNat + c.makesDirs.toNat = r'.isInside.toNat := by
  cases h with
  | opened hr | unopened hr => rcases hr with rfl | rfl <;> rfl
  | stamped h | unstamped h => cases h <;> rfl
  | _ => rfl

theorem Proceeds.attempts (h : Proceeds path me r told r') :
    r.isInside.toNat + attemptsIn told = r'.isInside.toNat := by
  induction h with
  | nil => rfl
  | cons hfollows _ ih =>
    rw [attemptsIn_cons, ← ih, ← hfollows.isInside]
    omega

end Proceeds

/-! ## The time that is told -/

/-- What a clock that never goes back tells, and sleeps that last as long as they should, if it
    is at least some time already. -/
def Timely : Duration → List Exchange → Prop
  | _, [] => True
  | time, ⟨.now, reading⟩ :: told => time ≤ reading ∧ Timely reading told
  | time, ⟨.sleep pause, _⟩ :: told => Timely (time + pause) told
  | time, _ :: told => Timely time told

theorem Timely.mono {time time' : Duration} {told : List Exchange} (h : Timely time' told)
    (hle : time ≤ time') : Timely time told := by
  induction told generalizing time time' with
  | nil => trivial
  | cons x told ih =>
    obtain ⟨c, answer⟩ := x
    cases c with
    | now => exact ⟨Nat.le_trans hle h.1, h.2⟩
    | sleep => exact ih h (Nat.add_le_add_right hle _)
    | _ => exact ih h hle

/-- Whoever does not look at the clock does not tell the time. -/
theorem timely_append {t told : List Exchange} (h : ∀ x ∈ t, x.1.timesOrRegisters = false)
    (time : Duration) : Timely time (t ++ told) ↔ Timely time told := by
  induction t with
  | nil => exact Iff.rfl
  | cons x t ih =>
    obtain ⟨hx, ht⟩ := List.forall_mem_cons.1 h
    obtain ⟨c, answer⟩ := x
    cases c with
    | now | sleep => cases hx
    | _ => exact ih ht

/-- **What a program is told on a machine is timely**, whatever fails and whatever others do. -/
theorem Course.dialogue {α : Type} {me : Pid} {p : Program α} {m m' : Machine}
    {trace : List Incident} {z : Completion α} (h : Course me p m trace z m') :
    ∃ told, Dialogue me p told z ∧ Timely m.clock told := by
  induction h with
  | done => exact ⟨[], .done, trivial⟩
  | halt => exact ⟨[], .halt, trivial⟩
  | @ask c next m m₁ m₂ m' manner x trace z hreply helse hrest ih =>
    obtain ⟨told, htold, htime⟩ := ih
    refine ⟨_, .ask hreply.answers htold, ?_⟩
    have hlater : m.clock ≤ m₂.clock := Nat.le_trans hreply.clock helse.clock
    cases c with
    | now =>
      obtain ⟨rfl, rfl⟩ := hreply.of_aside trivial
      exact ⟨Nat.le_add_right _ _, htime.mono helse.clock⟩
    | sleep pause =>
      obtain ⟨-, rfl⟩ := hreply.of_aside trivial
      refine htime.mono (Nat.le_trans ?_ helse.clock)
      exact Nat.add_le_add_right (Nat.le_add_right _ _) _
    | say output => cases output <;> exact htime.mono hlater
    | _ => exact htime.mono hlater

end NamedMutex
