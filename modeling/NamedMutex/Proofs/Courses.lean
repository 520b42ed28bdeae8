/-
  Courses of a program among others.

  Between two calls of a process the others may do what they like to the files on the
  machine, as long as they leave alone what the process itself has: the files that it has
  open, the locks of these, and its registry.  A course of a program is what it comes to
  then: the calls that it makes, each with its answer and the machine that it met.

  * `Elsewhere` is what others do; `elsewhere_of_other` says that their calls are such;
  * `Course` is a course of a program among them, and `Course.alone` the one that it has
    if nobody else is at work;
  * `Program.Among` says how all courses of a program end; `Among.bind`, `Among.call` and
    `Among.within` follow a program call by call.
-/
import NamedMutex.Proofs.Plays

namespace NamedMutex

namespace Call

/-- The open file that a call is about. -/
def file? : Call → Option Descriptor
  | tryLock d | leadsTo _ d | read d | truncate d | rewind d | write d _ | unlock d | close d =>
    some d
  | _ => none

/-- The calls that open a file or close one. -/
def opensOrCloses : Call → Bool
  | openFile _ | close _ => true
  | _ => false

/-- The calls that lock a file or unlock one. -/
def locksOrUnlocks : Call → Bool
  | tryLock _ | unlock _ | close _ => true
  | _ => false

end Call

namespace Machine

/-- What leaves alone the files that a process has open, and their locks.  Time does not
    go back. -/
structure Untouched (me : Pid) (m m' : Machine) : Prop where
  wellFormed : m.WellFormed → m'.WellFormed
  opened : ∀ d f, f.process = me → (m'.opened.get? d = some f ↔ m.opened.get? d = some f)
  locks : ∀ i d f, m.opened.get? d = some f → f.process = me →
    (m'.locks.get? i = some d ↔ m.locks.get? i = some d)
  clock : m.clock ≤ m'.clock

/-- What others do leaves alone what a process has. -/
structure Elsewhere (me : Pid) (m m' : Machine) : Prop extends Untouched me m m' where
  registry : m'.registry me = m.registry me

variable {me you : Pid} {m m' m'' : Machine}

theorem Untouched.refl (m : Machine) : Untouched me m m :=
  ⟨id, fun _ _ _ => Iff.rfl, fun _ _ _ _ _ => Iff.rfl, Nat.le_refl _⟩

theorem Elsewhere.refl (m : Machine) : Elsewhere me m m := ⟨.refl m, rfl⟩

theorem Untouched.trans (h : Untouched me m m') (h' : Untouched me m' m'') :
    Untouched me m m'' where
  wellFormed hw := h'.wellFormed (h.wellFormed hw)
  opened d f hf := (h'.opened d f hf).trans (h.opened d f hf)
  locks i d f hd hf := (h'.locks i d f ((h.opened d f hf).2 hd) hf).trans (h.locks i d f hd hf)
  clock := Nat.le_trans h.clock h'.clock

theorem Elsewhere.of_said {said said' : List (Pid × Output)}
    (h : Elsewhere me { m with said := said } m') : Elsewhere me { m with said := said' } m' :=
  ⟨⟨fun hw => h.wellFormed ⟨hw.tree, hw.openedKeys, hw.lockKeys, hw.opened, hw.locked⟩,
    h.opened, h.locks, h.clock⟩, h.registry⟩

/-! ## Calls of others -/

/-- What a call of a process may do to the files that are open, to locks and to registries. -/
structure Effect (you : Pid) (c : Call) (m m' : Machine) : Prop where
  /-- A call that opens no file and closes none may move the one that it is about to another
      place. -/
  opened : c.opensOrCloses = false → ∀ d, m'.opened.get? d = m.opened.get? d ∨
    ∃ f o, c.file? = some d ∧ m.opened.get? d = some f ∧
      m'.opened.get? d = some { f with offset := o }
  locks : c.locksOrUnlocks = false → m'.locks = m.locks
  registry : ∀ me, you ≠ me → m'.registry me = m.registry me
  clock : m.clock ≤ m'.clock

section Effect
variable {c : Call}

theorem Effect.same (hopened : m'.opened = m.opened) (hlocks : m'.locks = m.locks)
    (hregistries : m'.registries = m.registries) (hclock : m.clock ≤ m'.clock) :
    Effect you c m m' where
  opened _ d := Or.inl (by rw [hopened])
  locks _ := hlocks
  registry me _ := by simp only [Machine.registry, hregistries]
  clock := hclock

theorem Effect.seek {d : Descriptor} {f : OpenFile} (hfile : c.file? = some d)
    (hd : m.opened.get? d = some f) (t : FileTree) (o : Nat) :
    Effect you c m ((m.setTree t).seek d f o) where
  opened _ d' := by
    by_cases h : d' = d
    · subst h
      exact Or.inr ⟨f, o, hfile, hd, opened_seek.trans (if_pos rfl)⟩
    · exact Or.inl (opened_seek.trans (if_neg h))
  locks _ := rfl
  registry _ _ := rfl
  clock := Nat.le_refl _

/-- **What a call may do**, to what is not its own business. -/
theorem effect (you : Pid) (c : Call) (m : Machine) : Effect you c m (m.answer you c).2 := by
  have hset : ∀ c r, Effect you c m (m.setRegistry you r) := by
    intro c r
    refine ⟨fun _ _ => Or.inl rfl, fun _ => rfl, fun me hme => ?_, Nat.le_refl _⟩
    simp only [Machine.registry, setRegistry, Table.get?_insert, if_neg hme.symm]
  cases c with
  | register | unregister => exact hset _ _
  | openFile p =>
    simp only [answer]
    split
    · exact ⟨(fun h => by cases h), fun _ => rfl, fun _ _ => rfl, Nat.le_refl _⟩
    · exact .same rfl rfl rfl (Nat.le_refl _)
  | tryLock d =>
    obtain ⟨x, m', hx⟩ : ∃ x m', m.tryLock d = (x, m') := ⟨_, _, rfl⟩
    simp only [answer, hx]
    rcases tryLock_cases hx with ⟨_, -, rfl⟩ | ⟨_, -, -, ⟨-, rfl⟩ | ⟨-, rfl⟩⟩
    · exact .same rfl rfl rfl (Nat.le_refl _)
    · exact .same rfl rfl rfl (Nat.le_refl _)
    · exact ⟨fun _ _ => Or.inl rfl, (fun h => by cases h), fun _ _ => rfl, Nat.le_refl _⟩
  | unlock d =>
    simp only [answer]
    split
    · exact ⟨fun _ _ => Or.inl rfl, (fun h => by cases h), fun _ _ => rfl, Nat.le_refl _⟩
    · exact .same rfl rfl rfl (Nat.le_refl _)
  | close d => exact ⟨(fun h => by cases h), (fun h => by cases h), fun _ _ => rfl, Nat.le_refl _⟩
  | read d =>
    simp only [answer, Machine.read]
    split
    · exact .same rfl rfl rfl (Nat.le_refl _)
    · rename_i hd
      exact .seek rfl hd m.tree _
  | rewind d =>
    simp only [answer, Machine.rewind]
    split
    · exact .same rfl rfl rfl (Nat.le_refl _)
    · rename_i hd
      exact .seek rfl hd m.tree _
  | write d bytes =>
    obtain ⟨x, m', hx⟩ : ∃ x m', m.write d bytes = (x, m') := ⟨_, _, rfl⟩
    simp only [answer, hx]
    rcases write_cases hx with rfl | ⟨_, _, _, _, -, hd, -, rfl⟩
    · exact .same rfl rfl rfl (Nat.le_refl _)
    · exact .seek rfl hd _ _
  | truncate d =>
    obtain ⟨x, m', hx⟩ : ∃ x m', m.truncate d = (x, m') := ⟨_, _, rfl⟩
    simp only [answer, hx]
    rcases truncate_cases hx with ⟨_, -, rfl⟩ | ⟨_, _, _, _, -, -, -, rfl⟩ <;>
      exact .same rfl rfl rfl (Nat.le_refl _)
  | unlink =>
    simp only [answer]
    split <;> exact .same rfl rfl rfl (Nat.le_refl _)
  | sleep => exact .same rfl rfl rfl (Nat.le_add_right _ _)
  | makeDirs | leadsTo | readPath | ownPid | probe | now | isRegistered | say =>
    exact .same rfl rfl rfl (Nat.le_refl _)

end Effect

section Others
variable {c : Call} {d : Descriptor} {f : OpenFile} {i : Inode} (hw : m.WellFormed)
  (hc : ∀ d f, c.file? = some d → m.opened.get? d = some f → f.process ≠ me)
include hw hc

theorem opened_of_other (hyou : you ≠ me) (hf : f.process = me) :
    (m.answer you c).2.opened.get? d = some f ↔ m.opened.get? d = some f := by
  cases hopens : c.opensOrCloses with
  | false =>
    rcases (effect you c m).opened hopens d with hsame | ⟨g, o, hfile, hg, hafter⟩
    · rw [hsame]
    · have hne := hc d g hfile hg
      rw [hafter, hg]
      constructor <;> intro h <;> cases h <;> exact absurd hf hne
  | true =>
    cases c with
    | openFile p =>
      simp only [answer]
      split
      · show (m.opened.insert m.nextDescriptor _).get? d = some f ↔ _
        rw [Table.get?_insert]
        split
        · rename_i hd
          constructor
          · intro h
            cases h
            exact absurd hf hyou
          · exact fun h => absurd (hw.opened h).1 (Nat.not_lt.2 (Nat.le_of_eq hd.symm))
        · exact Iff.rfl
      · exact Iff.rfl
    | close d' =>
      show (m.close d').opened.get? d = some f ↔ _
      rw [opened_close]
      split
      · rename_i hd
        subst hd
        exact ⟨(fun h => by cases h), fun h => absurd hf (hc _ _ rfl h)⟩
      · exact Iff.rfl
    | _ => cases hopens

theorem locks_of_other (hd : m.opened.get? d = some f) (hf : f.process = me) :
    (m.answer you c).2.locks.get? i = some d ↔ m.locks.get? i = some d := by
  have hne : ∀ {d' g}, c.file? = some d' → m.opened.get? d' = some g → d ≠ d' := by
    rintro d' g hfile hg rfl
    rw [hd] at hg
    cases hg
    exact hc _ _ hfile hd hf
  cases hlocks : c.locksOrUnlocks with
  | false => rw [(effect you c m).locks hlocks]
  | true =>
    cases c with
    | tryLock d' =>
      obtain ⟨x, m', hx⟩ : ∃ x m', m.tryLock d' = (x, m') := ⟨_, _, rfl⟩
      simp only [answer, hx]
      rcases tryLock_cases hx with ⟨_, -, rfl⟩ | ⟨g, -, hd', ⟨-, rfl⟩ | ⟨hfree, rfl⟩⟩
      · exact Iff.rfl
      · exact Iff.rfl
      · simp only [Table.get?_insert]
        split
        · rename_i hi
          rw [hi, hfree]
          exact ⟨fun h => absurd (Option.some.inj h).symm (hne rfl hd'), fun h => by cases h⟩
        · exact Iff.rfl
    | unlock d' =>
      simp only [answer]
      split
      · rename_i hopen
        obtain ⟨g, hd'⟩ := Option.isSome_iff_exists.1 hopen
        exact (locks_dropLock hw).trans ⟨And.left, fun h => ⟨h, hne rfl hd'⟩⟩
      · exact Iff.rfl
    | close d' =>
      refine (locks_close hw).trans ⟨And.left, fun h => ⟨h, ?_⟩⟩
      rintro rfl
      exact hc _ _ rfl hd hf
    | _ => cases hlocks

end Others

/-- **What a call of another process does is done elsewhere**, unless it is about a file of
    this process. -/
theorem elsewhere_of_other {c : Call} (hw : m.WellFormed) (hyou : you ≠ me)
    (hc : ∀ d f, c.file? = some d → m.opened.get? d = some f → f.process ≠ me) :
    Elsewhere me m (m.perform you c).2 where
  wellFormed _ := answer_wellFormed hw.tick you c
  opened _ _ hf := opened_of_other hw.tick hc hyou hf
  locks _ _ _ hd hf := locks_of_other hw.tick hc hd hf
  clock := Nat.le_trans (Nat.le_add_right _ _) (effect you c m.tick).clock
  registry := (effect you c m.tick).registry me hyou

end Machine

/-! ## Courses -/

/-- A call of a process, the machine that it met, and the answer to it. -/
structure Incident where
  machine : Machine
  call : Call
  answer : call.Answer

/-- What is kept of a call.  Reports are not, for nothing depends on them. -/
def Incident.record (m : Machine) : (c : Call) → c.Answer → List Incident
  | .say (.event _ _), _ => []
  | c, x => [⟨m, c, x⟩]

/-- The courses of a program of the process `me`, with what others do after each call. -/
inductive Course (me : Pid) {α : Type} :
    Program α → Machine → List Incident → Completion α → Machine → Prop
  | done {a : α} {m : Machine} : Course me (.done a) m [] (.returned a) m
  | halt {h : Halt} {m : Machine} : Course me (.halt h) m [] (.halted h) m
  | ask {c : Call} {next : c.Answer → Program α} {m m₁ m₂ m' : Machine} {manner : Manner}
      {x : c.Answer} {trace : List Incident} {z : Completion α} :
      Replies m me manner c x m₁ → Machine.Elsewhere me m₁ m₂ → Course me (next x) m₂ trace z m' →
      Course me (.ask c next) m (Incident.record m c x ++ trace) z m'

section Course
variable {α β : Type} {me : Pid} {m m' : Machine} {p : Program α} {f : α → Program β}
  {trace : List Incident}

/-- **What a program does alone is a course of it.** -/
theorem Course.alone (me : Pid) (p : Program α) (m : Machine) :
    ∃ trace, Course me p m trace (m.run me p).1 (m.run me p).2 := by
  induction p generalizing m with
  | done => exact ⟨[], .done⟩
  | halt => exact ⟨[], .halt⟩
  | ask c next ih =>
    obtain ⟨trace, hrest⟩ := ih (m.perform me c).1 (m.perform me c).2
    exact ⟨_, .ask .answered (.refl _) hrest⟩

theorem Course.of_bind {z : Completion β} (h : Course me (p >>= f) m trace z m') :
    (∃ a t₁ m₁ t₂, Course me p m t₁ (.returned a) m₁ ∧ Course me (f a) m₁ t₂ z m' ∧
      trace = t₁ ++ t₂) ∨ ∃ e, Course me p m trace (.halted e) m' ∧ z = .halted e := by
  induction p generalizing m trace with
  | done a => exact Or.inl ⟨a, [], m, trace, .done, h, rfl⟩
  | halt e =>
    cases h
    exact Or.inr ⟨e, .halt, rfl⟩
  | ask c next ih =>
    cases h with
    | ask hreply helse hrest =>
      rcases ih _ hrest with ⟨a, t₁, m₁, t₂, hfirst, hsecond, rfl⟩ | ⟨e, hfirst, rfl⟩
      · exact Or.inl ⟨a, _, m₁, t₂, .ask hreply helse hfirst, hsecond, (List.append_assoc ..).symm⟩
      · exact Or.inr ⟨e, .ask hreply helse hfirst, rfl⟩

theorem Course.of_within {z : Completion α} {s : Span} (h : Course me (p.within s) m trace z m') :
    Course me p m trace z m' := by
  induction p generalizing m trace with
  | done | halt => exact h
  | ask c next ih =>
    cases c with
    | say output =>
      cases output with
      | event scope e =>
        cases h with
        | ask hreply helse hrest =>
          cases hreply with
          | answered => exact .ask .answered helse.of_said (ih _ hrest)
          | failed he => cases he
      | line | errorLine =>
        cases h with
        | ask hreply helse hrest => exact .ask hreply helse (ih _ hrest)
    | _ =>
      cases h with
      | ask hreply helse hrest => exact .ask hreply helse (ih _ hrest)

end Course

/-! ## How courses end -/

namespace Program

/-- All courses of a program end so. -/
def Among {α : Type} (p : Program α) (me : Pid) (m : Machine)
    (Q : List Incident → Completion α → Machine → Prop) : Prop :=
  ∀ trace z m', Course me p m trace z m' → Q trace z m'

/-- Ends with a value, and so. -/
def Yields {α : Type} (R : List Incident → α → Machine → Prop) :
    List Incident → Completion α → Machine → Prop
  | trace, .returned a, m => R trace a m
  | _, .halted _, _ => False

variable {α β : Type} {me : Pid} {m : Machine} {p : Program α} {f : α → Program β}
  {Q : List Incident → Completion α → Machine → Prop}
  {R : List Incident → Completion β → Machine → Prop}

theorem among_pure {a : α} (h : Q [] (.returned a) m) : (pure a : Program α).Among me m Q := by
  intro trace z m' hcourse
  cases hcourse
  exact h

theorem among_halt {e : Halt} (h : Q [] (.halted e) m) : (halt e : Program α).Among me m Q := by
  intro trace z m' hcourse
  cases hcourse
  exact h

theorem Among.imp {Q' : List Incident → Completion α → Machine → Prop} (h : p.Among me m Q)
    (hq : ∀ trace z m', Q trace z m' → Q' trace z m') : p.Among me m Q' :=
  fun trace z m' hcourse => hq trace z m' (h trace z m' hcourse)

/-- A program goes on with whatever its first call is answered, on whatever the others have
    made of the machine then. -/
theorem Among.call {c : Call} {next : c.Answer → Program β}
    (h : ∀ manner x m₁ m₂, Replies m me manner c x m₁ → Machine.Elsewhere me m₁ m₂ →
      (next x).Among me m₂ fun trace z m' => R (Incident.record m c x ++ trace) z m') :
    (Program.call c >>= next).Among me m R := by
  intro trace z m' hcourse
  cases hcourse with
  | ask hreply helse hrest => exact h _ _ _ _ hreply helse _ _ _ hrest

theorem Among.bind {S : List Incident → α → Machine → Prop} (hp : p.Among me m (Yields S))
    (hf : ∀ t a m₁, S t a m₁ → (f a).Among me m₁ fun trace z m' => R (t ++ trace) z m') :
    (p >>= f).Among me m R := by
  intro trace z m' hcourse
  rcases hcourse.of_bind with ⟨a, t₁, m₁, t₂, hfirst, hsecond, rfl⟩ | ⟨e, hfirst, -⟩
  · exact hf t₁ a m₁ (hp _ _ _ hfirst) _ _ _ hsecond
  · exact (hp _ _ _ hfirst).elim

theorem Among.within (h : p.Among me m Q) (s : Span) : (p.within s).Among me m Q :=
  fun trace z m' hcourse => h trace z m' hcourse.of_within

end Program

end NamedMutex
