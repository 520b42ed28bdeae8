/-
  Programs with nobody else at work, on a machine that may be out of order, whatever the time is.

  A machine answers the calls of such a program itself, or tells of a failure where files and
  locks have no say: there may be no room for a directory or for one more open file, and what
  was there at the outset may be such that one can neither look at it nor read it.  A file that
  the program has made since is in order.  Between the calls any time may go by.

  * `MayFail` says which calls may fail, `Serves` how a call may be answered, and `Solitary` what
    a program comes to then; `solitary_run`: what it comes to on a machine without failures is
    such;
  * `Program.Leaves` says how all these courses end; `Leaves.call`, `Leaves.sure` and
    `Leaves.bind` follow a program call by call, and time is no matter to any of them;
  * `Program.Looks`: programs that only look at a machine; `Neutral.looks`: what makes no
    difference to the protocol is such.
-/
import NamedMutex.Proofs.Furnishings
import NamedMutex.Proofs.Patience

namespace NamedMutex

namespace Machine

/-- The calls that may fail for other reasons than the files and locks of a machine, if `disk` is
    what was there at the outset.  Those that are given a path alone may, and so may unlocking.  An
    open file can be neither looked at nor read if its node is out of order, which may be so of any
    node that was there at the outset; one that was made since is an empty file, and is where it
    was made.  What is no regular file may not let one go back to its start.  A file that is open
    can be locked if nobody else has locked it, and it can be cut and written. -/
def MayFail (disk : FileTree) (m : Machine) : Call → Prop
  | .makeDirs _ | .openFile _ | .readPath _ | .unlink _ | .unlock _ => True
  | .leadsTo _ d | .read d =>
    ∃ f, m.opened.get? d = some f ∧ (disk.node? f.inode).isSome = true
  | .rewind d => ∃ f, m.opened.get? d = some f ∧ m.tree.file? f.inode = none
  | _ => False

/-- The answers to a call with nobody else at work, and the machines after them. -/
inductive Serves (disk : FileTree) (m : Machine) (me : Pid) : (c : Call) → c.Answer → Machine → Prop
  | answered {c : Call} : Serves disk m me c (m.answer me c).1 (m.answer me c).2
  | failed {c : Call} {x : c.Answer} {e : IoError} :
      m.MayFail disk c → c.failed? e = some x → Serves disk m me c x m
  /-- Some of the directories have been made before the failure. -/
  | halfway {dir : Path} {n : Nat} {e : IoError} : Serves disk m me (.makeDirs dir) (.error e)
      (m.setTree (FileTree.makeDirsUpTo dir n m.tree).1)

section Serves
variable {disk : FileTree} {m m' : Machine} {me : Pid} {c : Call} {x : c.Answer}

theorem WellFormed.moment (hw : m.WellFormed) (clock : Duration) (said : List (Pid × Output)) :
    (m.moment clock said).WellFormed :=
  ⟨hw.tree, hw.openedKeys, hw.lockKeys, hw.opened, hw.locked⟩

/-- A call that cannot fail is answered as the machine stands. -/
theorem Serves.of_sure (h : m.Serves disk me c x m') (hc : ¬ m.MayFail disk c) :
    x = (m.answer me c).1 ∧ m' = (m.answer me c).2 := by
  cases h with
  | answered => exact ⟨rfl, rfl⟩
  | failed hmay => exact absurd hmay hc
  | halfway => exact absurd trivial hc

theorem Serves.wellFormed (h : m.Serves disk me c x m') (hw : m.WellFormed) : m'.WellFormed := by
  cases h with
  | answered => exact answer_wellFormed hw me c
  | failed => exact hw
  | @halfway dir n e =>
    have hgrows := (FileTree.makeDirsUpTo_builds dir n m.tree).grows hw.tree
    exact hw.setTree hgrows.wellFormed hgrows.toWithin.keeps

theorem Serves.answers (h : m.Serves disk me c x m') : c.Answers me x := by
  cases h with
  | answered => cases c <;> trivial
  | failed _ he =>
    cases c with
    | ownPid => cases he
    | _ => trivial
  | halfway => trivial

/-- A call is answered at any time as it is at any other, unless it asks for the time. -/
theorem Serves.of_moment {clock : Duration} {said : List (Pid × Output)}
    (h : (m.moment clock said).Serves disk me c x m') (hc : asksTime c = false) :
    ∃ n clock' said', m.Serves disk me c x n ∧ m' = n.moment clock' said' := by
  cases h with
  | answered =>
    rw [answer_moment hc]
    exact ⟨_, _, _, .answered, rfl⟩
  | failed hmay he =>
    have hmay' : m.MayFail disk c := by
      cases c <;> exact hmay
    exact ⟨m, clock, said, .failed hmay' he, rfl⟩
  | halfway => exact ⟨_, clock, said, .halfway, rfl⟩

end Serves

end Machine

/-! ## Courses -/

open Machine

/-- What a program comes to with nobody else at work; any time goes by before each call, and
    at the end. -/
inductive Solitary (disk : FileTree) (me : Pid) {α : Type} :
    Program α → Machine → Completion α → Machine → Prop
  | done {a : α} {m : Machine} {clock : Duration} {said : List (Pid × Output)} :
      Solitary disk me (.done a) m (.returned a) (m.moment clock said)
  | halt {h : Halt} {m : Machine} {clock : Duration} {said : List (Pid × Output)} :
      Solitary disk me (.halt h) m (.halted h) (m.moment clock said)
  | ask {c : Call} {next : c.Answer → Program α} {m m₁ m' : Machine} {clock : Duration}
      {said : List (Pid × Output)} {x : c.Answer} {z : Completion α} :
      (m.moment clock said).Serves disk me c x m₁ → Solitary disk me (next x) m₁ z m' →
      Solitary disk me (.ask c next) m z m'

section Solitary
variable {α β : Type} {disk : FileTree} {me : Pid} {m m' : Machine} {p : Program α}
  {f : α → Program β}

theorem Solitary.of_moment {z : Completion α} {clock : Duration} {said : List (Pid × Output)}
    (h : Solitary disk me p (m.moment clock said) z m') : Solitary disk me p m z m' := by
  cases h with
  | done => exact .done
  | halt => exact .halt
  | ask hserves hrest => exact .ask hserves hrest

theorem Solitary.wellFormed {z : Completion α} (h : Solitary disk me p m z m') (hw : m.WellFormed) :
    m'.WellFormed := by
  induction h with
  | done | halt => exact hw.moment _ _
  | ask hserves _ ih => exact ih (hserves.wellFormed (hw.moment _ _))

theorem Solitary.of_bind {z : Completion β} (h : Solitary disk me (p >>= f) m z m') :
    (∃ a m₁, Solitary disk me p m (.returned a) m₁ ∧ Solitary disk me (f a) m₁ z m') ∨
      ∃ e, Solitary disk me p m (.halted e) m' ∧ z = .halted e := by
  induction p generalizing m with
  | done a => exact Or.inl ⟨a, m, .done, h⟩
  | halt e =>
    cases h
    exact Or.inr ⟨e, .halt, rfl⟩
  | ask c next ih =>
    cases h with
    | ask hserves hrest =>
      rcases ih _ hrest with ⟨a, m₁, hfirst, hsecond⟩ | ⟨e, hfirst, rfl⟩
      · exact Or.inl ⟨a, m₁, .ask hserves hfirst, hsecond⟩
      · exact Or.inr ⟨e, .ask hserves hfirst, rfl⟩

theorem Solitary.of_within {z : Completion α} {s : Span}
    (h : Solitary disk me (p.within s) m z m') : Solitary disk me p m z m' := by
  induction p generalizing m with
  | done | halt => exact h
  | ask c next ih =>
    cases c with
    | say output =>
      cases output with
      | event scope e =>
        cases h with
        | @ask _ _ _ _ _ clock said _ _ hserves hrest =>
          -- the machine after the call differs in what was said, which is no matter
          obtain ⟨-, rfl⟩ := hserves.of_sure id
          have hplain : (m.moment clock said).Serves disk me (.say (.event scope e)) () _ :=
            .answered
          exact .ask hplain (Solitary.of_moment (ih () hrest))
      | line | errorLine =>
        cases h with
        | ask hserves hrest => exact .ask hserves (ih _ hrest)
    | _ =>
      cases h with
      | ask hserves hrest => exact .ask hserves (ih _ hrest)

theorem Solitary.of_capture {z : Completion (Completion α)}
    (h : Solitary disk me p.capture m z m') : ∃ y, z = .returned y ∧ Solitary disk me p m y m' := by
  induction p generalizing m with
  | done a =>
    cases h
    exact ⟨_, rfl, .done⟩
  | halt e =>
    cases h
    exact ⟨_, rfl, .halt⟩
  | ask c next ih =>
    cases h with
    | ask hserves hrest =>
      obtain ⟨y, rfl, hcourse⟩ := ih _ hrest
      exact ⟨y, rfl, .ask hserves hcourse⟩

end Solitary

/-! ## How courses end -/

namespace Program

variable {α β : Type}

/-- All courses of a program with nobody else at work end so. -/
def Leaves (p : Program α) (disk : FileTree) (me : Pid) (m : Machine)
    (Q : Completion α → Machine → Prop) : Prop := ∀ z m', Solitary disk me p m z m' → Q z m'

/-- A program that ends with a value and leaves the machine as it is. -/
def Looks (p : Program α) (disk : FileTree) (me : Pid) (m : Machine) : Prop :=
  p.Leaves disk me m fun z m' => (∃ a, z = .returned a) ∧ ∃ clock said, m' = m.moment clock said

variable {disk : FileTree} {me : Pid} {m m₁ : Machine} {p : Program α} {f : α → Program β}
  {Q R : Completion α → Machine → Prop} {S : Completion β → Machine → Prop} {c : Call}
  {next : c.Answer → Program β}

theorem leaves_pure {a : α} (h : ∀ clock said, Q (.returned a) (m.moment clock said)) :
    (pure a : Program α).Leaves disk me m Q := by
  intro z m' hcourse
  cases hcourse
  exact h _ _

theorem Leaves.imp (h : p.Leaves disk me m Q) (hq : ∀ z m', Q z m' → R z m') :
    p.Leaves disk me m R :=
  fun z m' hcourse => hq z m' (h z m' hcourse)

theorem Leaves.wellFormed (h : p.Leaves disk me m Q) (hw : m.WellFormed) :
    p.Leaves disk me m fun z m' => Q z m' ∧ m'.WellFormed :=
  fun z m' hcourse => ⟨h z m' hcourse, hcourse.wellFormed hw⟩

theorem Leaves.within (h : p.Leaves disk me m Q) (s : Span) : (p.within s).Leaves disk me m Q :=
  fun z m' hcourse => h z m' hcourse.of_within

theorem Leaves.capture (h : p.Leaves disk me m Q) :
    p.capture.Leaves disk me m fun z m' => ∃ y, z = .returned y ∧ Q y m' := by
  intro z m' hcourse
  obtain ⟨y, rfl, hplain⟩ := hcourse.of_capture
  exact ⟨y, rfl, h y m' hplain⟩

/-- A program goes on from wherever its first part ends. -/
theorem Leaves.bind (h : p.Leaves disk me m Q)
    (hf : ∀ a m', Q (.returned a) m' → (f a).Leaves disk me m' S)
    (hhalt : ∀ e m', Q (.halted e) m' → S (.halted e) m') : (p >>= f).Leaves disk me m S := by
  intro z m' hcourse
  rcases hcourse.of_bind with ⟨a, m₁, hfirst, hsecond⟩ | ⟨e, hfirst, rfl⟩
  · exact hf a m₁ (h _ _ hfirst) _ _ hsecond
  · exact hhalt e m' (h _ _ hfirst)

theorem Leaves.moment (h : p.Leaves disk me m Q) (clock : Duration) (said : List (Pid × Output)) :
    p.Leaves disk me (m.moment clock said) Q := fun z m' hcourse => h z m' hcourse.of_moment

/-- A program goes on with whatever its first call is answered. -/
theorem Leaves.call (hc : asksTime c = false)
    (h : ∀ x m₁, m.Serves disk me c x m₁ → (next x).Leaves disk me m₁ S) :
    (Program.call c >>= next).Leaves disk me m S := by
  intro z m' hcourse
  cases hcourse with
  | ask hserves hrest =>
    obtain ⟨n, clock, said, hserves', rfl⟩ := hserves.of_moment hc
    exact h _ n hserves' _ _ hrest.of_moment

theorem Leaves.sure {x : c.Answer} (hc : asksTime c = false) (hsure : ¬ m.MayFail disk c)
    (hanswer : m.answer me c = (x, m₁)) (h : (next x).Leaves disk me m₁ S) :
    (Program.call c >>= next).Leaves disk me m S := by
  refine Leaves.call hc fun y n hserves => ?_
  obtain ⟨rfl, rfl⟩ := hserves.of_sure hsure
  rw [hanswer]
  exact h

theorem Leaves.now {next : Duration → Program β} (h : ∀ time, (next time).Leaves disk me m S) :
    (Program.call .now >>= next).Leaves disk me m S := by
  intro z m' hcourse
  cases hcourse with
  | ask hserves hrest =>
    obtain ⟨rfl, rfl⟩ := hserves.of_sure id
    exact h _ _ _ hrest.of_moment

theorem Leaves.report {e : Event} {next : Unit → Program β} (h : (next ()).Leaves disk me m S) :
    (Program.report e >>= next).Leaves disk me m S :=
  Leaves.sure (c := .say (.event [] e)) rfl id rfl (h.moment m.clock _)

/-! ## Looking -/

theorem looks_pure (a : α) : (pure a : Program α).Looks disk me m :=
  leaves_pure fun clock said => ⟨⟨a, rfl⟩, clock, said, rfl⟩

theorem Looks.bind (h : p.Looks disk me m) (hf : ∀ a, (f a).Leaves disk me m S) :
    (p >>= f).Leaves disk me m S := by
  refine Leaves.bind h (fun a m' hq => ?_) (fun e m' hq => ?_)
  · obtain ⟨-, clock, said, rfl⟩ := hq
    exact (hf a).moment clock said
  · obtain ⟨⟨a, ha⟩, -⟩ := hq
    cases ha

/-- What makes no difference to any role only looks at a machine: no role has any other part
    but to say something, to ask about processes, and to read what is at a path. -/
theorem Neutral.looks {path : Path} (hp : Neutral path me p) : p.Looks disk me m := by
  have hobeys := hp (.out none)
  clear hp
  induction p with
  | done a => exact looks_pure a
  | halt => exact hobeys.elim
  | ask c next ih =>
    intro z m' hcourse
    cases hcourse with
    | @ask _ _ _ m₁ _ clock said x _ hserves hrest =>
      have hx : c.Answers me x := hserves.answers
      obtain ⟨r', hfollows, hnext⟩ := hobeys x hx
      have hafter : ∀ {clock' said'}, m₁ = m.moment clock' said' → r' = .out none →
          (∃ a, z = .returned a) ∧ ∃ clock said, m' = m.moment clock said := by
        rintro clock' said' rfl rfl
        exact (ih x hnext).moment clock' said' z m' hrest
      cases hfollows with
      | say | ownPid | probe =>
        obtain ⟨-, hm⟩ := hserves.of_sure id
        exact hafter hm rfl
      | readPath => cases hserves <;> exact hafter rfl rfl
      | opened hr | unopened hr => rcases hr with hr | hr <;> cases hr

end Program

end NamedMutex
