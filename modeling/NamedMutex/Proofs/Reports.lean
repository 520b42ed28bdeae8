/-
  What programs that nobody disturbs report.

  On its own a program lets the world see nothing but its events, and these depend neither on
  the time nor on what was said before.

  * `Machine.Reports` says which value a program gives, how it leaves the machine, and which
    events it reports on the way;
  * `Reports.ask`, `Reports.bind`, `Reports.within`: programs are followed call by call, and
    spans do not change what is heard;
  * `Gives.reports`: what a program gives that says nothing (`Program.IsMute`).
-/
import NamedMutex.Proofs.Solo

namespace NamedMutex

open Program

/-- What a process lets the world see, without the spans in which it lies. -/
def Output.bare : Output → Output
  | .event _ e => .event [] e
  | o => o

/-- What was said, the first of it first. -/
def heard (news : List (Pid × Output)) : List (Pid × Output) :=
  news.reverse.map fun x => (x.1, x.2.bare)

/-- Events of one process. -/
def eventsBy (me : Pid) (events : List Event) : List (Pid × Output) :=
  events.map fun e => (me, .event [] e)

@[simp] theorem heard_nil : heard [] = [] := rfl

@[simp] theorem heard_append (news news' : List (Pid × Output)) :
    heard (news ++ news') = heard news' ++ heard news := by
  simp [heard]

@[simp] theorem heard_singleton (pid : Pid) (o : Output) : heard [(pid, o)] = [(pid, o.bare)] := rfl

@[simp] theorem eventsBy_nil (me : Pid) : eventsBy me [] = [] := rfl

@[simp] theorem eventsBy_append (me : Pid) (events events' : List Event) :
    eventsBy me (events ++ events') = eventsBy me events ++ eventsBy me events' := by
  simp [eventsBy]

/-- A call that lets the world see something. -/
def Call.isSay : Call → Bool
  | say _ => true
  | _ => false

namespace Program

variable {α β : Type}

/-- A program makes no call of some kind, whatever it is told. -/
def Avoids (kind : Call → Bool) : Program α → Prop
  | done _ | halt _ => True
  | ask c next => kind c = false ∧ ∀ x, (next x).Avoids kind

variable {kind : Call → Bool}

theorem avoids_pure (a : α) : (pure a : Program α).Avoids kind := trivial

theorem avoids_call {c : Call} (hc : kind c = false) : (call c).Avoids kind :=
  ⟨hc, fun _ => trivial⟩

theorem Avoids.bind {p : Program α} {f : α → Program β} (hp : p.Avoids kind)
    (hf : ∀ a, (f a).Avoids kind) : (p >>= f).Avoids kind := by
  induction p with
  | done a => exact hf a
  | halt => trivial
  | ask c next ih => exact ⟨hp.1, fun x => ih x (hp.2 x)⟩

/-- A program that says nothing, whatever it is told. -/
abbrev IsMute (p : Program α) : Prop := p.Avoids Call.isSay

theorem isMute_isAlive (pid : Pid) : (isAlive pid).IsMute := by
  unfold isAlive
  split
  · exact avoids_pure _
  · refine .bind (avoids_call rfl) fun x => ?_
    cases x <;> exact avoids_pure _

end Program

namespace Machine

/-- A program gives this value, leaves the machine so, and reports just these events,
    whatever the time is. -/
def Reports {α : Type} (m : Machine) (me : Pid) (p : Program α) (events : List Event) (a : α)
    (m' : Machine) : Prop :=
  ∀ clock said, ∃ clock' news, clock ≤ clock' ∧
    (m.moment clock said).run me p = (.returned a, m'.moment clock' (news ++ said)) ∧
    heard news = eventsBy me events

section Reports
variable {α β : Type} {m m' m'' : Machine} {me : Pid} {p : Program α} {f : α → Program β}
  {a : α} {b : β} {events events' : List Event}

theorem Reports.run (h : m.Reports me p events a m') : ∃ clock news, m.clock ≤ clock ∧
    m.run me p = (.returned a, m'.moment clock (news ++ m.said)) ∧
    heard news = eventsBy me events := h m.clock m.said

theorem Reports.gives (h : m.Reports me p events a m') : m.Gives me p a m' := by
  intro clock said
  obtain ⟨clock', news, hle, hrun, -⟩ := h clock said
  exact ⟨a, m', clock', news ++ said, hle, hrun, rfl, rfl⟩

theorem reports_pure (a : α) : m.Reports me (pure a) [] a m :=
  fun clock _ => ⟨clock, [], Nat.le_refl _, rfl, rfl⟩

theorem Reports.ask {c : Call} {x : c.Answer} {next : c.Answer → Program β}
    (hc : asksTime c = false) (hsay : c.isSay = false) (h : m.answer me c = (x, m'))
    (hnext : m'.Reports me (next x) events b m'') :
    m.Reports me (call c >>= next) events b m'' := by
  intro clock said
  have hsame : saidAfter me said c = said := by
    cases c <;> first | rfl | cases hsay
  obtain ⟨clock', news, hle, hrun, hheard⟩ := hnext (clock + lasts c) said
  refine ⟨clock', news, Nat.le_trans (Nat.le_add_right _ _) hle, ?_, hheard⟩
  rw [run_call, perform_moment hc, h, hsame, hrun]

theorem Reports.report {e : Event} {next : Unit → Program β}
    (hnext : m.Reports me (next ()) events b m') :
    m.Reports me (Program.report e >>= next) (e :: events) b m' := by
  intro clock said
  obtain ⟨clock', news, hle, hrun, hheard⟩ :=
    hnext (clock + callTime) ((me, .event [] e) :: said)
  refine ⟨clock', news ++ [(me, .event [] e)], Nat.le_trans (Nat.le_add_right _ _) hle, ?_, ?_⟩
  · rw [List.append_assoc]
    exact hrun
  · rw [heard_append, hheard]
    rfl

theorem Reports.bind (h : m.Reports me p events a m') (hf : m'.Reports me (f a) events' b m'') :
    m.Reports me (p >>= f) (events ++ events') b m'' := by
  intro clock said
  obtain ⟨clock', news, hle, hrun, hheard⟩ := h clock said
  obtain ⟨clock'', news', hle', hrun', hheard'⟩ := hf clock' (news ++ said)
  refine ⟨clock'', news' ++ news, Nat.le_trans hle hle', ?_, ?_⟩
  · rw [run_bind hrun, hrun', List.append_assoc]
  · rw [heard_append, hheard, hheard', eventsBy_append]

theorem said_run (hp : p.IsMute) : (m.run me p).2.said = m.said := by
  induction p generalizing m with
  | done | halt => rfl
  | ask c next ih =>
    have hsame : (m.perform me c).2.said = m.said := by
      have hsaid : (m.perform me c).2.said = saidAfter me m.said c :=
        congrArg (fun x => x.2.said) (perform_said c m.said)
      have hafter : saidAfter me m.said c = m.said := by
        cases c <;> first | rfl | cases hp.1
      exact hsaid.trans hafter
    exact (ih _ (hp.2 _)).trans hsame

/-- **What a program gives that says nothing**, it gives without a word. -/
theorem Gives.reports (h : m.Gives me p a m') (hp : p.IsMute) : m.Reports me p [] a m' := by
  intro clock said
  obtain ⟨clock', said', hle, hrun⟩ := h.at clock said
  have hsaid : ((m.moment clock said).run me p).2.said = said := said_run hp
  rw [hrun] at hsaid
  obtain rfl : said' = said := hsaid
  exact ⟨clock', [], hle, hrun, rfl⟩

theorem run_within_heard (m : Machine) (me : Pid) (s : Span) (p : Program α)
    (said said' : List (Pid × Output)) :
    ∃ (z : Completion α) (n : Machine) (news news' : List (Pid × Output)),
      heard news = heard news' ∧
      Machine.run me p { m with said := said } = (z, { n with said := news ++ said }) ∧
      Machine.run me (p.within s) { m with said := said' } =
        (z, { n with said := news' ++ said' }) := by
  induction p generalizing m said said' with
  | done a => exact ⟨.returned a, m, [], [], rfl, rfl, rfl⟩
  | halt e => exact ⟨.halted e, m, [], [], rfl, rfl, rfl⟩
  | ask c next ih =>
    -- the call is the same within the span, or it is heard as the same
    have hstep : ∃ new new', heard new = heard new' ∧
        Machine.run me (.ask c next) { m with said := said } =
          Machine.run me (next (m.perform me c).1)
            { (m.perform me c).2 with said := new ++ said } ∧
        Machine.run me ((Program.ask c next).within s) { m with said := said' } =
          Machine.run me ((next (m.perform me c).1).within s)
            { (m.perform me c).2 with said := new' ++ said' } := by
      cases c with
      | say output =>
        cases output with
        | event scope e =>
          exact ⟨[(me, .event scope e)], [(me, .event (s :: scope) e)], rfl, rfl, rfl⟩
        | line text => exact ⟨[(me, .line text)], [(me, .line text)], rfl, rfl, rfl⟩
        | errorLine text => exact ⟨[(me, .errorLine text)], [(me, .errorLine text)], rfl, rfl, rfl⟩
      | _ =>
        refine ⟨[], [], rfl, ?_, ?_⟩ <;>
          simp only [Program.within, Machine.run, perform_said, saidAfter, List.nil_append]
    obtain ⟨new, new', hnew, hrun, hwithin⟩ := hstep
    obtain ⟨z, n, news, news', hnews, hrest, hrest'⟩ :=
      ih (m.perform me c).1 (m.perform me c).2 (new ++ said) (new' ++ said')
    refine ⟨z, n, news ++ new, news' ++ new', ?_, ?_, ?_⟩
    · rw [heard_append, heard_append, hnews, hnew]
    · rw [hrun, hrest, List.append_assoc]
    · rw [hwithin, hrest', List.append_assoc]

/-- **A span does not change what a program reports.** -/
theorem Reports.within (h : m.Reports me p events a m') (s : Span) :
    m.Reports me (p.within s) events a m' := by
  intro clock said
  obtain ⟨clock', news, hle, hrun, hheard⟩ := h clock said
  obtain ⟨z, n, news₁, news₂, hnews, hrun₁, hrun₂⟩ :=
    run_within_heard (m.moment clock said) me s p said said
  have hsame : (m.moment clock said).run me p = (z, { n with said := news₁ ++ said }) := hrun₁
  rw [hrun] at hsame
  obtain ⟨rfl, hmachine⟩ := Prod.mk.inj hsame
  have hsaid : news ++ said = news₁ ++ said := congrArg Machine.said hmachine
  obtain rfl := List.append_cancel_right hsaid
  refine ⟨clock', news₂, hle, hrun₂.trans ?_, hnews.symm.trans hheard⟩
  have hn : ({ n with said := news₂ ++ said } : Machine) = m'.moment clock' (news₂ ++ said) :=
    congrArg (fun k : Machine => { k with said := news₂ ++ said }) hmachine.symm
  rw [hn]

end Reports

end Machine

end NamedMutex
