/-
  Programs that do not panic.

  A panic can come from three places: an attempt at an invalid name, a time limit that is no
  duration, and the reader of the filter for events.  What checks names first never comes to
  the first of them, whatever name it is given and whatever the system answers.

  * `Program.NeverPanics` and its rules; `neverPanics_acquireTimed`, `neverPanics_readOwner`:
    what the library does;
  * `dialogue_withMutexProgram_panicked`: a panic while a mutex is held is that of the closure;
  * `Command.neverPanics_run`, `runCommand_panicked`: what the command does.
-/
import NamedMutex.Proofs.Brackets
import NamedMutex.Proofs.TimeLimits

namespace NamedMutex

open Program

/-! ## Rules -/

namespace Program

/-- A program does not panic, whatever it is told. -/
def NeverPanics {α : Type} (me : Pid) (p : Program α) : Prop :=
  ∀ told z, Dialogue me p told z → ¬ z.IsPanic

section Rules
variable {α β : Type} {me : Pid} {p : Program α} {f : α → Program β}

theorem neverPanics_pure (a : α) : (pure a : Program α).NeverPanics me := by
  intro told z h
  obtain ⟨-, rfl⟩ := dialogue_pure_iff.1 h
  rintro ⟨_, hz⟩
  cases hz

theorem NeverPanics.call {c : Call} {next : c.Answer → Program β}
    (h : ∀ x, (next x).NeverPanics me) : (Program.call c >>= next).NeverPanics me := by
  intro told z hcall
  obtain ⟨x, rest, -, hrest, -⟩ := dialogue_call_iff.1 hcall
  exact h x rest z hrest

theorem neverPanics_call (c : Call) : (Program.call c).NeverPanics me :=
  NeverPanics.call fun x => neverPanics_pure x

theorem NeverPanics.bind (hp : p.NeverPanics me) (hf : ∀ a, (f a).NeverPanics me) :
    (p >>= f).NeverPanics me := by
  intro told z h
  rcases h.of_bind with ⟨a, _, t, -, hrest, -⟩ | ⟨e, hfirst, rfl⟩
  · exact hf a t z hrest
  · rintro ⟨message, hz⟩
    cases hz
    exact hp told _ hfirst ⟨message, rfl⟩

end Rules

end Program

section Library
variable {me : Pid} {env : Environment} {dir : Path} {name : String} {options : AcquireOptions}

/-! ## The library -/

theorem neverPanics_isAlive (pid : Pid) : (isAlive pid).NeverPanics me := by
  unfold isAlive
  split
  · exact neverPanics_pure _
  · refine .call fun x => ?_
    cases x <;> exact neverPanics_pure _

theorem neverPanics_ownerOf (content : String) : (ownerOf content).NeverPanics me := by
  unfold ownerOf
  split
  · exact neverPanics_pure _
  · exact (neverPanics_isAlive _).bind fun _ => neverPanics_pure _

/-- **A look at an owner does not panic**, whatever the name. -/
theorem neverPanics_readOwner (dir : Path) (name : String) :
    (readOwner dir name).NeverPanics me := by
  unfold readOwner
  split
  · refine .call fun x => ?_
    cases readText x with
    | error e => exact neverPanics_pure _
    | ok content => exact (neverPanics_ownerOf content).bind fun _ => neverPanics_pure _
  · exact neverPanics_pure _

theorem Handle.neverPanics_acquire (hname : IsValidName name) :
    (Handle.acquire dir name).NeverPanics me := by
  intro told z h
  obtain ⟨-, -, x, rfl, -⟩ := Handle.dialogue_acquire hname h
  rintro ⟨_, hz⟩
  cases hz

theorem Handle.neverPanics_release (h : Handle) : h.release.NeverPanics me := by
  have hremove : (removeFile h.path).NeverPanics me := by
    refine .call fun x => ?_
    cases x with
    | ok => exact neverPanics_pure _
    | error e =>
      show Program.NeverPanics me (if e.kind = .notFound then pure () else report _)
      split
      · exact neverPanics_pure _
      · exact neverPanics_call _
  have hclose : ∀ d, (closeFile h.path h.name d).NeverPanics me := by
    intro d
    refine .call fun x => ?_
    cases x with
    | ok => exact .call fun _ => neverPanics_call _
    | error e => exact .call fun _ => .call fun _ => neverPanics_call _
  unfold release
  split
  · exact neverPanics_pure _
  · exact hremove.bind fun _ => (hclose _).bind fun _ => neverPanics_pure _

theorem Guard.neverPanics_drop (g : Guard) : g.drop.NeverPanics me :=
  g.handle.neverPanics_release.bind fun _ => neverPanics_call _

/-- **A timed acquisition does not panic**, whatever the name. -/
theorem neverPanics_acquireTimed (env : Environment) (name : String) (options : AcquireOptions) :
    (acquireTimed env name options).NeverPanics me :=
  fun _ _ => Command.not_isPanic_acquireTimed

/-! ## Closures -/

theorem Dialogue.of_capture {α : Type} {p : Program α} {told : List Exchange}
    {z : Completion (Completion α)} (h : Dialogue me p.capture told z) :
    ∃ y, z = .returned y ∧ Dialogue me p told y := by
  induction p generalizing told with
  | done a =>
    cases h
    exact ⟨_, rfl, .done⟩
  | halt e =>
    cases h
    exact ⟨_, rfl, .halt⟩
  | ask c next ih =>
    cases h with
    | ask hx hrest =>
      obtain ⟨y, rfl, hy⟩ := ih _ hrest
      exact ⟨y, rfl, .ask hx hy⟩

theorem Dialogue.of_capture_bind {α β : Type} {p : Program α} {f : Completion α → Program β}
    {told : List Exchange} {z : Completion β} (h : Dialogue me (p.capture >>= f) told z) :
    ∃ y t₁ t₂, Dialogue me p t₁ y ∧ Dialogue me (f y) t₂ z ∧ told = t₁ ++ t₂ := by
  rcases h.of_bind with ⟨y, t₁, t₂, hfirst, hrest, rfl⟩ | ⟨e, hfirst, -⟩
  · obtain ⟨_, hy, hp⟩ := hfirst.of_capture
    cases hy
    exact ⟨y, t₁, t₂, hp, hrest, rfl⟩
  · obtain ⟨_, hy, -⟩ := hfirst.of_capture
    cases hy

/-- **A panic while a mutex is held is that of the closure**: the call that runs it acquires the
    mutex before, and gives it back afterwards, without a panic of its own. -/
theorem dialogue_withMutexProgram_panicked {α : Type} {body : Program α} {told : List Exchange}
    {message : String}
    (h : Dialogue me (withMutexProgram env name options body) told (.halted (.panicked message))) :
    ∃ g t₁ t₂ t₃, Dialogue me (acquireTimed env name options) t₁ (.returned (.ok g)) ∧
      Dialogue me body t₂ (.halted (.panicked message)) ∧ told = t₁ ++ t₂ ++ t₃ := by
  rw [withMutexProgram_eq] at h
  obtain ⟨x, t₁, t, hacquire, hrest, rfl⟩ := h.of_capture_bind
  cases x with
  | halted e =>
    obtain ⟨-, he⟩ := dialogue_halt_iff.1 hrest
    cases he
    exact absurd ⟨message, rfl⟩ (neverPanics_acquireTimed env name options _ _ hacquire)
  | returned result =>
    cases result with
    | error e => cases (dialogue_pure_iff.1 hrest).2
    | ok g =>
      obtain ⟨y, t₂, t, hbody, hlast, rfl⟩ := hrest.of_capture_bind
      obtain ⟨u, t₃, t₄, hdrop, hend, rfl⟩ := hlast.of_capture_bind
      cases u with
      | halted e =>
        obtain ⟨-, he⟩ := dialogue_halt_iff.1 hend
        cases he
        exact absurd ⟨message, rfl⟩ (g.neverPanics_drop _ _ hdrop)
      | returned =>
        cases y with
        | returned a => cases hend
        | halted e =>
          obtain ⟨rfl, he⟩ := dialogue_halt_iff.1 hend
          cases he
          refine ⟨g, t₁, t₂, t₃, hacquire, hbody, ?_⟩
          rw [List.append_nil, List.append_assoc]

end Library

/-! ## The command -/

namespace Command

variable {me : Pid} {env : Environment} {limit : Option Binary64} {verbose : Bool}

theorem exists_withBudget (options : AcquireOptions) (h : ¬ Overlong limit) :
    ∃ o, withBudget options limit = .ok o := by
  cases limit with
  | none => exact ⟨_, rfl⟩
  | some b =>
    cases b with
    | infinite | notANumber => exact ⟨_, rfl⟩
    | finite negative x =>
      by_cases hlimit : negative = false ∨ x.mantissa = 0
      · obtain ⟨d, hd⟩ := exists_ofMagnitude? h hlimit
        exact ⟨_, by simp only [withBudget, if_pos hlimit, hd]; rfl⟩
      · exact ⟨_, by simp only [withBudget, if_neg hlimit]; rfl⟩

theorem neverPanics_holdFor (h : Handle) (seconds : Nat) (verbose : Bool) :
    (holdFor h seconds verbose).NeverPanics me := by
  have hhold : (do
      announce
      call (.sleep (.ofSeconds seconds))
      let _ ← h.release
      pure 0 : Program Nat).NeverPanics me :=
    .call fun _ => .call fun _ => h.neverPanics_release.bind fun _ => neverPanics_pure _
  cases verbose with
  | false => exact hhold
  | true => exact .call fun _ => hhold

theorem neverPanics_runHold (name : String) (seconds : Nat) (verbose : Bool) :
    (runHold env name seconds verbose).NeverPanics me := by
  unfold runHold
  split
  · rename_i hname
    refine (Handle.neverPanics_acquire hname).bind fun x => ?_
    cases x with
    | error e => exact .call fun _ => neverPanics_pure _
    | ok h =>
      cases hacq : h.isAcquired with
      | true =>
        simp only [hacq, if_true]
        exact neverPanics_holdFor h seconds verbose
      | false =>
        simp only [hacq, Bool.false_eq_true, if_false]
        exact h.neverPanics_release.bind fun _ => .call fun _ => neverPanics_pure _
  · exact .call fun _ => neverPanics_pure _

theorem neverPanics_runAcquire (name : String) (h : ¬ Overlong limit) (holdMillis : Nat) :
    (runAcquire env name limit holdMillis verbose).NeverPanics me := by
  obtain ⟨options, hoptions⟩ := exists_withBudget (.ofEnvironment env) h
  simp only [runAcquire, hoptions]
  exact fun _ _ => not_isPanic_acquireAndHold

theorem neverPanics_runStatus (name : String) : (runStatus env name).NeverPanics me := by
  refine (neverPanics_readOwner env.lockDir name).bind fun x => ?_
  cases x with
  | error e => exact .call fun _ => neverPanics_pure _
  | ok owner => exact .call fun _ => .call fun _ => neverPanics_pure _

/-- A command whose time limit is no duration. -/
def IsOverlong : Command → Prop
  | acquire _ limit _ => Overlong limit
  | _ => False

/-- **A command does not panic** unless its time limit is no duration, whatever name it is
    given. -/
theorem neverPanics_run (build : Build) (env : Environment) (verbose : Bool) {c : Command}
    (h : ¬ c.IsOverlong) : (c.run build env verbose).NeverPanics me := by
  cases c with
  | hash raw first => exact .call fun _ => neverPanics_pure _
  | hold name seconds => exact neverPanics_runHold name seconds verbose
  | acquire name limit holdMillis => exact neverPanics_runAcquire name h holdMillis
  | status name => exact neverPanics_runStatus name
  | doctor =>
    exact .call fun _ => .call fun _ => .call fun _ => .call fun _ => .call fun _ => .call fun _ =>
      .call fun _ => .call fun _ => .call fun _ => .call fun _ => neverPanics_pure _

end Command

theorem neverPanics_lines {me : Pid} {f : String → Program Unit}
    (hf : ∀ line, (f line).NeverPanics me) (lines : List String) :
    (lines.forM f).NeverPanics me := by
  induction lines with
  | nil => exact neverPanics_pure _
  | cons line lines ih => exact (hf line).bind fun _ => ih

theorem Request.neverPanics_run {me : Pid} (build : Build) (env : Environment) {r : Request}
    (h : ∀ verbose c, r = .perform verbose c → ¬ c.IsOverlong) :
    (r.run build env).NeverPanics me := by
  cases r with
  | perform verbose c =>
    exact (c.neverPanics_run build env verbose (h verbose c rfl)).bind fun _ => neverPanics_pure _
  | help =>
    exact (neverPanics_lines (fun _ => neverPanics_call _) _).bind fun _ => neverPanics_pure _
  | version => exact .call fun _ => neverPanics_pure _
  | usageError =>
    exact (neverPanics_lines (fun _ => neverPanics_call _) _).bind fun _ => neverPanics_pure _

/-- **A panic of the whole command** is that of the filter for events, from before the request
    is run, unless its time limit is no duration. -/
theorem runCommand_panicked {me : Pid} {build : Build} {env : Environment} {args : List Bytes}
    {told : List Exchange} {z : Completion CommandEnd}
    (h : ∀ verbose c, Request.parse args = .perform verbose c → ¬ c.IsOverlong)
    (hd : Dialogue me (runCommand build env args) told z) (hz : z.IsPanic) :
    ∃ e, (Telemetry.start env ⟨false, false⟩).2.1 = .halted e ∧ z = .halted e := by
  obtain ⟨state, ending, printed, htelemetry⟩ : ∃ state ending printed,
      Telemetry.start env ⟨false, false⟩ = (state, ending, printed) := ⟨_, _, _, rfl⟩
  have hprinted : (printed.forM Command.complain).NeverPanics me :=
    neverPanics_lines (fun _ => neverPanics_call _) printed
  unfold runCommand at hd
  rw [htelemetry] at hd ⊢
  rcases hd.of_bind with ⟨_, _, t, -, hrest, -⟩ | ⟨e, hfirst, rfl⟩
  · cases ending with
    | halted e => exact ⟨e, rfl, (dialogue_halt_iff.1 hrest).2⟩
    | returned b => exact absurd hz (Request.neverPanics_run build env h t z hrest)
  · obtain ⟨message, hmessage⟩ := hz
    cases hmessage
    exact absurd ⟨message, rfl⟩ (hprinted told _ hfirst)

end NamedMutex
