/-
  Invalid names are refused.

  Every way into the library and the command looks at the name before it does anything else.  It
  refuses a name that is empty or has a forbidden character: with a panic, an error or an exit
  status, but always without a call to the system other than to say so.

  * `Program.Refuses`: a program does nothing but to say some lines, on all machines and
    whatever it is answered; `refuses_complaining`: such programs;
  * `Command.run_eq_complaining`: what the command says of an invalid name, and how it ends;
  * `invalid_names_refused` is the main statement.
-/
import NamedMutex.Proofs.Panics

namespace NamedMutex

open Program

/-! ## Programs that only complain -/

/-- Lines on standard error, as they are put on record. -/
def complaintsTold (lines : List String) : List Exchange :=
  lines.map fun line => ⟨.say (.errorLine line), ()⟩

/-- Lines on standard error, as a machine keeps them: the last one first. -/
def complaintsSaid (me : Pid) (lines : List String) : List (Pid × Output) :=
  lines.reverse.map fun line => (me, .errorLine line)

namespace Program

/-- A program ends so, whatever it is answered, and all that it does is to say these lines on
    standard error.  Hence it changes nothing of a machine, that is no file, no lock and no
    registration; only time goes by, and the lines have been said. -/
structure Refuses {α : Type} (p : Program α) (lines : List String) (z : Completion α) : Prop where
  told : ∀ me told y, Dialogue me p told y → told = complaintsTold lines ∧ y = z
  run : ∀ (m : Machine) (me : Pid), m.run me p =
    (z, m.moment (m.clock + lines.length * Machine.callTime) (complaintsSaid me lines ++ m.said))

/-- The program that says these lines and ends so. -/
def complaining {α : Type} (lines : List String) (z : Completion α) : Program α :=
  lines.forM Command.complain >>= fun _ => ofCompletion z

section Complaining
variable {α β : Type} {lines lines' : List String} {z : Completion α}

theorem complaining_nil : complaining [] z = ofCompletion z := rfl

theorem complaining_cons {line : String} :
    complaining (line :: lines) z =
      (call (.say (.errorLine line)) >>= fun _ => complaining lines z) :=
  rfl

theorem complaining_append :
    (lines.forM Command.complain >>= fun _ => complaining lines' z) =
      complaining (lines ++ lines') z := by
  induction lines with
  | nil => rfl
  | cons line lines ih =>
    rw [List.cons_append, complaining_cons, ← ih]
    rfl

theorem complaining_bind (f : α → Program β) : (complaining lines z >>= f) =
    lines.forM Command.complain >>= fun _ => (ofCompletion z).bind f :=
  bind_assoc ..

/-- **A program that only complains refuses.** -/
theorem refuses_complaining (lines : List String) (z : Completion α) :
    (complaining lines z).Refuses lines z := by
  induction lines with
  | nil =>
    constructor
    · intro me told y h
      cases z with
      | returned a => exact dialogue_pure_iff.1 h
      | halted e => exact dialogue_halt_iff.1 h
    · intro m me
      cases z <;> simp [complaining_nil, ofCompletion, Machine.run, complaintsSaid, Machine.moment]
  | cons line lines ih =>
    constructor
    · intro me told y h
      obtain ⟨_, rest, -, hrest, rfl⟩ := dialogue_call_iff.1 h
      obtain ⟨rfl, rfl⟩ := ih.told me rest y hrest
      exact ⟨rfl, rfl⟩
    · intro m me
      have hclock : m.clock + Machine.callTime + lines.length * Machine.callTime =
          m.clock + (line :: lines).length * Machine.callTime := by
        rw [List.length_cons, Nat.succ_mul, Nat.add_assoc, Nat.add_comm Machine.callTime]
      have hsaid : complaintsSaid me lines ++ (me, .errorLine line) :: m.said =
          complaintsSaid me (line :: lines) ++ m.said := by simp [complaintsSaid]
      rw [complaining_cons, Machine.run_call, ih.run, ← hclock, ← hsaid]
      rfl

theorem refuses_ofCompletion (z : Completion α) : (ofCompletion z).Refuses [] z :=
  refuses_complaining [] z

end Complaining

end Program

/-! ## The library -/

section Library
variable {name : String}

theorem not_isValidName_iff :
    ¬ IsValidName name ↔ name = "" ∨ ∃ c ∈ name.toList, c ∈ forbiddenChars := by
  simp [IsValidName, or_iff_not_imp_left]

/-- How an attempt at an invalid name ends. -/
def nameRefused {α : Type} (name : String) : Completion α :=
  .halted (.panicked (AcquireError.invalidName name).message)

variable (h : ¬ IsValidName name)
include h

theorem acquire_of_invalid (dir : Path) :
    Handle.acquire dir name = ofCompletion (nameRefused name) := by
  unfold Handle.acquire
  rw [if_neg h]
  rfl

theorem acquireTimed_of_invalid (env : Environment) (options : AcquireOptions) :
    acquireTimed env name options = ofCompletion (.returned (.error (.invalidName name))) := by
  unfold acquireTimed
  rw [if_neg h]
  rfl

theorem withMutexProgram_of_invalid (env : Environment) (options : AcquireOptions) {α : Type}
    (body : Program α) : withMutexProgram env name options body =
      ofCompletion (.returned (.error (.invalidName name))) := by
  rw [withMutexProgram_eq, acquireTimed_of_invalid h]
  rfl

theorem readOwner_of_invalid (dir : Path) : readOwner dir name =
    ofCompletion (.returned
      (.error (.custom .invalidInput (AcquireError.invalidName name).message))) := by
  unfold readOwner
  rw [if_neg h]
  rfl

end Library

/-! ## The command -/

namespace Command

/-- The name of the mutex that a command is about. -/
def mutex? : Command → Option String
  | hold name _ | acquire name _ _ | status name => some name
  | hash _ _ | doctor => none

/-- **What a command does with an invalid name**: it complains at most, and fails. -/
theorem run_eq_complaining (build : Build) (env : Environment) (verbose : Bool) {c : Command}
    {name : String} (hc : c.mutex? = some name) (h : ¬ IsValidName name) :
    ∃ lines z, c.run build env verbose = complaining lines z ∧ z ≠ .returned 0 := by
  cases c with
  | hash | doctor => cases hc
  | hold name seconds =>
    obtain rfl := Option.some.inj hc
    refine ⟨["sysmutex: " ++ (AcquireError.invalidName name).message], .returned 2, ?_, by simp⟩
    simp only [run, runHold, if_neg h]
    rfl
  | acquire name limit holdMillis =>
    obtain rfl := Option.some.inj hc
    by_cases hover : Overlong limit
    · refine ⟨[], .halted (.panicked overlongMessage), ?_, by simp⟩
      simp only [run, runAcquire, withBudget_of_overlong _ hover]
      rfl
    · obtain ⟨options, hoptions⟩ := exists_withBudget (.ofEnvironment env) hover
      refine ⟨["sysmutex: " ++ (AcquireError.invalidName name).message], .returned 2, ?_, by simp⟩
      simp only [run, runAcquire, hoptions, acquireAndHold, acquireTimed_of_invalid h]
      rfl
  | status name =>
    obtain rfl := Option.some.inj hc
    refine ⟨[s!"sysmutex: failed to read lock owner for {name}: " ++
      (AcquireError.invalidName name).message], .returned 1, ?_, by simp⟩
    simp only [run, runStatus, readOwner_of_invalid h]
    rfl

end Command

/-- **The whole command with an invalid name** does no more than to complain, and its process
    ends with an exit status that is not zero. -/
theorem runCommand_refuses {build : Build} {env : Environment} {args : List Bytes} {verbose : Bool}
    {c : Command} {name : String} (hparse : Request.parse args = .perform verbose c)
    (hc : c.mutex? = some name) (h : ¬ IsValidName name) :
    ∃ lines z, (runCommand build env args).Refuses lines z ∧ exitStatus z ≠ 0 := by
  obtain ⟨state, ending, printed, htelemetry⟩ : ∃ state ending printed,
      Telemetry.start env ⟨false, false⟩ = (state, ending, printed) := ⟨_, _, _, rfl⟩
  cases ending with
  | halted e =>
    have hrun : runCommand build env args = complaining printed (.halted e) := by
      unfold runCommand
      rw [htelemetry]
      rfl
    exact ⟨printed, .halted e, hrun ▸ refuses_complaining printed _, by simp [exitStatus]⟩
  | returned b =>
    obtain ⟨lines, z, hcommand, hz⟩ := c.run_eq_complaining build env verbose hc h
    have hrun : runCommand build env args = printed.forM Command.complain >>= fun _ =>
        lines.forM Command.complain >>= fun _ => (ofCompletion z).bind fun code =>
          pure (.exited code) := by
      unfold runCommand
      rw [htelemetry, ← complaining_bind, ← hcommand]
      simp only [hparse]
      rfl
    have hrefuses : ∀ y : Completion CommandEnd,
        ((ofCompletion z).bind fun code => pure (.exited code)) = ofCompletion y →
        (runCommand build env args).Refuses (printed ++ lines) y := by
      intro y hy
      rw [hrun, hy]
      exact complaining_append ▸ refuses_complaining (printed ++ lines) y
    cases z with
    | returned code =>
      refine ⟨printed ++ lines, .returned (.exited code), hrefuses _ rfl, ?_⟩
      rintro rfl
      exact hz rfl
    | halted e => exact ⟨printed ++ lines, .halted e, hrefuses _ rfl, by simp [exitStatus]⟩

/-! ## Invalid names -/

/-- **Invalid names are refused everywhere, first and without effect.**  An attempt at such a
    name panics; a timed acquisition returns the error that names it, whatever is registered,
    and runs no closure; a look at its owner returns an error of invalid input; and a command
    ends with an exit status that is not zero.  All of them do nothing but to say lines on
    standard error.  And no name at all makes a timed acquisition, a look at an owner or a
    command panic: a panic around a closure is that of the closure, and one of a command comes
    of a time limit that is no duration, or of the filter for events. -/
theorem invalid_names_refused :
    (∀ name : String, name = "" ∨ (∃ c ∈ name.toList, c ∈ forbiddenChars) →
      (∀ dir, (Handle.acquire dir name).Refuses [] (nameRefused name)) ∧
      (∀ env, (Handle.acquireConfigured env name).Refuses [] (nameRefused name)) ∧
      (∀ env options, (acquireTimed env name options).Refuses []
        (.returned (.error (.invalidName name)))) ∧
      (∀ env options (α : Type) (body : Program α),
        (withMutexProgram env name options body).Refuses []
          (.returned (.error (.invalidName name)))) ∧
      (∀ dir, ∃ e : IoError, e.kind = .invalidInput ∧
        (readOwner dir name).Refuses [] (.returned (.error e))) ∧
      ∀ build env args verbose (c : Command), Request.parse args = .perform verbose c →
        c.mutex? = some name →
        ∃ lines z, (runCommand build env args).Refuses lines z ∧ exitStatus z ≠ 0) ∧
    ∀ (me : Pid) (name : String),
      (∀ env options, (acquireTimed env name options).NeverPanics me) ∧
      (∀ env options (α : Type) (body : Program α) told message,
        Dialogue me (withMutexProgram env name options body) told (.halted (.panicked message)) →
        ∃ g t₁ t₂ t₃, Dialogue me (acquireTimed env name options) t₁ (.returned (.ok g)) ∧
          Dialogue me body t₂ (.halted (.panicked message)) ∧ told = t₁ ++ t₂ ++ t₃) ∧
      (∀ dir, (readOwner dir name).NeverPanics me) ∧
      (∀ build env verbose (c : Command), c.mutex? = some name → ¬ c.IsOverlong →
        (c.run build env verbose).NeverPanics me) ∧
      ∀ build env args verbose (c : Command) told z, Request.parse args = .perform verbose c →
        c.mutex? = some name → ¬ c.IsOverlong →
        Dialogue me (runCommand build env args) told z → z.IsPanic →
        ∃ e, (Telemetry.start env ⟨false, false⟩).2.1 = .halted e ∧ z = .halted e := by
  refine ⟨fun name hname => ?_, fun me name => ?_⟩
  · have h : ¬ IsValidName name := not_isValidName_iff.2 hname
    refine ⟨fun dir => ?_, fun env => ?_, fun env options => ?_, fun env options α body => ?_,
      fun dir => ⟨.custom .invalidInput (AcquireError.invalidName name).message, rfl, ?_⟩, ?_⟩
    · exact acquire_of_invalid h dir ▸ refuses_ofCompletion _
    · have hconfigured : Handle.acquireConfigured env name = ofCompletion (nameRefused name) :=
        acquire_of_invalid h env.lockDir
      exact hconfigured ▸ refuses_ofCompletion _
    · exact acquireTimed_of_invalid h env options ▸ refuses_ofCompletion _
    · exact withMutexProgram_of_invalid h env options body ▸ refuses_ofCompletion _
    · exact readOwner_of_invalid h dir ▸ refuses_ofCompletion _
    · exact fun build env args verbose c hparse hc => runCommand_refuses hparse hc h
  · refine ⟨fun env options => neverPanics_acquireTimed env name options,
      fun env options α body told message => dialogue_withMutexProgram_panicked,
      fun dir => neverPanics_readOwner dir name,
      fun build env verbose c _ hlimit => Command.neverPanics_run build env verbose hlimit, ?_⟩
    intro build env args verbose c told z hparse _ hlimit
    refine runCommand_panicked fun verbose' c' hparse' => ?_
    rw [hparse] at hparse'
    cases hparse'
    exact hlimit

open Contest in
/-- The name `a/b` is refused as invalid although its path is registered; and a command that is to
    hold it fails, but does not panic. -/
theorem invalid_names_refused_of_slash : ∃ (m : Machine) (options : AcquireOptions),
    (m.registry 1).contains (lockPath (options.directory []) "a/b") = true ∧
    (m.run 1 (acquireTimed [] "a/b" options)).1 = .returned (.error (.invalidName "a/b")) ∧
    (∃ lines z, (runCommand ⟨"", "", "", "", "", ""⟩ []
      (["hold", "a/b"].map Utf8.encode)).Refuses lines z ∧ exitStatus z ≠ 0) ∧
    (runCommand ⟨"", "", "", "", "", ""⟩ [] (["hold", "a/b"].map Utf8.encode)).NeverPanics 1 := by
  let options : AcquireOptions := { AcquireOptions.default with lockDir := some root }
  let m := (Machine.bare 1).setRegistry 1 (Registry.empty.register (lockPath root "a/b"))
  have hslash : "a/b" = "" ∨ ∃ c ∈ "a/b".toList, c ∈ forbiddenChars :=
    Or.inr ⟨'/', by simp, by simp [forbiddenChars]⟩
  have hparse : Request.parse (["hold", "a/b"].map Utf8.encode) =
      .perform false (.hold "a/b" 30) := by decide +kernel
  obtain ⟨-, -, hacquire, -, -, hcommand⟩ := invalid_names_refused.1 "a/b" hslash
  obtain ⟨-, -, -, -, hpanic⟩ := invalid_names_refused.2 1 "a/b"
  refine ⟨m, options, by decide +kernel, ?_, hcommand _ _ _ _ _ hparse rfl, ?_⟩
  · rw [(hacquire [] options).run]
  · intro told z hd hz
    obtain ⟨e, hstart, -⟩ := hpanic _ _ _ _ _ _ _ hparse rfl id hd hz
    cases hstart

end NamedMutex
