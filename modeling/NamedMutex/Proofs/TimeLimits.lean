/-
  The time limit of the command.

  The command takes a time limit in floating-point seconds.  One that is no number of
  seconds, because it is negative, infinite or missing, leaves the configured limit in force;
  but a finite one that no duration can hold is converted like the others, and that panics.

  * `withBudget_of_overlong`, `withBudget_of_not_overlong`: what becomes of a limit;
  * `not_isPanic_acquireAndHold`: the command does not panic once it has its options;
  * `acquire_panics_iff_overlong` is the main statement.
-/
import NamedMutex.CommandLine.Run
import NamedMutex.Proofs.Magnitudes
import NamedMutex.Proofs.Releases

namespace NamedMutex

/-- A program that ends in a panic. -/
def Completion.IsPanic {α : Type} (z : Completion α) : Prop :=
  ∃ message, z = .halted (.panicked message)

/-! ## What becomes of a limit -/

/-- A limit of some seconds that is no duration: `2^64` seconds or more. -/
def Overlong (limit : Option Binary64) : Prop :=
  ∃ x, limit = some (.finite false x) ∧ x.reaches 64 = true

instance : (limit : Option Binary64) → Decidable (Overlong limit)
  | some (.finite false x) => decidable_of_iff (x.reaches 64 = true)
    ⟨fun h => ⟨x, rfl, h⟩, fun ⟨_, hlimit, h⟩ => by cases hlimit; exact h⟩
  | some (.finite true _) | some (.infinite _) | some .notANumber | none =>
    .isFalse fun ⟨_, hlimit, _⟩ => by cases hlimit

/-- The time budget that is in force for a limit: the nearest duration if the limit is a
    number of seconds, zero of either sign included, and else that of the environment. -/
inductive InForce (env : Environment) : Option Binary64 → Duration → Prop
  | given {negative : Bool} {x : Magnitude} {d : Duration} : negative = false ∨ x.mantissa = 0 →
      d < .ofSeconds (2 ^ 64) →
      2 * (x.den * d) ≤ 2 * (x.num * Duration.nanosPerSecond) + x.den →
      2 * (x.num * Duration.nanosPerSecond) ≤ 2 * (x.den * d) + x.den →
      InForce env (some (.finite negative x)) d
  | negative {x : Magnitude} : x.mantissa ≠ 0 → InForce env (some (.finite true x)) env.timeout
  | infinite {negative : Bool} : InForce env (some (.infinite negative)) env.timeout
  | notANumber : InForce env (some .notANumber) env.timeout
  | missing : InForce env none env.timeout

namespace Command

variable {env : Environment} {limit : Option Binary64}

/-- What is said of a limit that is no duration. -/
def overlongMessage : String :=
  "cannot convert float seconds to Duration: value is either too big or NaN"

theorem not_reaches_of_zero {x : Magnitude} (h : x.mantissa = 0) : x.reaches 64 = false := by
  have hden : 0 < x.den := Nat.pow_pos (by decide)
  have hpos : 0 < 2 ^ 64 * x.den := Nat.mul_pos (by decide) hden
  refine decide_eq_false (Nat.not_le.2 ?_)
  rw [Magnitude.num, h, Nat.zero_mul]
  exact hpos

theorem withBudget_of_overlong (options : AcquireOptions) (h : Overlong limit) :
    withBudget options limit = .error (.panicked overlongMessage) := by
  obtain ⟨x, rfl, hx⟩ := h
  simp only [withBudget, true_or, if_true, Duration.ofMagnitude?_eq_none_iff.2 hx]
  rfl

theorem exists_ofMagnitude? {negative : Bool} {x : Magnitude}
    (h : ¬ Overlong (some (.finite negative x))) (hlimit : negative = false ∨ x.mantissa = 0) :
    ∃ d, Duration.ofMagnitude? x = some d := by
  have hshort : x.reaches 64 = false := by
    rcases hlimit with rfl | hzero
    · exact Bool.eq_false_iff.2 fun hx => h ⟨x, rfl, hx⟩
    · exact not_reaches_of_zero hzero
  refine Option.ne_none_iff_exists'.1 fun hnone => ?_
  rw [Duration.ofMagnitude?_eq_none_iff.1 hnone] at hshort
  cases hshort

/-- **A limit that is not overlong decides about the time budget**, and about nothing else. -/
theorem withBudget_of_not_overlong (hrounded : ∀ b, limit = some b → b.Rounded)
    (h : ¬ Overlong limit) : ∃ d, InForce env limit d ∧
      withBudget (.ofEnvironment env) limit =
        .ok { AcquireOptions.ofEnvironment env with timeout := d } := by
  cases limit with
  | none => exact ⟨_, .missing, rfl⟩
  | some b =>
    cases b with
    | infinite => exact ⟨_, .infinite, rfl⟩
    | notANumber => exact ⟨_, .notANumber, rfl⟩
    | finite negative x =>
      by_cases hlimit : negative = false ∨ x.mantissa = 0
      · obtain ⟨d, hd⟩ := exists_ofMagnitude? h hlimit
        obtain ⟨hlt, hle, hge⟩ := Duration.ofMagnitude?_spec (hrounded _ rfl _ _ rfl) hd
        refine ⟨d, .given hlimit hlt hle hge, ?_⟩
        simp only [withBudget, if_pos hlimit, hd]
      · obtain ⟨hnegative, hzero⟩ := not_or.1 hlimit
        obtain rfl : negative = true := by simpa using hnegative
        exact ⟨_, .negative hzero, by simp only [withBudget, if_neg hlimit]; rfl⟩

end Command

/-! ## Limits that are read -/

namespace Arguments

variable {verbose verbose' : Bool} {args : List Bytes} {name : String} {limit : Option Binary64}
  {holdMillis : Nat}

theorem Subcommand.limit_of_command? {r : Reading} {sub : Subcommand}
    (h : sub.command? r = some (.acquire name limit holdMillis)) :
    limit = (r.values.lookup "timeout").bind Binary64.parse? := by
  cases sub with
  | acquire =>
    obtain ⟨_, _, hcommand⟩ := Option.map_eq_some_iff.1 h
    cases hcommand
    rfl
  | hash | hold | status =>
    obtain ⟨_, _, hcommand⟩ := Option.map_eq_some_iff.1 h
    cases hcommand
  | doctor => cases h

theorem Subcommand.limit_of_request {sub : Subcommand}
    (h : sub.request verbose args = .perform verbose' (.acquire name limit holdMillis)) :
    ∃ text : Option String, limit = text.bind Binary64.parse? := by
  unfold request at h
  split at h
  · cases h
  · cases h
  · cases h
  · split at h
    · rename_i hcommand
      cases h
      exact ⟨_, limit_of_command? hcommand⟩
    · cases h

theorem helpRequest_ne_perform {command : Command} :
    helpRequest args ≠ .perform verbose command := by
  unfold helpRequest
  split
  · exact nofun
  · split
    · split <;> exact nofun
    · exact nofun
  · exact nofun

theorem limit_of_requestFrom
    (h : requestFrom verbose args = .perform verbose' (.acquire name limit holdMillis)) :
    ∃ text : Option String, limit = text.bind Binary64.parse? := by
  induction args generalizing verbose with
  | nil => cases h
  | cons arg rest ih =>
    unfold requestFrom at h
    split at h
    · cases h
    · split at h
      case h_5 =>
        -- `--verbose`
        split at h
        · cases h
        · exact ih h
      case h_7 => exact absurd h helpRequest_ne_perform
      case h_8 =>
        split at h
        · exact Subcommand.limit_of_request h
        · cases h
      case h_2 =>
        split at h
        · cases h
        · split at h <;> cases h
      all_goals cases h

/-- **A limit of the command was read from a text**, so it is rounded. -/
theorem rounded_of_parse {b : Binary64}
    (h : Request.parse args = .perform verbose (.acquire name (some b) holdMillis)) :
    b.Rounded := by
  obtain ⟨text, htext⟩ := limit_of_requestFrom h
  obtain ⟨s, -, hs⟩ := Option.bind_eq_some_iff.1 htext.symm
  exact Binary64.parse?_rounded hs

end Arguments

/-! ## What the command does -/

namespace Command

variable {me : Pid} {env : Environment} {name : String} {options : AcquireOptions}
  {holdMillis : Nat} {verbose : Bool} {told : List Exchange}

theorem not_isPanic_acquireTimed {z : Completion (Except AcquireError Guard)}
    (h : Dialogue me (acquireTimed env name options) told z) : ¬ z.IsPanic := by
  rintro ⟨message, rfl⟩
  rw [← acquireTimedFor_patience] at h
  rcases dialogue_acquireTimedFor_cases h with ⟨-, hz⟩ | ⟨-, hz⟩ | ⟨hname, rest, -, hstart⟩
  · cases hz
  · cases hz
  · obtain ⟨started, past, last, hseries⟩ := (AcquireTimed.dialogue_startFor hname).1 hstart
    cases hseries.ends

theorem held_of_dialogue {g : Guard}
    (h : Dialogue me (acquireTimed env name options) told (.returned (.ok g))) :
    ∃ d, g.handle.held = some d := by
  rw [← acquireTimedFor_patience] at h
  rcases dialogue_acquireTimedFor_cases h with ⟨-, hz⟩ | ⟨-, hz⟩ | ⟨hname, rest, -, hstart⟩
  · cases hz
  · cases hz
  · obtain ⟨started, past, last, hseries⟩ := (AcquireTimed.dialogue_startFor hname).1 hstart
    cases hseries.ends with
    | final _ hfinal =>
      cases hfinal with
      | acquired _ hacquired => exact Option.isSome_iff_exists.1 hacquired

theorem dialogue_say {α : Type} {o : Output} {next : Unit → Program α} {z : Completion α}
    (h : Dialogue me (Program.call (.say o) >>= next) told z) :
    ∃ rest, Dialogue me (next ()) rest z := by
  obtain ⟨_, rest, -, hrest, -⟩ := dialogue_call_iff.1 h
  exact ⟨rest, hrest⟩

/-- **A command that has its options does not panic**, whatever it is told. -/
theorem not_isPanic_acquireAndHold {z : Completion Nat}
    (h : Dialogue me (acquireAndHold env name options holdMillis verbose) told z) :
    ¬ z.IsPanic := by
  rintro ⟨message, rfl⟩
  unfold acquireAndHold at h
  rcases Dialogue.of_bind h with ⟨result, t₁, t₂, hacquire, hrest, -⟩ | ⟨e, hacquire, he⟩
  · cases result with
    | error e =>
      obtain ⟨rest, hrest⟩ := dialogue_say hrest
      cases hrest
    | ok g =>
      obtain ⟨d, hd⟩ := held_of_dialogue hacquire
      have hend : ∀ rest, ¬ Dialogue me (do
          announce
          Program.call (.sleep (.ofMillis holdMillis))
          g.drop
          pure 0) rest (.halted (.panicked message)) := by
        intro rest hhold
        obtain ⟨rest, hhold⟩ := dialogue_say hhold
        obtain ⟨_, rest, -, hhold, -⟩ := dialogue_call_iff.1 hhold
        rcases Dialogue.of_bind hhold with ⟨_, _, _, -, hdone, -⟩ | ⟨e, hdrop, -⟩
        · cases hdone
        · obtain ⟨x, y, -, hz⟩ := (Guard.dialogue_drop_iff hd).1 hdrop
          cases hz
      cases verbose with
      | false => exact hend _ hrest
      | true =>
        obtain ⟨rest, hrest⟩ := dialogue_say hrest
        exact hend rest hrest
  · cases he
    exact not_isPanic_acquireTimed hacquire ⟨message, rfl⟩

theorem exists_of_dialogue_complaints {α : Type} (lines : List String) {p : Unit → Program α}
    {z : Completion α} (h : Dialogue me (lines.forM complain >>= p) told z) :
    ∃ rest, Dialogue me (p ()) rest z := by
  induction lines generalizing told with
  | nil => exact ⟨told, h⟩
  | cons line lines ih =>
    obtain ⟨rest, hrest⟩ := dialogue_say h
    exact ih hrest

end Command

/-- **When the command panics.**  If its arguments ask it to acquire a mutex, it panics in a
    dialogue with the system exactly if the reader of its filter for events does, or if that
    passes and its time limit is a finite number of at least `2^64` seconds: what the system
    answers makes no difference.  For every other limit the acquisition runs with the options
    of the environment and the time budget that is in force: the nearest duration for a number
    of seconds, and the configured budget for what is negative, infinite, missing or no
    number. -/
theorem acquire_panics_iff_overlong {build : Build} {env : Environment} {args : List Bytes}
    {verbose : Bool} {name : String} {limit : Option Binary64} {holdMillis : Nat}
    (hparse : Request.parse args = .perform verbose (.acquire name limit holdMillis)) :
    (∀ me told z, Dialogue me (runCommand build env args) told z →
      (z.IsPanic ↔ (Telemetry.start env ⟨false, false⟩).2.1.IsPanic ∨
        (∃ b, (Telemetry.start env ⟨false, false⟩).2.1 = .returned b) ∧ Overlong limit)) ∧
    (¬ Overlong limit → ∃ d, InForce env limit d ∧
      Command.run build env verbose (.acquire name limit holdMillis) =
        Command.acquireAndHold env name { AcquireOptions.ofEnvironment env with timeout := d }
          holdMillis verbose) := by
  have hlimit : ¬ Overlong limit → ∃ d, InForce env limit d ∧
      Command.run build env verbose (.acquire name limit holdMillis) =
        Command.acquireAndHold env name { AcquireOptions.ofEnvironment env with timeout := d }
          holdMillis verbose := by
    intro h
    have hrounded : ∀ b, limit = some b → b.Rounded := fun b hb =>
      Arguments.rounded_of_parse (hb ▸ hparse)
    obtain ⟨d, hd, hbudget⟩ : ∃ d, InForce env limit d ∧ _ :=
      Command.withBudget_of_not_overlong hrounded h
    refine ⟨d, hd, ?_⟩
    simp only [Command.run, Command.runAcquire, hbudget]
  refine ⟨fun me told z h => ?_, hlimit⟩
  obtain ⟨state, ending, printed, hstart⟩ : ∃ state ending printed,
      Telemetry.start env ⟨false, false⟩ = (state, ending, printed) := ⟨_, _, _, rfl⟩
  unfold runCommand at h
  rw [hstart] at h ⊢
  obtain ⟨rest, h⟩ := Command.exists_of_dialogue_complaints printed h
  cases ending with
  | halted e =>
    obtain ⟨-, rfl⟩ := dialogue_halt_iff.1 h
    constructor
    · rintro ⟨message, hz⟩
      cases hz
      exact Or.inl ⟨message, rfl⟩
    · rintro (⟨message, hz⟩ | ⟨⟨b, hz⟩, -⟩)
      · cases hz
        exact ⟨message, rfl⟩
      · cases hz
  | returned b =>
    have hnot : ¬ (Completion.returned b).IsPanic := by
      rintro ⟨message, hz⟩
      cases hz
    simp only [hparse, Request.run] at h
    by_cases hover : Overlong limit
    · refine ⟨fun _ => Or.inr ⟨⟨b, rfl⟩, hover⟩, fun _ => ⟨Command.overlongMessage, ?_⟩⟩
      simp only [Command.run, Command.runAcquire, Command.withBudget_of_overlong _ hover] at h
      obtain ⟨-, rfl⟩ := dialogue_halt_iff.1 h
      rfl
    · refine ⟨fun hz => absurd hz ?_, fun hz => ?_⟩
      · obtain ⟨d, -, hrun⟩ := hlimit hover
        rw [hrun] at h
        rcases Dialogue.of_bind h with ⟨_, _, _, -, hdone, -⟩ | ⟨e, hhold, rfl⟩
        · rintro ⟨message, rfl⟩
          cases hdone
        · rintro ⟨message, hz⟩
          cases hz
          exact Command.not_isPanic_acquireAndHold hhold ⟨message, rfl⟩
      · rcases hz with hz | ⟨-, hz⟩
        · exact absurd hz hnot
        · exact absurd hz hover

/-- The arguments of an acquisition of `x` with a time limit. -/
def limitArguments (limit : String) : List Bytes :=
  ["acquire", "x", "--timeout", limit].map Utf8.encode

/-- The limit of `10^30` seconds panics.  Just below `2^64` seconds it depends on the number to
    which a limit is rounded whether it panics. -/
theorem acquire_panics_at_boundary :
    ((Machine.bare 1).run 1 (runCommand ⟨"", "", "", "", "", ""⟩ []
      (limitArguments "1e30"))).1 = .halted (.panicked Command.overlongMessage) ∧
    (∀ me told z, Dialogue me (runCommand ⟨"", "", "", "", "", ""⟩ []
      (limitArguments "1e30")) told z → z.IsPanic) ∧
    (∀ me told z, Dialogue me (runCommand ⟨"", "", "", "", "", ""⟩ []
      (limitArguments "18446744073709550592")) told z → z.IsPanic) ∧
    ∀ me told z, Dialogue me (runCommand ⟨"", "", "", "", "", ""⟩ []
      (limitArguments "18446744073709550591")) told z → ¬ z.IsPanic := by
  have hparse : ∀ limit ∈ ["1e30", "18446744073709550592", "18446744073709550591"],
      Request.parse (limitArguments limit) =
        .perform false (.acquire "x" (Binary64.parse? limit) 0) := by decide +kernel
  have hstart : ∃ b, (Telemetry.start [] ⟨false, false⟩).2.1 = .returned b := ⟨false, rfl⟩
  have hover : Overlong (Binary64.parse? "1e30") ∧
      Overlong (Binary64.parse? "18446744073709550592") ∧
      ¬ Overlong (Binary64.parse? "18446744073709550591") := by decide +kernel
  obtain ⟨hhuge, hrounded, hshort⟩ := hover
  refine ⟨by decide +kernel, fun me told z h => ?_, fun me told z h => ?_,
    fun me told z h hz => ?_⟩
  · exact ((acquire_panics_iff_overlong (hparse _ (by simp))).1 me told z h).2
      (Or.inr ⟨hstart, hhuge⟩)
  · exact ((acquire_panics_iff_overlong (hparse _ (by simp))).1 me told z h).2
      (Or.inr ⟨hstart, hrounded⟩)
  · rcases ((acquire_panics_iff_overlong (hparse _ (by simp))).1 me told z h).1 hz with
      ⟨message, hpanic⟩ | ⟨-, hover⟩
    · cases hpanic
    · exact hshort hover

end NamedMutex
