/-
  The listener of a process.

  The threads of a process ask for events to be shown, at any time and in any order, while
  others change the environment.  A call looks at the flag, at the switch and at the filter, and
  then installs the listener or finds another one; the flag and the listener are two things, and
  steps of other calls may come between any two of its own.

  * `Callers` are the calls of a process, `Run` what may come of them; `Account` says by which
    way a call came to where it stands, `Run.account` that there is no other;
  * `Won` says who has installed the listener; `Run.won`: there is at most one, and none if a
    listener was there before;
  * `Run.returned_true_iff`, `Run.disabled`, `Account.found_listening` say which calls return
    `true`, which change nothing, and which speak of another listener;
  * `startAll_of_ready` says what comes of whole calls one after another, `Run.startAll` that
    they are runs;
  * `listener_installed_once` is the main statement.
-/
import NamedMutex.Proofs.Filters
import NamedMutex.Proofs.Settings
import NamedMutex.Telemetry

namespace NamedMutex.Telemetry

/-! ## Calls of many threads -/

/-- A call: where it stands, and what it has printed. -/
structure Caller where
  phase : Phase
  printed : List String
  deriving DecidableEq

/-- A process and the calls of its threads, in the order in which they began. -/
structure Callers where
  env : Environment
  memory : Telemetry
  callers : List Caller
  deriving DecidableEq

/-- What may happen next. -/
inductive Move where
  /-- The environment becomes another one. -/
  | change (env : Environment)
  /-- A call begins. -/
  | begin
  /-- The call number `k` makes a step. -/
  | turn (k : Nat)

/-- A call after its next step. -/
def Caller.next (c : Caller) (env : Environment) (t : Telemetry) : Caller :=
  ⟨(step env t c.phase).2.1, c.printed ++ (step env t c.phase).2.2⟩

namespace Callers

/-- A step of the call `c`, which has number `k`. -/
def turn (s : Callers) (k : Nat) (c : Caller) : Callers :=
  { s with
    memory := (step s.env s.memory c.phase).1
    callers := s.callers.set k (c.next s.env s.memory) }

/-- One more call. -/
def join (s : Callers) : Callers :=
  { s with callers := s.callers ++ [⟨.readFlag, []⟩] }

def move? (s : Callers) : Move → Option Callers
  | .change env => some { s with env := env }
  | .begin => some s.join
  | .turn k => (s.callers[k]?).map (s.turn k)

/-- Where a call stands. -/
def phase? (s : Callers) (k : Nat) : Option Phase := (s.callers[k]?).map (·.phase)

end Callers

/-- What has happened: the states that were left, and by which move, the last one first. -/
abbrev Past := List (Callers × Move)

/-- The runs of a process that has a listener from elsewhere, or has none. -/
inductive Run (preset : Bool) : Past → Callers → Prop
  | start (env : Environment) : Run preset [] ⟨env, ⟨false, preset⟩, []⟩
  | next {past : Past} {s s' : Callers} {move : Move} : Run preset past s →
      s.move? move = some s' → Run preset ((s, move) :: past) s'

section Calls
variable {preset : Bool} {past : Past} {s s' u : Callers} {move : Move} {j k : Nat} {c : Caller}
  {phase : Phase} {printed : List String}

theorem Callers.move?_cases (h : s.move? move = some s') :
    (∃ env, move = .change env ∧ s' = { s with env := env }) ∨ (move = .begin ∧ s' = s.join) ∨
      ∃ k c, move = .turn k ∧ s.callers[k]? = some c ∧ s' = s.turn k c := by
  cases move with
  | change env => exact Or.inl ⟨env, rfl, (Option.some.inj h).symm⟩
  | begin => exact Or.inr (Or.inl ⟨rfl, (Option.some.inj h).symm⟩)
  | turn k =>
    obtain ⟨c, hc, rfl⟩ := Option.map_eq_some_iff.1 h
    exact Or.inr (Or.inr ⟨k, c, rfl, hc, rfl⟩)

theorem Callers.getElem?_join (s : Callers) (k : Nat) : s.join.callers[k]? =
    if k = s.callers.length then some ⟨.readFlag, []⟩ else s.callers[k]? := by
  rw [join]
  split
  · rename_i hk
    rw [hk, List.getElem?_concat_length]
  · rename_i hk
    rcases Nat.lt_or_gt_of_ne hk with hlt | hgt
    · exact List.getElem?_append_left hlt
    · rw [List.getElem?_eq_none (by simp; omega), List.getElem?_eq_none (by omega)]

theorem Callers.getElem?_turn (hc : s.callers[k]? = some c) (j : Nat) :
    (s.turn k c).callers[j]? =
      if j = k then some (c.next s.env s.memory) else s.callers[j]? := by
  obtain ⟨hlt, -⟩ := List.getElem?_eq_some_iff.1 hc
  rw [turn, List.getElem?_set]
  by_cases hj : j = k
  · simp [hj, hlt]
  · simp [hj, Ne.symm hj]

/-- **What becomes of a call** by any move: nothing, or its next step, or it has just begun. -/
theorem Callers.move?_caller (h : s.move? move = some s') (hc : s'.callers[k]? = some c) :
    s.callers[k]? = some c ∨ (c = ⟨.readFlag, []⟩) ∨
      ∃ d, move = .turn k ∧ s.callers[k]? = some d ∧ c = d.next s.env s.memory := by
  rcases move?_cases h with ⟨env, -, rfl⟩ | ⟨-, rfl⟩ | ⟨j, d, rfl, hd, rfl⟩
  · exact Or.inl hc
  · rw [getElem?_join] at hc
    split at hc
    · exact Or.inr (Or.inl (Option.some.inj hc).symm)
    · exact Or.inl hc
  · rw [getElem?_turn hd] at hc
    split at hc
    · rename_i hk
      subst hk
      exact Or.inr (Or.inr ⟨d, rfl, hd, (Option.some.inj hc).symm⟩)
    · exact Or.inl hc

/-! ## How calls came where they are -/

/-- The call number `k` made its step from a phase when the process was in such a state. -/
def Found (past : Past) (k : Nat) (phase : Phase) (P : Callers → Prop) : Prop :=
  ∃ u, (u, .turn k) ∈ past ∧ u.phase? k = some phase ∧ P u

/-- How a call came to where it stands, and what it has printed since it began. -/
inductive Account (past : Past) (k : Nat) : Phase → List String → Prop
  | begun : Account past k .readFlag []
  | late : Found past k .readFlag (·.memory.initialized = true) →
      Account past k (.answer false) []
  | early : Found past k .readFlag (·.memory.initialized = false) →
      Account past k .readSwitch []
  | disabled : Account past k .readSwitch [] →
      Found past k .readSwitch (·.env.tracingEnabled = false) →
      Account past k (.answer false) []
  | enabled : Account past k .readSwitch [] →
      Found past k .readSwitch (·.env.tracingEnabled = true) →
      Account past k .readFilter []
  | flawed {h : Halt} : Account past k .readFilter [] →
      Found past k .readFilter (fun u => Filter.parse u.env.filterText = .error h) →
      Account past k (.finished (.halted h)) []
  | read {f : Filter} {complaints : List String} : Account past k .readFilter [] →
      Found past k .readFilter (fun u => Filter.parse u.env.filterText = .ok (f, complaints)) →
      Account past k .install complaints
  | skipped {printed : List String} : Account past k .install printed →
      Found past k .install (·.memory.listening = true) →
      Account past k (.answer false) (printed ++ [skipped])
  | installed {printed : List String} : Account past k .install printed →
      Found past k .install (·.memory.listening = false) → Account past k .setFlag printed
  | done {printed : List String} {b : Bool} : Account past k .setFlag printed →
      Found past k .setFlag (·.memory.initialized = b) → Account past k (.answer !b) printed

theorem Found.older {P : Callers → Prop} (h : Found past k phase P) :
    Found ((u, move) :: past) k phase P := by
  obtain ⟨u, hu, h⟩ := h
  exact ⟨u, List.mem_cons_of_mem _ hu, h⟩

theorem Account.older (h : Account past k phase printed) :
    Account ((u, move) :: past) k phase printed := by
  induction h with
  | begun => exact .begun
  | late hfound => exact .late hfound.older
  | early hfound => exact .early hfound.older
  | disabled _ hfound ih => exact .disabled ih hfound.older
  | enabled _ hfound ih => exact .enabled ih hfound.older
  | flawed _ hfound ih => exact .flawed ih hfound.older
  | read _ hfound ih => exact .read ih hfound.older
  | skipped _ hfound ih => exact .skipped ih hfound.older
  | installed _ hfound ih => exact .installed ih hfound.older
  | done _ hfound ih => exact .done ih hfound.older

end Calls

section Next
variable {past : Past} {s : Callers} {k : Nat} {c : Caller}

theorem Account.next (h : Account past k c.phase c.printed) (hc : s.callers[k]? = some c) :
    Account ((s, .turn k) :: past) k (c.next s.env s.memory).phase
      (c.next s.env s.memory).printed := by
  have hfound : ∀ P : Callers → Prop, P s → Found ((s, .turn k) :: past) k c.phase P :=
    fun P hP => ⟨s, List.mem_cons_self .., by rw [Callers.phase?, hc, Option.map_some], hP⟩
  have hpast : Account ((s, .turn k) :: past) k c.phase c.printed := h.older
  obtain ⟨phase, printed⟩ := c
  cases phase with
  | readFlag =>
    cases h
    cases hset : s.memory.initialized with
    | true => simpa [Caller.next, step, hset] using Account.late (hfound _ hset)
    | false => simpa [Caller.next, step, hset] using Account.early (hfound _ hset)
  | readSwitch =>
    cases h
    cases hon : s.env.tracingEnabled with
    | true => simpa [Caller.next, step, hon] using Account.enabled hpast (hfound _ hon)
    | false => simpa [Caller.next, step, hon] using Account.disabled hpast (hfound _ hon)
  | readFilter =>
    cases h
    cases hread : Filter.parse s.env.filterText with
    | error e => simpa [Caller.next, step, hread] using Account.flawed hpast (hfound _ hread)
    | ok r =>
      obtain ⟨f, complaints⟩ := r
      simpa [Caller.next, step, hread] using Account.read hpast (hfound _ hread)
  | install =>
    cases hthere : s.memory.listening with
    | true => simpa [Caller.next, step, hthere] using Account.skipped hpast (hfound _ hthere)
    | false => simpa [Caller.next, step, hthere] using Account.installed hpast (hfound _ hthere)
  | setFlag => simpa [Caller.next, step] using Account.done hpast (hfound _ rfl)
  | finished z => simpa [Caller.next, step] using hpast

end Next

section Runs
variable {preset : Bool} {past : Past} {s s' : Callers} {move : Move} {j k : Nat} {c d : Caller}
  {phase : Phase} {printed : List String} {winner : Option Nat}

/-- **Every call is accounted for.** -/
theorem Run.account (hrun : Run preset past s) (hc : s.callers[k]? = some c) :
    Account past k c.phase c.printed := by
  induction hrun generalizing c with
  | start => cases hc
  | @next past s s' move hrun hmove ih =>
    rcases Callers.move?_caller hmove hc with hsame | rfl | ⟨d, rfl, hd, rfl⟩
    · exact (ih hsame).older
    · exact .begun
    · exact (ih hd).next hd

/-! ## Who has installed the listener -/

/-- A call has installed the listener. -/
def Phase.Installed (phase : Phase) : Prop := phase = .setFlag ∨ phase = .answer true

/-- The call that has installed the listener, if there is one, and what the process remembers. -/
structure Won (preset : Bool) (winner : Option Nat) (s : Callers) : Prop where
  winner_iff : ∀ k, winner = some k ↔ ∃ phase, s.phase? k = some phase ∧ phase.Installed
  listening_iff : s.memory.listening = true ↔ preset = true ∨ ∃ k, winner = some k
  ofPreset : preset = true → winner = none
  initialized_iff : s.memory.initialized = true ↔ ∃ k, s.phase? k = some (.answer true)

theorem Callers.phase?_turn (hc : s.callers[k]? = some c) (j : Nat) : (s.turn k c).phase? j =
    if j = k then some (step s.env s.memory c.phase).2.1 else s.phase? j := by
  rw [phase?, getElem?_turn hc]
  split <;> rfl

theorem Callers.phase?_join (s : Callers) (k : Nat) :
    s.join.phase? k = if k = s.callers.length then some .readFlag else s.phase? k := by
  rw [phase?, getElem?_join]
  split <;> rfl

theorem Won.congr (h : Won preset winner s) (hmemory : s'.memory = s.memory)
    (hphase : ∀ k phase, phase.Installed → (s'.phase? k = some phase ↔ s.phase? k = some phase)) :
    Won preset winner s' where
  winner_iff k := by
    rw [h.winner_iff]
    exact exists_congr fun phase => and_congr_left fun hphase' => (hphase k phase hphase').symm
  listening_iff := by rw [hmemory, h.listening_iff]
  ofPreset := h.ofPreset
  initialized_iff := by
    rw [hmemory, h.initialized_iff]
    exact exists_congr fun k => (hphase k _ (Or.inr rfl)).symm

/-- The listener is installed by a call when nobody has done so. -/
theorem Won.install (h : Won preset winner s) (hc : s.callers[k]? = some c)
    (hphase : c.phase = .install) (hfree : s.memory.listening = false) :
    Won preset (some k) (s.turn k c) := by
  have hnobody : ¬ (preset = true ∨ ∃ k, winner = some k) := by
    rw [← h.listening_iff, hfree]
    exact Bool.false_ne_true
  have hnone : ∀ j phase, s.phase? j = some phase → ¬ phase.Installed := fun j phase hj hdone =>
    hnobody (Or.inr ⟨j, (h.winner_iff j).2 ⟨phase, hj, hdone⟩⟩)
  have hturn : ∀ j, (s.turn k c).phase? j = if j = k then some .setFlag else s.phase? j := by
    intro j
    rw [Callers.phase?_turn hc]
    simp [hphase, step, hfree]
  have hmemory : (s.turn k c).memory = { s.memory with listening := true } := by
    simp [Callers.turn, hphase, step, hfree]
  refine ⟨fun j => ?_, ?_, fun hpreset => absurd (Or.inl hpreset) hnobody, ?_⟩
  · rw [hturn]
    by_cases hj : j = k
    · simp [hj, Phase.Installed]
    · simp only [if_neg hj, Option.some.injEq, Ne.symm hj, false_iff]
      rintro ⟨phase, hphase, hdone⟩
      exact hnone j phase hphase hdone
  · simp [hmemory]
  · simp only [hmemory, h.initialized_iff, hturn]
    refine ⟨fun ⟨j, hj⟩ => absurd (Or.inr rfl) (hnone j _ hj), fun ⟨j, hj⟩ => ?_⟩
    split at hj
    · cases hj
    · exact absurd (Or.inr rfl) (hnone j _ hj)

/-- The call that has installed the listener finds the flag unset, and sets it. -/
theorem Won.setFlag (h : Won preset winner s) (hc : s.callers[k]? = some c)
    (hphase : c.phase = .setFlag) :
    s.memory.initialized = false ∧ Won preset winner (s.turn k c) := by
  have hk : s.phase? k = some .setFlag := by rw [Callers.phase?, hc, Option.map_some, hphase]
  have hwinner : winner = some k := (h.winner_iff k).2 ⟨_, hk, Or.inl rfl⟩
  have hunset : s.memory.initialized = false := by
    -- a call that had set the flag would have installed the listener as well
    rw [Bool.eq_false_iff]
    intro hset
    obtain ⟨j, hj⟩ := h.initialized_iff.1 hset
    have hother : winner = some j := (h.winner_iff j).2 ⟨_, hj, Or.inr rfl⟩
    obtain rfl : k = j := Option.some.inj (hwinner.symm.trans hother)
    rw [hk] at hj
    cases hj
  have hturn : ∀ j, (s.turn k c).phase? j = if j = k then some (.answer true) else s.phase? j := by
    intro j
    rw [Callers.phase?_turn hc]
    simp [hphase, step, hunset]
  have hmemory : (s.turn k c).memory = { s.memory with initialized := true } := by
    simp [Callers.turn, hphase, step]
  refine ⟨hunset, fun j => ?_, ?_, h.ofPreset, ?_⟩
  · rw [hturn]
    by_cases hj : j = k
    · simp [hj, hwinner, Phase.Installed]
    · rw [if_neg hj]
      exact h.winner_iff j
  · rw [hmemory]
    exact h.listening_iff
  · simp only [hmemory, hturn, true_iff]
    exact ⟨k, if_pos rfl⟩

/-- Only two steps concern what the process remembers: the installation and the setting of the
    flag. -/
theorem step_cases (env : Environment) (t : Telemetry) (phase : Phase) :
    phase = .install ∧ t.listening = false ∨ phase = .setFlag ∨
      (step env t phase).1 = t ∧
        ((step env t phase).2.1 = phase ∨
          ¬ phase.Installed ∧ ¬ (step env t phase).2.1.Installed) := by
  cases phase with
  | readFlag => cases h : t.initialized <;> simp [step, h, Phase.Installed, Phase.answer]
  | readSwitch => cases h : env.tracingEnabled <;> simp [step, h, Phase.Installed, Phase.answer]
  | readFilter =>
    cases h : Filter.parse env.filterText <;> simp [step, h, Phase.Installed, Phase.answer]
  | install => cases h : t.listening <;> simp [step, h, Phase.Installed, Phase.answer]
  | setFlag => exact Or.inr (Or.inl rfl)
  | finished z => exact Or.inr (Or.inr ⟨rfl, Or.inl rfl⟩)

/-- **A step of a call** changes who has installed the listener only if it does so. -/
theorem Won.turn (h : Won preset winner s) (hc : s.callers[k]? = some c) :
    ∃ winner', Won preset winner' (s.turn k c) := by
  rcases step_cases s.env s.memory c.phase with ⟨hphase, hfree⟩ | hphase | ⟨hmemory, hidle⟩
  · exact ⟨some k, h.install hc hphase hfree⟩
  · exact ⟨winner, (h.setFlag hc hphase).2⟩
  · refine ⟨winner, h.congr hmemory fun j phase hphase => ?_⟩
    rw [Callers.phase?_turn hc]
    split
    · rename_i hj
      rw [hj, Callers.phase?, hc, Option.map_some, Option.some.injEq, Option.some.injEq]
      rcases hidle with hsame | ⟨hbefore, hafter⟩
      · rw [hsame]
      · constructor
        · rintro rfl
          exact absurd hphase hafter
        · rintro rfl
          exact absurd hphase hbefore
    · rfl

/-- **In every run at most one call installs the listener**, and none if there was one. -/
theorem Run.won (hrun : Run preset past s) : ∃ winner, Won preset winner s := by
  induction hrun with
  | start env =>
    refine ⟨none, fun k => ?_, ?_, fun _ => rfl, ?_⟩
    · simp [Callers.phase?]
    · simp
    · simp [Callers.phase?]
  | @next past s s' move hrun hmove ih =>
    obtain ⟨winner, hwon⟩ := ih
    rcases Callers.move?_cases hmove with ⟨env, -, rfl⟩ | ⟨-, rfl⟩ | ⟨k, c, -, hc, rfl⟩
    · exact ⟨winner, hwon.congr rfl fun _ _ _ => Iff.rfl⟩
    · refine ⟨winner, hwon.congr rfl fun k phase hphase => ?_⟩
      rw [Callers.phase?_join]
      split
      · rename_i hk
        rw [hk, Callers.phase?, List.getElem?_eq_none (Nat.le_refl _), Option.some.injEq]
        constructor
        · rintro rfl
          rcases hphase with h | h <;> cases h
        · nofun
      · rfl
    · exact hwon.turn hc

end Runs

/-! ## What a call has seen -/

section Seen
variable {preset : Bool} {past : Past} {s s' u : Callers} {move : Move} {k : Nat} {c : Caller}
  {phase : Phase} {printed : List String} {f : Filter} {complaints : List String} {text : String}

/-- **A state that was left** is one of a run, and what had been found then was found. -/
theorem Run.before (hrun : Run preset past s) (h : (u, move) ∈ past) :
    ∃ earlier, earlier ⊆ past ∧ Run preset earlier u := by
  induction hrun with
  | start => cases h
  | @next past s s' move' hrun hmove ih =>
    rcases List.mem_cons.1 h with heq | hold
    · cases heq
      exact ⟨past, List.subset_cons_self .., hrun⟩
    · obtain ⟨earlier, hsub, hearlier⟩ := ih hold
      exact ⟨earlier, fun _ hmem => List.mem_cons_of_mem _ (hsub hmem), hearlier⟩

theorem Found.mono {earlier : Past} {P : Callers → Prop} (hsub : earlier ⊆ past)
    (h : Found earlier k phase P) : Found past k phase P := by
  obtain ⟨u, hu, h⟩ := h
  exact ⟨u, hsub hu, h⟩

/-- **A call finds the flag unset and the switch on**, or it comes to an end with nothing done. -/
theorem Account.idle_or_enabled (h : Account past k phase printed) :
    printed = [] ∧ (phase = .readFlag ∨ phase = .readSwitch ∨ phase = .answer false) ∨
      Found past k .readFlag (·.memory.initialized = false) ∧
        Found past k .readSwitch (·.env.tracingEnabled = true) := by
  induction h with
  | begun => exact Or.inl ⟨rfl, Or.inl rfl⟩
  | early _ => exact Or.inl ⟨rfl, Or.inr (Or.inl rfl)⟩
  | late _ | disabled _ _ => exact Or.inl ⟨rfl, Or.inr (Or.inr rfl)⟩
  | enabled hswitch hon =>
    cases hswitch with
    | early hunset => exact Or.inr ⟨hunset, hon⟩
  | flawed _ _ ih | read _ _ ih | skipped _ _ ih | installed _ _ ih | done _ _ ih =>
    exact Or.inr (ih.resolve_left fun h => by rcases h.2 with h | h | h <;> cases h)

theorem skipped_not_mem (h : Filter.parse text = .ok (f, complaints)) : skipped ∉ complaints := by
  have hhead : ∀ part flaw, (Filter.complaint part flaw).toList.head? = some 'i' := by
    intro part flaw
    unfold Filter.complaint
    simp only [String.toList_append, String.toList_ofList]
    rfl
  have hskipped : skipped.toList.head? = some 's' := by decide
  intro hmem
  obtain ⟨part, -, flaw, -, heq⟩ := Filter.complainsOf_of_mem h hmem
  rw [heq, hhead] at hskipped
  cases hskipped

/-- **Who says that another listener is there** found one at the end. -/
theorem Account.found_listening (h : Account past k phase printed)
    (hmem : Telemetry.skipped ∈ printed) :
    phase = .answer false ∧ Found past k .install (·.memory.listening = true) := by
  induction h with
  | begun | late _ | early _ | disabled _ _ | enabled _ _ | flawed _ _ => cases hmem
  | read _ hread =>
    obtain ⟨u, -, -, hparse⟩ := hread
    exact absurd hmem (skipped_not_mem hparse)
  | skipped _ hthere => exact ⟨rfl, hthere⟩
  | installed _ _ ih | done _ _ ih => cases (ih hmem).1

theorem Account.found_free (h : Account past k phase printed) (hphase : phase = .answer true) :
    Found past k .install (·.memory.listening = false) := by
  cases h with
  | done hset _ =>
    cases hset with
    | installed _ hfree => exact hfree
  | _ => cases hphase

/-- **A call that has installed the listener** goes on to return `true`. -/
theorem Run.installed_next (hrun : Run preset past s) (hmove : s.move? move = some s')
    (hk : s.phase? k = some phase) (hphase : phase.Installed) :
    ∃ phase', s'.phase? k = some phase' ∧ phase'.Installed := by
  rcases Callers.move?_cases hmove with ⟨env, -, rfl⟩ | ⟨-, rfl⟩ | ⟨j, c, -, hc, rfl⟩
  · exact ⟨phase, hk, hphase⟩
  · obtain ⟨c, hc, -⟩ := Option.map_eq_some_iff.1 hk
    obtain ⟨hlt, -⟩ := List.getElem?_eq_some_iff.1 hc
    rw [Callers.phase?_join, if_neg (Nat.ne_of_lt hlt)]
    exact ⟨phase, hk, hphase⟩
  · rw [Callers.phase?_turn hc]
    split
    · rename_i hj
      rw [hj, Callers.phase?, hc, Option.map_some, Option.some.injEq] at hk
      rcases hphase with hset | htrue
      · obtain ⟨winner, hwon⟩ := hrun.won
        have hunset := (hwon.setFlag hc (hk.trans hset)).1
        exact ⟨.answer true, by rw [hk, hset, step, hunset, Bool.not_false], Or.inr rfl⟩
      · exact ⟨.answer true, by rw [hk, htrue]; rfl, Or.inr rfl⟩
    · exact ⟨phase, hk, hphase⟩

theorem Run.installed (hrun : Run preset past s)
    (h : Found past k .install (·.memory.listening = false)) :
    ∃ phase, s.phase? k = some phase ∧ phase.Installed := by
  induction hrun with
  | start =>
    obtain ⟨u, hu, -⟩ := h
    cases hu
  | @next past s s' move hrun hmove ih =>
    obtain ⟨u, hu, hk, hfree⟩ := h
    rcases List.mem_cons.1 hu with heq | hold
    · cases heq
      obtain ⟨c, hc, hphase⟩ := Option.map_eq_some_iff.1 hk
      obtain rfl : s.turn k c = s' := by simpa [Callers.move?, hc] using hmove
      refine ⟨.setFlag, ?_, Or.inl rfl⟩
      rw [Callers.phase?_turn hc, if_pos rfl, hphase, step, if_neg (by simp [hfree])]
    · obtain ⟨phase, hphase, hdone⟩ := ih ⟨u, hold, hk, hfree⟩
      exact hrun.installed_next hmove hphase hdone

/-- **A call returns `true`** exactly if it has found no listener and installed one. -/
theorem Run.returned_true_iff (hrun : Run preset past s) (hc : s.callers[k]? = some c)
    {ending : Completion Bool} (hended : c.phase = .finished ending) :
    ending = .returned true ↔ Found past k .install (·.memory.listening = false) := by
  constructor
  · rintro rfl
    exact (hrun.account hc).found_free hended
  · intro hfree
    obtain ⟨phase, hphase, hinstalled⟩ := hrun.installed hfree
    rw [Callers.phase?, hc, Option.map_some, hended, Option.some.injEq] at hphase
    rcases hinstalled with rfl | rfl
    · cases hphase
    · injection hphase

/-- **A call that does not find the switch on** prints nothing, returns `false`, and leaves what
    the process remembers as it is, step by step. -/
theorem Run.disabled (hrun : Run preset past s) (hc : s.callers[k]? = some c)
    (hoff : ¬ Found past k .readSwitch (·.env.tracingEnabled = true)) :
    c.printed = [] ∧ (c.phase = .readFlag ∨ c.phase = .readSwitch ∨ c.phase = .answer false) ∧
      ∀ u u', (u, .turn k) ∈ past → u.move? (.turn k) = some u' →
        u'.memory = u.memory ∧ u'.env = u.env ∧
          ∀ j, j ≠ k → u'.callers[j]? = u.callers[j]? := by
  have hidle := (hrun.account hc).idle_or_enabled.resolve_right fun h => hoff h.2
  refine ⟨hidle.1, hidle.2, fun u u' hu hmove => ?_⟩
  -- before each of its steps the call had not found the switch on either
  obtain ⟨earlier, hsub, hearlier⟩ := hrun.before hu
  obtain ⟨d, hd, rfl⟩ := Option.map_eq_some_iff.1 hmove
  have hphase := ((hearlier.account hd).idle_or_enabled.resolve_right fun h =>
    hoff (h.2.mono hsub)).2
  refine ⟨?_, rfl, fun j hj => by rw [Callers.getElem?_turn hd, if_neg hj]⟩
  rcases step_cases u.env u.memory d.phase with ⟨hinstall, -⟩ | hset | ⟨hsame, -⟩
  · rw [hinstall] at hphase
    rcases hphase with h | h | h <;> cases h
  · rw [hset] at hphase
    rcases hphase with h | h | h <;> cases h
  · exact hsame

end Seen

/-! ## Calls one after another -/

/-- Calls one after another, each in its own environment: the state after them, and what has come
    of each. -/
def startAll : List Environment → Telemetry → Telemetry × List (Completion Bool × List String)
  | [], t => (t, [])
  | env :: envs, t =>
    let (t, outcome) := start env t
    let (t, outcomes) := startAll envs t
    (t, outcome :: outcomes)

/-- The switch is on, and the filter can be read. -/
def Ready (env : Environment) : Prop :=
  env.tracingEnabled = true ∧ ∃ f complaints, Filter.parse env.filterText = .ok (f, complaints)

/-- What comes of a call that is not ready: it returns, or breaks off at the filter. -/
def unready (env : Environment) : Completion Bool × List String :=
  match env.tracingEnabled, Filter.parse env.filterText with
  | true, .error h => (.halted h, [])
  | _, _ => (.returned false, [])

section Sequences
variable {env : Environment} {envs before after : List Environment} {t : Telemetry} {f : Filter}
  {complaints : List String}

theorem start_initialized (env : Environment) (h : t.initialized = true) :
    start env t = (t, .returned false, []) := by
  simp [start, run, step, h, Phase.answer]

theorem start_unready (ht : t.initialized = false) (h : ¬ Ready env) :
    start env t = (t, unready env) := by
  cases hon : env.tracingEnabled with
  | false => simp [start, run, step, ht, hon, Phase.answer, unready]
  | true =>
    cases hparse : Filter.parse env.filterText with
    | ok r => exact absurd ⟨hon, r.1, r.2, hparse⟩ h
    | error e => simp [start, run, step, ht, hon, hparse, unready]

theorem start_ready (hon : env.tracingEnabled = true)
    (hparse : Filter.parse env.filterText = .ok (f, complaints)) :
    start env ⟨false, false⟩ = (⟨true, true⟩, .returned true, complaints) := by
  simp [start, run, step, hon, hparse, Phase.answer]

theorem startAll_append (before after : List Environment) (t : Telemetry) :
    startAll (before ++ after) t = ((startAll after (startAll before t).1).1,
      (startAll before t).2 ++ (startAll after (startAll before t).1).2) := by
  induction before generalizing t with
  | nil => rfl
  | cons env before ih => simp only [List.cons_append, startAll, ih]

theorem startAll_initialized (envs : List Environment) (h : t.initialized = true) :
    startAll envs t = (t, envs.map fun _ => (.returned false, [])) := by
  induction envs with
  | nil => rfl
  | cons env envs ih => simp only [startAll, start_initialized env h, ih, List.map_cons]

theorem startAll_unready (ht : t.initialized = false) (h : ∀ env ∈ envs, ¬ Ready env) :
    startAll envs t = (t, envs.map unready) := by
  induction envs with
  | nil => rfl
  | cons env envs ih =>
    obtain ⟨henv, henvs⟩ := List.forall_mem_cons.1 h
    simp only [startAll, start_unready ht henv, ih henvs, List.map_cons]

/-- **Of calls one after another** the first one that is ready returns `true`. -/
theorem startAll_of_ready (hbefore : ∀ env ∈ before, ¬ Ready env)
    (hon : env.tracingEnabled = true)
    (hparse : Filter.parse env.filterText = .ok (f, complaints)) :
    startAll (before ++ env :: after) ⟨false, false⟩ = (⟨true, true⟩, before.map unready ++
      (.returned true, complaints) :: after.map fun _ => (.returned false, [])) := by
  have hafter := startAll_initialized (t := ⟨true, true⟩) after rfl
  rw [startAll_append, startAll_unready rfl hbefore]
  simp only [startAll, start_ready hon hparse, hafter]

end Sequences

/-! ### Whole calls as runs -/

/-- How many steps a call has left at most. -/
def Phase.left : Phase → Nat
  | .readFlag => 5
  | .readSwitch => 4
  | .readFilter => 3
  | .install => 2
  | .setFlag => 1
  | .finished _ => 0

theorem left_step (env : Environment) (t : Telemetry) (phase : Phase) :
    (step env t phase).2.1.left ≤ phase.left - 1 := by
  cases phase with
  | readFlag => cases h : t.initialized <;> simp [step, h, Phase.left, Phase.answer]
  | readSwitch => cases h : env.tracingEnabled <;> simp [step, h, Phase.left, Phase.answer]
  | readFilter => cases h : Filter.parse env.filterText <;> simp [step, h, Phase.left]
  | install => cases h : t.listening <;> simp [step, h, Phase.left, Phase.answer]
  | setFlag | finished _ => exact Nat.le_refl _

theorem run_succ (env : Environment) (n : Nat) (t : Telemetry) (phase : Phase) :
    run env (n + 1) t phase = ((run env n (step env t phase).1 (step env t phase).2.1).1,
      (run env n (step env t phase).1 (step env t phase).2.1).2.1,
      (step env t phase).2.2 ++ (run env n (step env t phase).1 (step env t phase).2.1).2.2) := by
  cases phase with
  | finished ending => cases n <;> rfl
  | _ => rfl

section Whole
variable {preset : Bool} {past : Past} {s : Callers} {k : Nat} {c : Caller}

/-- **A call that is left to itself** comes to the end that its steps bring it to. -/
theorem Run.run (hrun : Run preset past s) (hc : s.callers[k]? = some c) {n : Nat}
    (hn : c.phase.left ≤ n) : ∃ past' s', Run preset past' s' ∧ s'.env = s.env ∧
      s'.memory = (Telemetry.run s.env n s.memory c.phase).1 ∧
      s'.callers = s.callers.set k ⟨.finished (Telemetry.run s.env n s.memory c.phase).2.1,
        c.printed ++ (Telemetry.run s.env n s.memory c.phase).2.2⟩ := by
  induction n generalizing past s c with
  | zero =>
    obtain ⟨phase, printed⟩ := c
    cases phase with
    | finished ending =>
      refine ⟨past, s, hrun, rfl, rfl, ?_⟩
      obtain ⟨hlt, hget⟩ := List.getElem?_eq_some_iff.1 hc
      simp only [Telemetry.run, List.append_nil, ← hget, List.set_getElem_self]
    | _ => cases hn
  | succ n ih =>
    have hnext : (s.turn k c).callers[k]? = some (c.next s.env s.memory) := by
      rw [Callers.getElem?_turn hc, if_pos rfl]
    have hleft : (c.next s.env s.memory).phase.left ≤ n :=
      (left_step s.env s.memory c.phase).trans (by omega)
    have hmove : s.move? (.turn k) = some (s.turn k c) := by rw [Callers.move?, hc, Option.map_some]
    obtain ⟨past', s', hrun', henv, hmemory, hcallers⟩ := ih (hrun.next hmove) hnext hleft
    refine ⟨past', s', hrun', henv, ?_, ?_⟩
    · rw [hmemory, run_succ]
      rfl
    · rw [hcallers, run_succ, Callers.turn, List.set_set, ← List.append_assoc]
      rfl

theorem Run.start_call (hrun : Run preset past s) (env : Environment) : ∃ past' s',
    Run preset past' s' ∧ s'.memory = (Telemetry.start env s.memory).1 ∧ s'.callers = s.callers ++
      [⟨.finished (Telemetry.start env s.memory).2.1, (Telemetry.start env s.memory).2.2⟩] := by
  have hchange : Run preset ((s, .change env) :: past) { s with env := env } := hrun.next rfl
  have hmove : ({ s with env := env } : Callers).move? .begin =
      some (Callers.join { s with env := env }) := rfl
  have hcaller : (s.callers ++ [⟨.readFlag, []⟩])[s.callers.length]? = some ⟨.readFlag, []⟩ :=
    List.getElem?_concat_length
  obtain ⟨past', s', hrun', -, hmemory, hcallers⟩ :=
    (hchange.next hmove).run hcaller (n := 5) (Nat.le_refl 5)
  refine ⟨past', s', hrun', hmemory, ?_⟩
  rw [hcallers, Callers.join, List.set_append_right _ _ (Nat.le_refl _), Nat.sub_self]
  rfl

/-- **Calls one after another are runs**, whatever calls there were before. -/
theorem Run.startAll (hrun : Run preset past s) (envs : List Environment) : ∃ past' s',
    Run preset past' s' ∧ s'.memory = (Telemetry.startAll envs s.memory).1 ∧
      s'.callers = s.callers ++ (Telemetry.startAll envs s.memory).2.map fun outcome =>
        ⟨.finished outcome.1, outcome.2⟩ := by
  induction envs generalizing past s with
  | nil => exact ⟨past, s, hrun, rfl, (List.append_nil _).symm⟩
  | cons env envs ih =>
    obtain ⟨past₁, s₁, hrun₁, hmemory₁, hcallers₁⟩ := hrun.start_call env
    obtain ⟨past₂, s₂, hrun₂, hmemory₂, hcallers₂⟩ := ih hrun₁
    refine ⟨past₂, s₂, hrun₂, ?_, ?_⟩
    · rw [hmemory₂, hmemory₁]
      rfl
    · rw [hcallers₂, hmemory₁, hcallers₁, List.append_assoc]
      rfl

end Whole

/-! ## One listener -/

/-- **The listener is installed at most once**, whatever the calls of the threads of a process do
    to each other, and however the environment changes meanwhile.  At most one call returns
    `true`, none does if a listener was there before, and it is the one that found no listener.
    Only a call that found the flag unset, the switch on and then a listener says that one is
    there.  A call that does not find the switch on changes nothing.  Of calls one after another,
    which are runs too, the first one with the switch on and a filter that can be read returns
    `true`, and all others return `false`, except those that break off at a filter that cannot be
    read; and a filter can be read if each of its parts is of ASCII characters only or has no
    blank before it. -/
theorem listener_installed_once {preset : Bool} {past : Past} {s : Callers}
    (hrun : Run preset past s) :
    (∀ j k, s.phase? j = some (.answer true) → s.phase? k = some (.answer true) → j = k) ∧
    (preset = true → ∀ k, s.phase? k ≠ some (.answer true)) ∧
    (∀ k c ending, s.callers[k]? = some c → c.phase = .finished ending →
      (ending = .returned true ↔ Found past k .install (·.memory.listening = false))) ∧
    (∀ k c, s.callers[k]? = some c → skipped ∈ c.printed → c.phase = .answer false ∧
      Found past k .readFlag (·.memory.initialized = false) ∧
      Found past k .readSwitch (·.env.tracingEnabled = true) ∧
      Found past k .install (·.memory.listening = true)) ∧
    (∀ k c, s.callers[k]? = some c → ¬ Found past k .readSwitch (·.env.tracingEnabled = true) →
      c.printed = [] ∧ (c.phase = .readFlag ∨ c.phase = .readSwitch ∨ c.phase = .answer false) ∧
      ∀ u u', (u, .turn k) ∈ past → u.move? (.turn k) = some u' →
        u'.memory = u.memory ∧ u'.env = u.env ∧
          ∀ j, j ≠ k → u'.callers[j]? = u.callers[j]?) ∧
    (∀ before env after f complaints, (∀ e ∈ before, ¬ Ready e) → env.tracingEnabled = true →
      Filter.parse env.filterText = .ok (f, complaints) →
      startAll (before ++ env :: after) ⟨false, false⟩ = (⟨true, true⟩, before.map unready ++
        (.returned true, complaints) :: after.map fun _ => (.returned false, []))) ∧
    (∀ envs, (∀ env ∈ envs, ¬ Ready env) →
      startAll envs ⟨false, false⟩ = (⟨false, false⟩, envs.map unready)) ∧
    (∀ envs, ∃ past' s', Run preset past' s' ∧ s'.memory = (startAll envs s.memory).1 ∧
      s'.callers = s.callers ++ (startAll envs s.memory).2.map fun outcome =>
        ⟨.finished outcome.1, outcome.2⟩) ∧
    (∀ env : Environment, env.tracingEnabled = true ↔
      env.get? "SYSMUTEX_TRACING_FMT" = some (Utf8.encode "1")) ∧
    (∀ text, (∀ part ∈ Filter.parts text,
        (∀ c ∈ part, Utf8.IsAscii c) ∨ ∀ c, part.head? = some c → isBlank c = false) →
      ∃ f complaints, Filter.parse text = .ok (f, complaints)) := by
  obtain ⟨winner, hwon⟩ := hrun.won
  have hwinner : ∀ k, s.phase? k = some (.answer true) → winner = some k :=
    fun k hk => (hwon.winner_iff k).2 ⟨_, hk, Or.inr rfl⟩
  refine ⟨fun j k hj hk => Option.some.inj ((hwinner j hj).symm.trans (hwinner k hk)),
    fun hpreset k hk => ?_, fun k c ending hc => hrun.returned_true_iff hc, fun k c hc hmem => ?_,
    fun k c hc => hrun.disabled hc, fun before env after f complaints hbefore hon hparse =>
      startAll_of_ready hbefore hon hparse, fun envs => startAll_unready rfl, hrun.startAll,
    fun env => ?_, fun text => Filter.exists_parse⟩
  · rw [hwon.ofPreset hpreset] at hwinner
    cases hwinner k hk
  · have haccount := hrun.account hc
    obtain ⟨hphase, hthere⟩ := haccount.found_listening hmem
    rcases haccount.idle_or_enabled with ⟨hnone, -⟩ | ⟨hunset, hon⟩
    · rw [hnone] at hmem
      cases hmem
    · exact ⟨hphase, hunset, hon, hthere⟩
  · rw [Environment.tracingEnabled, decide_eq_true_iff, Environment.text?_eq_some_iff]

/-- Many moves. -/
def Callers.moves? : List Move → Callers → Option Callers
  | [], s => some s
  | move :: moves, s => (s.move? move).bind (moves? moves)

theorem Run.moves {preset : Bool} {past : Past} {s s' : Callers} {moves : List Move}
    (hrun : Run preset past s) (h : s.moves? moves = some s') : ∃ past', Run preset past' s' := by
  induction moves generalizing past s with
  | nil =>
    cases h
    exact ⟨past, hrun⟩
  | cons move moves ih =>
    rw [Callers.moves?, Option.bind_eq_some_iff] at h
    obtain ⟨u, hmove, hu⟩ := h
    exact ih (hrun.next hmove) hu

/-- The switch is on, and the filter is the usual one. -/
def switchedOn : Environment := [("SYSMUTEX_TRACING_FMT", Utf8.encode "1")]

/-- The switch is on, and the filter has a wide blank before a short source. -/
def indented : Environment :=
  [("SYSMUTEX_TRACING_FMT", Utf8.encode "1"), ("RUST_LOG", Utf8.encode "\u3000ab=debug")]

/-- Two calls go up to the installation; then a third one begins and is disabled, the second one
    installs the listener, and the first one finds it. -/
def overtaking : List Move :=
  [.change switchedOn, .begin, .begin, .turn 0, .turn 0, .turn 0, .turn 1, .turn 1, .turn 1,
    .change [], .begin, .turn 2, .turn 2, .turn 1, .turn 0, .turn 1]

theorem parse_switchedOn : Filter.parse switchedOn.filterText =
    .ok (⟨[{ Directive.everything with detail := 2 }]⟩, []) := by
  decide +kernel

theorem parse_indented : Filter.parse indented.filterText =
    .error (.panicked (Directive.Flaw.cut 2).message) := by
  decide +kernel

theorem overtaken : Callers.moves? overtaking ⟨[], ⟨false, false⟩, []⟩ = some ⟨[], ⟨true, true⟩,
    [⟨.answer false, [skipped]⟩, ⟨.answer true, []⟩, ⟨.answer false, []⟩]⟩ := by
  decide +kernel

/-- The second call of three has installed the listener, and the first one says so.  Of five calls
    one after another the second one breaks off, and the third one is the first that is ready. -/
theorem listener_installed_once_when_overtaken :
    (∃ past s, Run false past s ∧
      s.callers = [⟨.answer false, [skipped]⟩, ⟨.answer true, []⟩, ⟨.answer false, []⟩] ∧
      (∀ k, s.phase? k = some (.answer true) → k = 1) ∧
      Found past 0 .readSwitch (·.env.tracingEnabled = true) ∧
      Found past 0 .install (·.memory.listening = true) ∧
      Found past 1 .install (·.memory.listening = false)) ∧
    startAll [[], indented, switchedOn, switchedOn, []] ⟨false, false⟩ = (⟨true, true⟩,
      [(.returned false, []), (.halted (.panicked (Directive.Flaw.cut 2).message), []),
        (.returned true, []), (.returned false, []), (.returned false, [])]) := by
  have hstart : Run false [] ⟨[], ⟨false, false⟩, []⟩ := .start []
  obtain ⟨past, hrun⟩ := hstart.moves overtaken
  obtain ⟨honce, -, htrue, hskipped, -, hsequence, -⟩ := listener_installed_once hrun
  have hunready : ∀ env ∈ [[], indented], ¬ Ready env := by
    rintro env henv ⟨hon, f, complaints, hparse⟩
    simp only [List.mem_cons, List.not_mem_nil, or_false] at henv
    rcases henv with rfl | rfl
    · cases hon
    · rw [parse_indented] at hparse
      cases hparse
  have hlast := hsequence [[], indented] switchedOn [switchedOn, []] _ [] hunready (by decide)
    parse_switchedOn
  obtain ⟨-, -, hon, hthere⟩ := hskipped 0 _ rfl (List.mem_singleton.2 rfl)
  refine ⟨⟨past, _, hrun, rfl, fun k hk => honce k 1 hk rfl, hon, hthere,
    (htrue 1 _ _ rfl rfl).1 rfl⟩, hlast.trans ?_⟩
  simp only [List.map_cons, List.map_nil, unready, parse_indented]
  rfl

end NamedMutex.Telemetry
