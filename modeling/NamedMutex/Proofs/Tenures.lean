/-
  Handles and guards in the hands of the threads of a process.

  Threads make attempts and acquisitions, and what these yield they release or drop when they
  like, as often as they like.  Their calls are answered one at a time, in any order, and may
  fail; in between, anything may happen elsewhere.

  * `Tenures.Run` is a run of any number of such threads;
  * `Task.dialogue_iff`, `Task.yields`: what a task has on record in the end, and what it
    yields;
  * `Kept` is what holds of all states: every file that is open in the hands of a thread is its
    own, and what was given up is shut; `Run.kept` says that it does.
-/
import NamedMutex.Proofs.Holdings

namespace NamedMutex

open Program

/-! ## Tasks -/

/-- What has to be given up some time. -/
inductive Holding where
  | handle (h : Handle)
  | guard (g : Guard)
  deriving DecidableEq, Repr

/-- The handle of a holding. -/
def Holding.inner : Holding → Handle
  | handle h => h
  | guard g => g.handle

/-- How a task ends for the mutex at a path: with an acquired mutex in the role of its owner, or
    with no file open. -/
def Holding.Ends (path : Path) : Completion (Option Holding) → Role → Prop
  | .returned (some o), r => o.inner.path = path ∧
      (∀ d, o.inner.held = some d → r = .owner d .stamped) ∧
      (o.inner.held = none → r.file = none) ∧ ∀ g, o = .guard g → g.handle.held.isSome = true
  | .returned none, r => r.file = none
  | .halted _, r => r.file = none

section Ends
variable {dir : Path} {name : String} {r : Role}

theorem Holding.ends_of_acquires {h : Handle}
    (hx : Handle.Acquires dir name (.returned (.ok h)) r) :
    Holding.Ends (lockPath dir name) (.returned (some (.handle h))) r := by
  obtain ⟨hpath, -, hends⟩ := hx
  refine ⟨hpath, fun d hd => ?_, fun hnone => ?_, nofun⟩
  · have hd : h.held = some d := hd
    rwa [hd] at hends
  · have hnone : h.held = none := hnone
    rw [hnone] at hends
    obtain ⟨e, rfl⟩ := hends
    rfl

theorem Holding.ends_of_keeps {path : Path} {g : Guard}
    (hx : AcquireTimed.Keeps path (.returned (.ok g)) r) :
    Holding.Ends path (.returned (some (.guard g))) r := by
  obtain ⟨hpath, -, d, hd, rfl⟩ := hx
  refine ⟨hpath, fun d' hd' => ?_, fun hnone => ?_, ?_⟩
  · have hd' : g.handle.held = some d' := hd'
    rw [hd] at hd'
    cases hd'
    rfl
  · have hnone : g.handle.held = none := hnone
    rw [hd] at hnone
    cases hnone
  · rintro _ ⟨⟩
    rw [hd, Option.isSome_some]

end Ends

/-- What a thread does. -/
inductive Task where
  /-- Makes one attempt. -/
  | attempt (dir : Path) (name : String)
  | acquire (env : Environment) (name : String) (options : AcquireOptions)
  /-- Releases a handle, and keeps it. -/
  | release (h : Handle)
  /-- Gives a holding out of its hands. -/
  | drop (o : Holding)

namespace Task

/-- The calls of a task, and what the thread has in its hands then. -/
def program : Task → Program (Option Holding)
  | attempt dir name => do
    match ← Handle.acquire dir name with
    | .error _ => pure none
    | .ok h => pure (some (.handle h))
  | acquire env name options => do
    match ← acquireTimed env name options with
    | .error _ => pure none
    | .ok g => pure (some (.guard g))
  | release h => do
    let h' ← h.release
    pure (some (.handle h'))
  | drop (.handle h) => do
    let _ ← h.release
    pure none
  | drop (.guard g) => do
    g.drop
    pure none

/-- The tasks to begin with. -/
def Begins : Task → Prop
  | attempt _ _ | acquire _ _ _ => True
  | release _ | drop _ => False

/-- The tasks that may be done with a holding. -/
inductive Takes : Task → Holding → Prop
  | release {h : Handle} : Takes (.release h) (.handle h)
  | drop {o : Holding} : Takes (.drop o) o

/-- The handle that a task gives up. -/
def gives? : Task → Option Handle
  | release h => some h
  | drop o => some o.inner
  | attempt _ _ | acquire _ _ _ => none

/-- What a thread has in its hands when it has given a handle up. -/
def left? : Task → Option Holding
  | release h => some (.handle h.released)
  | _ => none

/-- What is done after a release. -/
def aftermath : Task → List Exchange
  | drop (.guard g) => [⟨.unregister g.handle.path, ()⟩]
  | _ => []

theorem Takes.gives? {task : Task} {o : Holding} (h : task.Takes o) :
    task.gives? = some o.inner := by
  cases h <;> rfl

section Dialogues
variable {me : Pid} {task : Task} {h : Handle} {d : Descriptor} {told : List Exchange}
  {y : Option Holding} {z : Completion (Option Holding)}

/-- **What a task has on record that gives up a handle of a held mutex**, and how it ends. -/
theorem dialogue_iff (hgives : task.gives? = some h) (hd : h.held = some d) :
    Dialogue me task.program told z ↔ ∃ removed unlocked,
      told = h.farewell d removed unlocked ++ task.aftermath ∧ z = .returned task.left? := by
  cases task with
  | attempt | acquire => cases hgives
  | release h =>
    cases hgives
    constructor
    · intro hrelease
      rcases Dialogue.of_bind hrelease with ⟨h', t₁, t₂, hfirst, hrest, rfl⟩ | ⟨_, hfirst, -⟩
      · obtain ⟨x, y, rfl, hh⟩ := (Handle.dialogue_release_iff hd).1 hfirst
        cases hh
        obtain ⟨rfl, rfl⟩ := dialogue_pure_iff.1 hrest
        exact ⟨x, y, rfl, rfl⟩
      · obtain ⟨x, y, -, hh⟩ := (Handle.dialogue_release_iff hd).1 hfirst
        cases hh
    · rintro ⟨x, y, rfl, rfl⟩
      exact Dialogue.bind ((Handle.dialogue_release_iff hd).2 ⟨x, y, rfl, rfl⟩) .done
  | drop o =>
    cases hgives
    cases o with
    | handle h =>
      constructor
      · intro hdrop
        rcases Dialogue.of_bind hdrop with ⟨h', t₁, t₂, hfirst, hrest, rfl⟩ | ⟨_, hfirst, -⟩
        · obtain ⟨x, y, rfl, -⟩ := (Handle.dialogue_release_iff hd).1 hfirst
          obtain ⟨rfl, rfl⟩ := dialogue_pure_iff.1 hrest
          exact ⟨x, y, rfl, rfl⟩
        · obtain ⟨x, y, -, hh⟩ := (Handle.dialogue_release_iff hd).1 hfirst
          cases hh
      · rintro ⟨x, y, rfl, rfl⟩
        exact Dialogue.bind ((Handle.dialogue_release_iff hd).2 ⟨x, y, rfl, rfl⟩) .done
    | guard g =>
      constructor
      · intro hdrop
        rcases Dialogue.of_bind hdrop with ⟨_, t₁, t₂, hfirst, hrest, rfl⟩ | ⟨_, hfirst, -⟩
        · obtain ⟨x, y, rfl, -⟩ := (Guard.dialogue_drop_iff hd).1 hfirst
          obtain ⟨rfl, rfl⟩ := dialogue_pure_iff.1 hrest
          exact ⟨x, y, List.append_nil _, rfl⟩
        · obtain ⟨x, y, -, hh⟩ := (Guard.dialogue_drop_iff hd).1 hfirst
          cases hh
      · rintro ⟨x, y, rfl, rfl⟩
        rw [← List.append_nil (_ ++ _)]
        exact Dialogue.bind ((Guard.dialogue_drop_iff hd).2 ⟨x, y, rfl, rfl⟩) .done

theorem program_eq_done {o : Holding} (htakes : task.Takes o)
    (hguard : ∀ g, o = .guard g → g.handle.held.isSome = true) (hd : o.inner.held = none) :
    task.program = .done task.left? := by
  have hrelease : ∀ h : Handle, h.held = none → h.release = .done h.released := by
    intro h hh
    rw [Handle.release, Handle.released, hh]
    rfl
  cases htakes with
  | @release h =>
    rw [program, hrelease h hd]
    rfl
  | drop =>
    cases o with
    | handle h =>
      rw [program, hrelease h hd]
      rfl
    | guard g =>
      have hsome := hguard g rfl
      have hnone : g.handle.held = none := hd
      rw [hnone] at hsome
      cases hsome

end Dialogues

section Minds
variable {me : Pid} {task : Task} {o : Holding} {r : Role}

/-- **A task that begins heeds the protocol.** -/
theorem begins_minds (me : Pid) (h : task.Begins) : ∃ dir name r, r.file = none ∧
    task.program.Minds (lockPath dir name) me (Holding.Ends (lockPath dir name)) r := by
  cases task with
  | release | drop => exact h.elim
  | attempt dir name =>
    refine ⟨dir, name, .start (lockPath dir name), Role.file_start _, ?_⟩
    refine (Handle.acquire_obeys dir name me).minds.bind (fun x r hx => ?_) fun _ r hz => ?_
    · cases x with
      | error e => exact Handle.file_of_acquires hx nofun
      | ok h => exact Holding.ends_of_acquires hx
    · exact Handle.file_of_acquires hz nofun
  | acquire env name options =>
    refine ⟨options.directory env, name, .ready, rfl, ?_⟩
    refine (acquireTimed_minds rfl rfl).bind (fun x r hx => ?_) fun _ _ hz => hz
    cases x with
    | error e => exact hx
    | ok g => exact Holding.ends_of_keeps hx

/-- So does one that takes up what a task has yielded. -/
theorem takes_minds {dir : Path} {name : String} (h : task.Takes o)
    (hends : Holding.Ends (lockPath dir name) (.returned (some o)) r) :
    task.program.Minds (lockPath dir name) me (Holding.Ends (lockPath dir name)) r := by
  obtain ⟨hpath, howner, hnone, -⟩ := hends
  cases h with
  | @release h =>
    refine (Handle.release_minds hpath howner hnone).bind (fun h' r' hr' => ?_)
      fun _ _ hz => hz.elim
    obtain ⟨hpath', hheld', hfile⟩ := hr'
    refine ⟨hpath'.trans hpath, fun d hd => ?_, fun _ => hfile, nofun⟩
    have hd : h'.held = some d := hd
    rw [hheld'] at hd
    cases hd
  | drop =>
    cases o with
    | handle h =>
      exact (Handle.release_minds hpath howner hnone).bind (fun _ _ hr' => hr'.2.2)
        fun _ _ hz => hz.elim
    | guard g =>
      exact (Guard.drop_minds hpath howner hnone).bind (fun _ _ hr' => hr')
        fun _ _ hz => hz.elim

/-- What a task yields, whatever it is told: one that begins something fresh, and one that
    gives up a handle what is left of that. -/
theorem yields {told : List Exchange} {y : Option Holding}
    (h : Dialogue me task.program told (.returned y)) :
    (task.gives? = none ∧ ∀ o, y = some o → o.inner.disposed = false) ∨
      (task.gives?.isSome = true ∧ y = task.left?) := by
  have hrelease : ∀ {h : Handle} {t h'}, Dialogue me h.release t (.returned h') →
      h' = h.released := by
    intro h t h' hdialogue
    cases hd : h.held with
    | some d =>
      obtain ⟨x, y, -, hz⟩ := (Handle.dialogue_release_iff hd).1 hdialogue
      cases hz
      rfl
    | none =>
      rw [Handle.release, hd] at hdialogue
      rw [Handle.released, hd]
      exact Completion.returned.inj (dialogue_pure_iff.1 hdialogue).2
  cases task with
  | attempt dir name =>
    refine Or.inl ⟨rfl, ?_⟩
    rintro o rfl
    rcases Dialogue.of_bind h with ⟨x, t₁, t₂, hfirst, hrest, -⟩ | ⟨_, -, hz⟩
    · obtain ⟨r, -, hacquires⟩ := hfirst.proceeds (Handle.acquire_obeys dir name me)
      cases x with
      | error e => cases (dialogue_pure_iff.1 hrest).2
      | ok h =>
        cases (dialogue_pure_iff.1 hrest).2
        exact hacquires.2.1
    · cases hz
  | acquire env name options =>
    refine Or.inl ⟨rfl, ?_⟩
    rintro o rfl
    rcases Dialogue.of_bind h with ⟨x, t₁, t₂, hfirst, hrest, -⟩ | ⟨_, -, hz⟩
    · obtain ⟨r, hkeeps⟩ := (acquireTimed_minds (r := .ready) rfl rfl).of_dialogue hfirst
      cases x with
      | error e => cases (dialogue_pure_iff.1 hrest).2
      | ok g =>
        cases (dialogue_pure_iff.1 hrest).2
        exact hkeeps.2.1
    · cases hz
  | release h =>
    refine Or.inr ⟨rfl, ?_⟩
    rcases Dialogue.of_bind h with ⟨h', t₁, t₂, hfirst, hrest, -⟩ | ⟨_, -, hz⟩
    · cases (dialogue_pure_iff.1 hrest).2
      rw [hrelease hfirst]
      rfl
    · cases hz
  | drop o =>
    refine Or.inr ⟨rfl, ?_⟩
    cases o with
    | handle | guard =>
      rcases Dialogue.of_bind h with ⟨_, t₁, t₂, -, hrest, -⟩ | ⟨_, -, hz⟩
      · cases (dialogue_pure_iff.1 hrest).2
        rfl
      · cases hz

end Minds

end Task

/-! ## Runs -/

/-- A thread: what it does, what is left of that, and what is on record of it. -/
structure Keeper where
  task : Task
  rest : Program (Option Holding)
  told : List Exchange

namespace Keeper

/-- The beginning of a task. -/
def start (task : Task) : Keeper := ⟨task, task.program, []⟩

/-- A thread whose call was answered. -/
def heard (K : Keeper) (c : Call) (x : c.Answer) (rest : Program (Option Holding)) : Keeper :=
  { K with rest := rest, told := K.told ++ [.of c x] }

/-- What a thread has in its hands, between its tasks. -/
def holding? (K : Keeper) : Option Holding :=
  match K.rest with
  | .done y => y
  | _ => none

theorem rest_eq_done {K : Keeper} {o : Holding} (h : K.holding? = some o) :
    K.rest = .done (some o) := by
  unfold holding? at h
  split at h
  · rename_i hrest
    rw [hrest, h]
  · cases h

end Keeper

/-- A machine and the threads of one process on it. -/
structure Tenures where
  machine : Machine
  keepers : List Keeper

namespace Tenures

/-- What happens to the threads of a process. -/
inductive Move where
  /-- A thread begins. -/
  | begin (task : Task)
  /-- A thread turns to what it has in its hands. -/
  | turn (k : Nat) (task : Task)
  /-- The next call of a thread is answered. -/
  | reply (k : Nat) (manner : Manner) (c : Call) (x : c.Answer)
  | elsewhere

/-- Threads of which one has come further. -/
def put (s : Tenures) (m : Machine) (k : Nat) (K : Keeper) : Tenures := ⟨m, s.keepers.set k K⟩

/-- What the thread number `k` has in its hands. -/
def shown? (s : Tenures) (k : Nat) : Option Holding := s.keepers[k]?.bind (·.holding?)

/-- The steps of the threads of the process `me`. -/
inductive Step (me : Pid) : Tenures → Move → Tenures → Prop
  | begin {s : Tenures} {task : Task} : task.Begins →
      Step me s (.begin task) ⟨s.machine, s.keepers ++ [.start task]⟩
  | turn {s : Tenures} {k : Nat} {o : Holding} {task : Task} : s.shown? k = some o →
      task.Takes o → Step me s (.turn k task) (s.put s.machine k (.start task))
  | reply {s : Tenures} {k : Nat} {K : Keeper} {manner : Manner} {c : Call} {x : c.Answer}
      {next : c.Answer → Program (Option Holding)} {m : Machine} : s.keepers[k]? = some K →
      K.rest = .ask c next → Replies s.machine me manner c x m →
      Step me s (.reply k manner c x) (s.put m k (K.heard c x (next x)))
  | elsewhere {s : Tenures} {m : Machine} : s.machine.Apart me m →
      Step me s .elsewhere ⟨m, s.keepers⟩

/-- What was, the latest first: states, and the moves that were made in them. -/
abbrev Past := List (Tenures × Move)

/-- The runs of the threads of a process, which begin on the machine `m`. -/
inductive Run (me : Pid) (m : Machine) : Past → Tenures → Prop
  | start : Run me m [] ⟨m, []⟩
  | next {past : Past} {s s' : Tenures} {move : Move} : Run me m past s →
      Step me s move s' → Run me m ((s, move) :: past) s'

/-- The states of a run, the latest first. -/
def states (past : Past) (s : Tenures) : List Tenures := s :: past.map (·.1)

section Shown
variable {me : Pid} {m : Machine} {past : Past} {s s' u : Tenures} {move : Move} {k : Nat}
  {K : Keeper} {o : Holding}

theorem mem_states : u ∈ states ((s, move) :: past) s' ↔ u = s' ∨ u ∈ states past s := by
  simp only [states, List.map_cons, List.mem_cons]

theorem self_mem_states (past : Past) (s : Tenures) : s ∈ states past s := List.mem_cons_self ..

theorem shown?_eq (hk : s.keepers[k]? = some K) : s.shown? k = K.holding? := by
  rw [shown?, hk, Option.bind_some]

theorem exists_of_shown? (h : s.shown? k = some o) :
    ∃ K, s.keepers[k]? = some K ∧ K.rest = .done (some o) := by
  obtain ⟨K, hk, hK⟩ := Option.bind_eq_some_iff.1 h
  exact ⟨K, hk, K.rest_eq_done hK⟩

theorem get_put {K' : Keeper} (hk : s.keepers[k]? = some K) (m : Machine) (j : Nat) :
    (s.put m k K').keepers[j]? = if j = k then some K' else s.keepers[j]? := by
  have hlt : k < s.keepers.length := (List.getElem?_eq_some_iff.1 hk).1
  simp only [put, List.getElem?_set, if_pos hlt, eq_comm (a := k)]

theorem get_begin {task : Task} {j : Nat} (hj : (s.keepers ++ [.start task])[j]? = some K) :
    s.keepers[j]? = some K ∨ (j = s.keepers.length ∧ K = .start task) := by
  rw [List.getElem?_append] at hj
  split at hj
  · exact Or.inl hj
  · rename_i hlt
    have hmem := List.mem_of_getElem? hj
    have hlt' := (List.getElem?_eq_some_iff.1 hj).1
    rw [List.length_singleton] at hlt'
    exact Or.inr ⟨by omega, List.mem_singleton.1 hmem⟩

/-- **What a step does to a thread.**  It goes on with its task, or turns to another one, or is
    as it was. -/
theorem Step.keeper (h : Step me s move s') (hk : s.keepers[k]? = some K) :
    s'.keepers[k]? = some K ∨
    (∃ o task, K.rest = .done (some o) ∧ task.Takes o ∧ move = .turn k task ∧
      s'.keepers[k]? = some (.start task)) ∨
    ∃ c x next, K.rest = .ask c next ∧ s'.keepers[k]? = some (K.heard c x (next x)) := by
  cases h with
  | begin =>
    exact Or.inl ((List.getElem?_append_left (List.getElem?_eq_some_iff.1 hk).1).trans hk)
  | elsewhere => exact Or.inl hk
  | @turn j o task ho htakes =>
    obtain ⟨L, hj, hL⟩ := exists_of_shown? ho
    rw [get_put hj]
    split
    · rename_i hkj
      subst hkj
      cases hk.symm.trans hj
      exact Or.inr (Or.inl ⟨o, task, hL, htakes, rfl, rfl⟩)
    · exact Or.inl hk
  | @reply j L manner c x next m' hj hL hreply =>
    rw [get_put hj]
    split
    · rename_i hkj
      subst hkj
      cases hk.symm.trans hj
      exact Or.inr (Or.inr ⟨c, x, next, hL, rfl⟩)
    · exact Or.inl hk

theorem Step.newcomer (h : Step me s move s') (hk : s.keepers[k]? = none)
    (hk' : s'.keepers[k]? = some K) : ∃ task, task.Begins ∧ K = .start task := by
  cases h with
  | @begin task hbegins =>
    rcases get_begin hk' with hold | ⟨-, rfl⟩
    · rw [hk] at hold
      cases hold
    · exact ⟨task, hbegins, rfl⟩
  | elsewhere =>
    rw [hk] at hk'
    cases hk'
  | turn | reply =>
    rw [put, List.getElem?_eq_none (by rw [List.length_set]; exact List.getElem?_eq_none_iff.1 hk)]
      at hk'
    cases hk'

end Shown

/-! ## What holds of all states -/

/-- What holds of a thread in its role. -/
structure Attends (me : Pid) (m : Machine) (K : Keeper) (r : Role) : Prop where
  minds : ∃ dir name, K.rest.Minds (lockPath dir name) me (Holding.Ends (lockPath dir name)) r
  backs : m.Backs me r
  /-- Its record is that of its task so far. -/
  underway : ∀ t z, Dialogue me K.rest t z → Dialogue me K.task.program (K.told ++ t) z
  /-- What it gives up, it has still open, or it has shut it. -/
  parting : ∀ h d, K.task.gives? = some h → h.held = some d → r.file = some d ∨ m.Shut d

/-- What holds of all states, with the roles of the threads. -/
structure Kept (me : Pid) (s : Tenures) (ρ : Contest.Roles) : Prop where
  wellFormed : s.machine.WellFormed
  attends : ∀ k K, s.keepers[k]? = some K → Attends me s.machine K (ρ k)
  /-- No two threads have the same file. -/
  apart : ∀ (j k : Nat) d, j < s.keepers.length → k < s.keepers.length →
    (ρ j).file = some d → (ρ k).file = some d → j = k

section Attends
variable {me : Pid} {m m' : Machine} {K : Keeper} {r r' : Role} {manner : Manner} {c : Call}
  {x : c.Answer} {task : Task} {o : Holding}

theorem attends_begin (h : task.Begins) : ∃ r, r.file = none ∧ Attends me m (.start task) r := by
  obtain ⟨dir, name, r, hr, hminds⟩ := task.begins_minds me h
  refine ⟨r, hr, ⟨dir, name, hminds⟩, Machine.backs_of_none hr m, fun t z ht => ht,
    fun h' d hg => ?_⟩
  have hg : task.gives? = some h' := hg
  cases task with
  | attempt | acquire => cases hg
  | release | drop => exact h.elim

theorem Attends.turn (hK : Attends me m K r) (hrest : K.rest = .done (some o))
    (htakes : task.Takes o) : Attends me m (.start task) r := by
  obtain ⟨dir, name, hminds⟩ := hK.minds
  rw [hrest] at hminds
  refine ⟨⟨dir, name, Task.takes_minds htakes hminds⟩, hK.backs, fun t z ht => ht,
    fun h d hg hd => ?_⟩
  have hg : task.gives? = some h := hg
  rw [htakes.gives?] at hg
  cases hg
  rw [hminds.2.1 d hd]
  exact Or.inl rfl

theorem Attends.apart (hK : Attends me m K r) (hm : m.Apart me m') : Attends me m' K r :=
  ⟨hK.minds, hK.backs.untouched hm.toUntouched, hK.underway,
    fun h d hg hd => (hK.parting h d hg hd).imp_right (hm.shut d)⟩

theorem Attends.bypassed (hK : Attends me m K r) (hw : m.WellFormed)
    (hreply : Replies m me manner c x m') (hc : ∀ d, r.file = some d → c.file? ≠ some d) :
    Attends me m' K r :=
  ⟨hK.minds, hK.backs.bypassed fun d hd => hreply.bypasses hw (hc d hd) (hK.backs.lt hw hd),
    hK.underway, fun h d hg hd => (hK.parting h d hg hd).imp_right (·.reply hreply hw)⟩

/-- **A thread whose call is answered attends to its task still.** -/
theorem Attends.heard {next : c.Answer → Program (Option Holding)} (hK : Attends me m K r)
    (hw : m.WellFormed) (hrest : K.rest = .ask c next) (hreply : Replies m me manner c x m') :
    ∃ path r', Heeds path me r c x r' ∧ Attends me m' (K.heard c x (next x)) r' := by
  obtain ⟨dir, name, hminds⟩ := hK.minds
  rw [hrest] at hminds
  obtain ⟨r', hheeds, hnext⟩ := hminds x hreply.answers
  refine ⟨_, r', hheeds, ⟨dir, name, hnext⟩, hK.backs.reply hheeds hreply, fun t z ht => ?_,
    fun h d hg hd => ?_⟩
  · have hstep : Dialogue me K.rest (.of c x :: t) z := by
      rw [hrest]
      exact .ask hreply.answers ht
    have hall := hK.underway _ z hstep
    rwa [List.append_cons] at hall
  · rcases hK.parting h d hg hd with hfile | hshut
    · exact hheeds.file_or_shut hreply hK.backs hw hfile
    · exact Or.inr (hshut.reply hreply hw)

end Attends

section Kept
variable {me : Pid} {m : Machine} {past : Past} {s s' : Tenures} {move : Move} {ρ : Contest.Roles}

theorem Kept.step (h : Kept me s ρ) (hstep : Step me s move s') : ∃ ρ', Kept me s' ρ' := by
  cases hstep with
  | @begin task hbegins =>
    obtain ⟨r, hr, hattends⟩ := attends_begin (m := s.machine) hbegins
    refine ⟨ρ.set s.keepers.length r, h.wellFormed, fun k K hk => ?_, fun j k d hj hk hdj hdk => ?_⟩
    · rcases get_begin hk with hk | ⟨rfl, rfl⟩
      · have hne := Nat.ne_of_lt (List.getElem?_eq_some_iff.1 hk).1
        rw [Contest.Roles.set_ne _ _ hne]
        exact h.attends k K hk
      · rw [Contest.Roles.set_self]
        exact hattends
    · -- the new thread has no file
      have hold : ∀ {i}, i < (s.keepers ++ [Keeper.start task]).length →
          (ρ.set s.keepers.length r i).file = some d →
          i < s.keepers.length ∧ (ρ i).file = some d := by
        intro i hi hdi
        rw [List.length_append, List.length_singleton] at hi
        by_cases hnew : i = s.keepers.length
        · rw [hnew, Contest.Roles.set_self, hr] at hdi
          cases hdi
        · rw [Contest.Roles.set_ne _ _ hnew] at hdi
          exact ⟨by omega, hdi⟩
      exact h.apart j k d (hold hj hdj).1 (hold hk hdk).1 (hold hj hdj).2 (hold hk hdk).2
  | @turn k o task ho htakes =>
    obtain ⟨K, hk, hrest⟩ := exists_of_shown? ho
    refine ⟨ρ, h.wellFormed, fun j L hj => ?_, fun i j d hi hj => ?_⟩
    · rw [get_put hk] at hj
      split at hj
      · rename_i hjk
        cases hj
        subst hjk
        exact (h.attends j K hk).turn hrest htakes
      · exact h.attends j L hj
    · rw [put, List.length_set] at hi hj
      exact h.apart i j d hi hj
  | @reply k K manner c x next m hk hrest hreply =>
    have hlt := (List.getElem?_eq_some_iff.1 hk).1
    have hK := h.attends k K hk
    obtain ⟨path, r', hheeds, hheard⟩ := hK.heard h.wellFormed hrest hreply
    refine ⟨ρ.set k r', hreply.wellFormed h.wellFormed, fun j L hj => ?_,
      fun i j d hi hj hdi hdj => ?_⟩
    · rw [get_put hk] at hj
      split at hj
      · rename_i hjk
        cases hj
        subst hjk
        rw [Contest.Roles.set_self]
        exact hheard
      · rename_i hjk
        rw [Contest.Roles.set_ne _ _ hjk]
        refine (h.attends j L hj).bypassed h.wellFormed hreply fun d hd hc => hjk ?_
        exact h.apart j k d (List.getElem?_eq_some_iff.1 hj).1 hlt hd (hheeds.file? hc)
    · rw [put, List.length_set] at hi hj
      -- a file that the thread has not had is open in nobody's hands
      have hfresh : ∀ {i}, i < s.keepers.length → i ≠ k → (ρ i).file = some d →
          r'.file = some d → False := by
        intro i hi hik hdi hdk
        rcases hheeds.file_or_fresh hreply hdk with hsame | hnew
        · exact hik (h.apart i k d hi hlt hdi hsame)
        · have hbacks := (h.attends i _ (List.getElem?_eq_getElem hi)).backs
          exact Nat.ne_of_lt (hbacks.lt h.wellFormed hdi) hnew
      by_cases hik : i = k <;> by_cases hjk : j = k
      · exact hik.trans hjk.symm
      · rw [hik, Contest.Roles.set_self] at hdi
        rw [Contest.Roles.set_ne _ _ hjk] at hdj
        exact (hfresh hj hjk hdj hdi).elim
      · rw [hjk, Contest.Roles.set_self] at hdj
        rw [Contest.Roles.set_ne _ _ hik] at hdi
        exact (hfresh hi hik hdi hdj).elim
      · rw [Contest.Roles.set_ne _ _ hik] at hdi
        rw [Contest.Roles.set_ne _ _ hjk] at hdj
        exact h.apart i j d hi hj hdi hdj
  | elsewhere hm =>
    exact ⟨ρ, hm.wellFormed h.wellFormed, fun k K hk => (h.attends k K hk).apart hm, h.apart⟩

/-- **In every state the threads attend to their tasks**, each with a file of its own. -/
theorem Run.kept (hw : m.WellFormed) (hrun : Run me m past s) : ∃ ρ, Kept me s ρ := by
  induction hrun with
  | start =>
    refine ⟨fun _ => .ready, hw, fun k K hk => ?_, fun j k d hj => ?_⟩
    · cases hk
    · cases hj
  | next _ hstep ih =>
    obtain ⟨ρ, h⟩ := ih
    exact h.step hstep

end Kept

end Tenures

end NamedMutex
