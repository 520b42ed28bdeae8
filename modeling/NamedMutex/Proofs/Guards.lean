/-
  The registry of a process counts its guards.

  Threads of one process acquire guards, drop them and look mutexes up.  Their
  calls are answered one at a time, in any order, and may fail; in between,
  anything may happen elsewhere.

  * `Threads.Run` is a run of any number of errands of one process;
  * `Counted` is what holds of all states, and `Run.counted` that it does;
  * `registry_counts_guards` is the main statement.
-/
import NamedMutex.Proofs.Listings

namespace NamedMutex

/-! ## Errands -/

/-- What a thread is asked to do. -/
inductive Errand.Request where
  | acquire (env : Environment) (name : String) (options : AcquireOptions)
  | lookUp (dir : Path) (name : String)

/-- How far a thread has come with what it was asked. -/
inductive Errand.Stage where
  /-- What is left of an acquisition. -/
  | acquiring (rest : Program (Except AcquireError Guard))
  /-- What is left of the drop of its guard. -/
  | dropping (rest : Program Unit)
  /-- What is left of a look-up. -/
  | looking (rest : Program Bool)

/-- A request and what comes of it. -/
structure Errand where
  request : Errand.Request
  stage : Errand.Stage
  /-- The path that it has registered, and has not taken back. -/
  listed : Option Path

namespace Errand

/-- The beginning of an errand. -/
def start : Request → Errand
  | .acquire env name options =>
    ⟨.acquire env name options, .acquiring (acquireTimed env name options), none⟩
  | .lookUp dir name => ⟨.lookUp dir name, .looking (isHeldLocally dir name), none⟩

/-- The next call of a stage, and the stages that follow its answers. -/
inductive Stage.Asks : Stage → (c : Call) → (c.Answer → Stage) → Prop
  | acquiring {c : Call} {next : c.Answer → Program (Except AcquireError Guard)} :
      Asks (.acquiring (.ask c next)) c fun x => .acquiring (next x)
  | dropping {c : Call} {next : c.Answer → Program Unit} :
      Asks (.dropping (.ask c next)) c fun x => .dropping (next x)
  | looking {c : Call} {next : c.Answer → Program Bool} :
      Asks (.looking (.ask c next)) c fun x => .looking (next x)

/-- An errand whose call was answered. -/
def told (e : Errand) (c : Call) (stage : Stage) : Errand :=
  { e with stage := stage, listed := c.listing e.listed }

/-- Whether an errand has a registration of a path. -/
def holds (e : Errand) (path : Path) : Bool := e.listed.any fun p => decide (p.Same path)

/-- A call of an errand is still to be made. -/
def InFlight (e : Errand) : Prop := ∃ c next, e.stage.Asks c next

/-- The guard of an errand, from when it was returned until it is dropped. -/
def guard? (e : Errand) : Option Guard :=
  match e.stage with
  | .acquiring (.done (.ok g)) => some g
  | _ => none

end Errand

/-! ## Runs -/

/-- A machine and the errands of the threads of one process on it. -/
structure Threads where
  machine : Machine
  errands : List Errand

namespace Threads

/-- What happens to the threads of a process. -/
inductive Move where
  | begin (request : Errand.Request)
  /-- The guard of an errand is dropped. -/
  | drop (k : Nat)
  /-- The next call of an errand is answered. -/
  | reply (k : Nat) (manner : Manner) (c : Call) (x : c.Answer)
  | elsewhere

/-- Threads of which one has come further. -/
def put (s : Threads) (m : Machine) (k : Nat) (e : Errand) : Threads := ⟨m, s.errands.set k e⟩

/-- The steps of the threads of the process `me`.  What happens elsewhere leaves
    the registry of this process alone. -/
inductive Step (me : Pid) : Threads → Move → Threads → Prop
  | begin {s : Threads} {request : Errand.Request} :
      Step me s (.begin request) ⟨s.machine, s.errands ++ [.start request]⟩
  | drop {s : Threads} {k : Nat} {e : Errand} {g : Guard} : s.errands[k]? = some e →
      e.guard? = some g → Step me s (.drop k) (s.put s.machine k { e with stage := .dropping g.drop })
  | reply {s : Threads} {k : Nat} {e : Errand} {manner : Manner} {c : Call} {x : c.Answer}
      {next : c.Answer → Errand.Stage} {m : Machine} : s.errands[k]? = some e →
      e.stage.Asks c next → Replies s.machine me manner c x m →
      Step me s (.reply k manner c x) (s.put m k (e.told c (next x)))
  | elsewhere {s : Threads} {m : Machine} : m.registry me = s.machine.registry me →
      Step me s .elsewhere ⟨m, s.errands⟩

/-- What was, the latest first: states, and the moves that were made in them. -/
abbrev Past := List (Threads × Move)

/-- The runs of the threads of a process, which begin on the machine `m`. -/
inductive Run (me : Pid) (m : Machine) : Past → Threads → Prop
  | start : Run me m [] ⟨m, []⟩
  | next {past : Past} {s s' : Threads} {move : Move} : Run me m past s →
      Step me s move s' → Run me m ((s, move) :: past) s'

/-- How many errands have a registration of a path. -/
def holders (s : Threads) (path : Path) : Nat := s.errands.countP (·.holds path)

/-- The errand number `k` asked whether a path is registered, and it was: another
    errand had a registration of it then. -/
def Refused (past : Past) (k : Nat) (path : Path) : Prop :=
  ∃ u manner, (u, Move.reply k manner (.isRegistered path) true) ∈ past ∧
    ∃ j e, j ≠ k ∧ u.errands[j]? = some e ∧ e.holds path = true

end Threads

/-! ## Replies and the registry -/

section Replies
variable {me : Pid} {m m' : Machine} {manner : Manner} {c : Call} {x : c.Answer}

theorem Machine.registry_answer (m : Machine) (me : Pid) (c : Call) :
    (m.answer me c).2.registry me = c.enter (m.registry me) := by
  cases c with
  | openFile | unlink | unlock =>
    simp only [answer]
    split <;> rfl
  | tryLock d =>
    simp only [answer, tryLock]
    split
    · rfl
    · split <;> rfl
  | read | rewind =>
    simp only [answer, read, rewind]
    split <;> rfl
  | truncate | write =>
    simp only [answer, truncate, write]
    split
    · rfl
    · split <;> rfl
  | register p | unregister p => simp [answer, registry, setRegistry, Call.enter]
  | makeDirs | leadsTo | readPath | close | ownPid | probe | now | sleep | isRegistered | say => rfl

theorem Replies.registry (h : Replies m me manner c x m') :
    m'.registry me = c.enter (m.registry me) := by
  cases h with
  | answered => exact Machine.registry_answer m.tick me c
  | failed he => cases c <;> first | rfl | cases he
  | torn => exact Machine.registry_answer m.tick me _

theorem Replies.isRegistered {p : Path} {b : Bool}
    (h : Replies m me manner (.isRegistered p) b m') : b = (m.registry me).contains p := by
  cases h with
  | answered => rfl
  | failed he => cases he

end Replies

/-- What a call does to the count of a path, it does to the number of its holders. -/
theorem Registry.Sound.count_enter {r : Registry} (hr : r.Sound) {c : Call} {path : Path}
    {e : Errand} (hc : c.Permitted path e.listed) (stage : Errand.Stage) (p : Path)
    (hholds : e.holds p = true → 0 < r.count p) :
    (c.enter r).count p = (r.count p - if e.holds p then 1 else 0) +
      if (e.told c stage).holds p then 1 else 0 := by
  -- a call that does not concern the registry
  have hsame : r.count p = (r.count p - if e.holds p then 1 else 0) +
      if e.holds p then 1 else 0 := by
    split
    · rename_i h
      have hpos := hholds h
      omega
    · omega
  cases c with
  | register q =>
    obtain ⟨rfl, hl⟩ := hc
    simp [Call.enter, Registry.count_register, Errand.holds, Errand.told, Call.listing, hl]
  | unregister q =>
    obtain ⟨rfl, hl⟩ := hc
    simp [Call.enter, Registry.count_unregister hr.distinct, Errand.holds, Errand.told,
      Call.listing, hl]
  | _ => exact hsame

theorem Registry.Sound.enter {r : Registry} (hr : r.Sound) (c : Call) : (c.enter r).Sound := by
  cases c with
  | register p => exact hr.register p
  | unregister p => exact hr.unregister p
  | _ => exact hr

/-! ## What holds of all states -/

namespace Threads

/-- What an errand may be in the midst of. -/
inductive Proper (me : Pid) (past : Past) (k : Nat) : Errand → Prop
  /-- It will ask whether the path is registered. -/
  | looks {env name options} : options.Looks name →
      Proper me past k ⟨.acquire env name options, .acquiring (acquireTimed env name options), none⟩
  | refused {env name options} : options.Looks name →
      Refused past k (lockPath (options.directory env) name) →
      Proper me past k
        ⟨.acquire env name options, .acquiring (.done (.error (.notReentrant name))), none⟩
  | acquires {env name options p l} :
      p.Lists (lockPath (options.directory env) name) me
        (AcquireTimed.Settles (lockPath (options.directory env) name)) l →
      Proper me past k ⟨.acquire env name options, .acquiring p, l⟩
  | drops {env name options p l} :
      p.Lists (lockPath (options.directory env) name) me Guard.Forgets l →
      Proper me past k ⟨.acquire env name options, .dropping p, l⟩
  | asks {dir name} :
      Proper me past k ⟨.lookUp dir name, .looking (isHeldLocally dir name), none⟩
  | answered {dir name held} : Proper me past k ⟨.lookUp dir name, .looking (.done held), none⟩

/-- What holds of all states of the threads of a process: its registry counts the
    registrations of their errands. -/
structure Counted (me : Pid) (past : Past) (s : Threads) : Prop where
  sound : (s.machine.registry me).Sound
  count : ∀ path, (s.machine.registry me).count path = s.holders path
  proper : ∀ k e, s.errands[k]? = some e → Proper me past k e

variable {me : Pid} {m : Machine} {past : Past} {s s' : Threads} {move : Move} {k : Nat} {e : Errand}
  {manner : Manner} {c : Call} {x : c.Answer} {path : Path}

theorem Refused.next (h : Refused past k path) : Refused ((s, move) :: past) k path := by
  obtain ⟨u, manner, hmem, h⟩ := h
  exact ⟨u, manner, List.mem_cons_of_mem _ hmem, h⟩

theorem Proper.next (h : Proper me past k e) : Proper me ((s, move) :: past) k e := by
  cases h with
  | looks hlooks => exact .looks hlooks
  | refused hlooks hrefused => exact .refused hlooks hrefused.next
  | acquires hp => exact .acquires hp
  | drops hp => exact .drops hp
  | asks => exact .asks
  | answered => exact .answered

theorem proper_start (request : Errand.Request) : Proper me past k (.start request) := by
  cases request with
  | lookUp dir name => exact .asks
  | acquire env name options =>
    by_cases hlooks : options.Looks name
    · exact .looks hlooks
    · exact .acquires (acquireTimed_lists hlooks)

theorem Proper.permitted {next : c.Answer → Errand.Stage} (h : Proper me past k e) (hasks : e.stage.Asks c next) :
    ∃ path, c.Permitted path e.listed := by
  cases h with
  | looks hlooks =>
    rw [acquireTimed_eq_ask hlooks] at hasks
    cases hasks
    exact ⟨⟨[]⟩, trivial⟩
  | acquires hp =>
    cases hasks
    exact ⟨_, hp.1⟩
  | drops hp =>
    cases hasks
    exact ⟨_, hp.1⟩
  | asks =>
    cases hasks
    exact ⟨⟨[]⟩, trivial⟩
  | refused | answered => cases hasks

/-- **An errand whose call is answered goes on properly.** -/
theorem Counted.proper_told {next : c.Answer → Errand.Stage} (h : Counted me past s)
    (hk : s.errands[k]? = some e)
    (hasks : e.stage.Asks c next) (hreply : Replies s.machine me manner c x m) :
    Proper me ((s, .reply k manner c x) :: past) k (e.told c (next x)) := by
  have hproper := h.proper k e hk
  cases hproper with
  | @looks env name options hlooks =>
    rw [acquireTimed_eq_ask hlooks] at hasks
    cases hasks
    have hx := hreply.isRegistered
    cases x with
    | false => exact .acquires (AcquireTimed.start_lists.within _)
    | true =>
      -- the registry counts a holder, and this errand is none
      refine .refused hlooks ⟨s, manner, List.mem_cons_self .., ?_⟩
      have hpos := (h.sound.contains_iff _).1 hx.symm
      rw [h.count] at hpos
      obtain ⟨e', he', hholds⟩ := List.countP_pos_iff.1 hpos
      obtain ⟨j, hj⟩ := List.getElem?_of_mem he'
      refine ⟨j, e', ?_, hj, hholds⟩
      rintro rfl
      cases hk.symm.trans hj
      cases hholds
  | acquires hp =>
    cases hasks
    exact .acquires (hp.2 x hreply.answers)
  | drops hp =>
    cases hasks
    exact .drops (hp.2 x hreply.answers)
  | asks =>
    cases hasks
    exact .answered
  | refused | answered => cases hasks

theorem get_put {e e' : Errand} (hk : s.errands[k]? = some e) (m : Machine) (j : Nat) :
    (s.put m k e').errands[j]? = if j = k then some e' else s.errands[j]? := by
  have hlt : k < s.errands.length := (List.getElem?_eq_some_iff.1 hk).1
  simp only [put, List.getElem?_set, if_pos hlt, eq_comm (a := k)]

theorem holders_put {e e' : Errand} (hk : s.errands[k]? = some e) (m : Machine) (path : Path) :
    (s.put m k e').holders path =
      (s.holders path - if e.holds path then 1 else 0) + if e'.holds path then 1 else 0 := by
  obtain ⟨hlt, rfl⟩ := List.getElem?_eq_some_iff.1 hk
  exact List.countP_set hlt

theorem pos_holders (hk : s.errands[k]? = some e) (hholds : e.holds path = true) :
    0 < s.holders path :=
  List.countP_pos_iff.2 ⟨e, List.mem_of_getElem? hk, hholds⟩

theorem Counted.reply {next : c.Answer → Errand.Stage} (h : Counted me past s)
    (hk : s.errands[k]? = some e) (hasks : e.stage.Asks c next)
    (hreply : Replies s.machine me manner c x m) :
    Counted me ((s, .reply k manner c x) :: past) (s.put m k (e.told c (next x))) := by
  have hregistry : (s.put m k (e.told c (next x))).machine.registry me =
      c.enter (s.machine.registry me) := hreply.registry
  obtain ⟨path', hpermitted⟩ := (h.proper k e hk).permitted hasks
  refine ⟨?_, fun path => ?_, fun j e' hj => ?_⟩
  · rw [hregistry]
    exact h.sound.enter c
  · rw [hregistry, h.sound.count_enter hpermitted (next x) path, h.count, holders_put hk]
    intro hholds
    rw [h.count]
    exact pos_holders hk hholds
  · rw [get_put hk] at hj
    split at hj
    · rename_i hjk
      cases hj
      subst hjk
      exact h.proper_told hk hasks hreply
    · exact (h.proper j e' hj).next

theorem Counted.drop {g : Guard} (h : Counted me past s) (hk : s.errands[k]? = some e)
    (hg : e.guard? = some g) :
    Counted me ((s, .drop k) :: past)
      (s.put s.machine k { e with stage := .dropping g.drop }) := by
  refine ⟨h.sound, fun path => ?_, fun j e' hj => ?_⟩
  · have hsame : ({ e with stage := .dropping g.drop } : Errand).holds path = e.holds path := rfl
    have hcount : (s.put s.machine k { e with stage := .dropping g.drop }).machine.registry me =
        s.machine.registry me := rfl
    rw [hcount, h.count, holders_put hk, hsame]
    split
    · rename_i hholds
      have hpos := pos_holders hk hholds
      omega
    · omega
  · rw [get_put hk] at hj
    split at hj
    · rename_i hjk
      cases hj
      -- a guard that was returned is registered
      have hproper := h.proper k e hk
      cases hproper with
      | acquires hp =>
        simp only [Errand.guard?] at hg
        split at hg <;> cases hg
        rename_i hstage
        cases hstage
        obtain ⟨hpath, rfl⟩ := hp
        exact .drops (Guard.drop_lists hpath)
      | @looks env name options hlooks =>
        simp only [Errand.guard?, acquireTimed_eq_ask hlooks] at hg
        cases hg
      | refused | drops | asks | answered => cases hg
    · exact (h.proper j e' hj).next

theorem Counted.step (h : Counted me past s) (hstep : Step me s move s') :
    Counted me ((s, move) :: past) s' := by
  cases hstep with
  | @begin request =>
    have hlisted : (Errand.start request).listed = none := by cases request <;> rfl
    refine ⟨h.sound, fun path => ?_, fun j e hj => ?_⟩
    · simp [h.count, holders, List.countP_append, Errand.holds, hlisted]
    · rw [List.getElem?_append] at hj
      split at hj
      · exact (h.proper j e hj).next
      · rw [List.mem_singleton.1 (List.mem_of_getElem? hj)]
        exact proper_start request
  | drop hk hg => exact h.drop hk hg
  | reply hk hasks hreply => exact h.reply hk hasks hreply
  | elsewhere hsame =>
    exact ⟨hsame ▸ h.sound, fun path => (hsame ▸ h.count path : _), fun j e hj => (h.proper j e hj).next⟩

/-- **In every state the registry counts the registrations of the errands.** -/
theorem Run.counted (hempty : m.registry me = .empty) (hrun : Run me m past s) :
    Counted me past s := by
  induction hrun with
  | start =>
    refine ⟨?_, fun path => ?_, fun k e hk => ?_⟩
    · rw [hempty]
      exact Registry.sound_empty
    · rw [hempty]
      rfl
    · cases hk
  | next _ hstep ih => exact ih.step hstep

/-- An errand whose calls are all answered comes to the end to which its program
    comes alone. -/
theorem Run.alone {α : Type} {stage : Program α → Errand.Stage}
    (hstage : ∀ c next, (stage (.ask c next)).Asks c fun x => stage (next x)) {p : Program α}
    (hrun : Run me m past s) (hk : s.errands[k]? = some e) (hp : e.stage = stage p) :
    ∃ past' s' e', Run me m past' s' ∧ s'.errands[k]? = some e' ∧
      e'.stage = stage (.ofCompletion (s.machine.run me p).1) ∧
      s'.machine = (s.machine.run me p).2 := by
  induction p generalizing past s e with
  | done | halt => exact ⟨past, s, e, hrun, hk, hp, rfl⟩
  | ask c next ih =>
    have hasks : e.stage.Asks c fun x => stage (next x) := by
      rw [hp]
      exact hstage c next
    obtain ⟨x, m', hx⟩ : ∃ x m', s.machine.perform me c = (x, m') := ⟨_, _, rfl⟩
    have hrest : s.machine.run me (.ask c next) = m'.run me (next x) := by
      simp only [Machine.run, hx]
    rw [hrest]
    have hreply := Contest.Replies.of_perform hx
    have hself : (s.put m' k (e.told c (stage (next x)))).errands[k]? =
        some (e.told c (stage (next x))) := by rw [get_put hk, if_pos rfl]
    exact ih x (hrun.next (.reply hk hasks hreply)) hself rfl

/-! ## Guards -/

theorem Counted.pos_of_unregister {next : Unit → Errand.Stage} (h : Counted me past s)
    (hk : s.errands[k]? = some e) (hasks : e.stage.Asks (.unregister path) next) :
    0 < (s.machine.registry me).count path := by
  obtain ⟨path', rfl, hl⟩ := (h.proper k e hk).permitted hasks
  rw [h.count]
  exact pos_holders hk (by simp [Errand.holds, hl, Path.Same])

/-- A registration is that of a guard that is being made, lives, or is being dropped. -/
theorem Proper.listed (h : Proper me past k e) (hl : e.listed = some path) :
    (∃ env name options, e.request = .acquire env name options ∧
      path = lockPath (options.directory env) name) ∧ (e.InFlight ∨ e.guard?.isSome = true) := by
  cases h with
  | @acquires env name options p l hp =>
    have hl : l = some path := hl
    subst hl
    have hends : ∀ c l, AcquireTimed.Settles (lockPath (options.directory env) name) c l →
        l = none ∨ l = some (lockPath (options.directory env) name) := by
      intro c l hc
      cases c with
      | halted => exact Or.inl hc
      | returned result =>
        cases result with
        | error => exact Or.inl hc.1
        | ok g => exact Or.inr hc.2
    have hpath := (hp.listed hends).resolve_left fun h => by cases h
    refine ⟨⟨env, name, options, rfl, Option.some.inj hpath⟩, ?_⟩
    cases p with
    | ask c next => exact Or.inl ⟨c, _, .acquiring⟩
    | halt => cases hp
    | done result =>
      cases result with
      | ok g => exact Or.inr rfl
      | error =>
        cases hp.1
  | @drops env name options p l hp =>
    have hl : l = some path := hl
    subst hl
    have hends : ∀ c l, Guard.Forgets c l →
        l = none ∨ l = some (lockPath (options.directory env) name) := by
      intro c l hc
      cases c with
      | halted => exact hc.elim
      | returned => exact Or.inl hc
    have hpath := (hp.listed hends).resolve_left fun h => by cases h
    refine ⟨⟨env, name, options, rfl, Option.some.inj hpath⟩, ?_⟩
    cases p with
    | ask c next => exact Or.inl ⟨c, _, .dropping⟩
    | halt => exact hp.elim
    | done => cases hp
  | looks | refused | asks | answered => cases hl

theorem Counted.guard {g : Guard} (h : Counted me past s) (hk : s.errands[k]? = some e)
    (hg : e.guard? = some g) : ∃ env name options, e.request = .acquire env name options ∧
      g.handle.path = lockPath (options.directory env) name ∧ e.listed = some g.handle.path := by
  have hproper := h.proper k e hk
  cases hproper with
  | acquires hp =>
    simp only [Errand.guard?] at hg
    split at hg <;> cases hg
    rename_i hstage
    cases hstage
    exact ⟨_, _, _, rfl, hp.1, hp.2.trans (congrArg some hp.1.symm)⟩
  | @looks env name options hlooks =>
    simp only [Errand.guard?, acquireTimed_eq_ask hlooks] at hg
    cases hg
  | refused | drops | asks | answered => cases hg

theorem Counted.contains (h : Counted me past s) (hk : s.errands[k]? = some e)
    (hholds : e.holds path = true) : (s.machine.registry me).contains path = true := by
  rw [h.sound.contains_iff, h.count]
  exact pos_holders hk hholds

theorem run_of_contains {dir : Path} {name : String}
    (h : (m.registry me).contains (lockPath dir name) = true) :
    (m.run me (isHeldLocally dir name)).1 = .returned true ∧
    ∀ env options, options.directory env = dir → options.Looks name →
      m.transcript me (acquireTimed env name options) =
        [⟨.isRegistered (lockPath dir name), true⟩] ∧
      (m.run me (acquireTimed env name options)).1 = .returned (.error (.notReentrant name)) := by
  have hanswer : (m.perform me (.isRegistered (lockPath dir name))).1 = true := h
  refine ⟨congrArg Completion.returned hanswer, fun env options hdir hlooks => ?_⟩
  rw [acquireTimed_eq_ask hlooks, hdir]
  simp only [Machine.transcript, Machine.run, hanswer, if_true, and_self]

/-- Who was refused had looked, and another had a registration then. -/
theorem Counted.refused {name : String} (h : Counted me past s) (hk : s.errands[k]? = some e)
    (hstage : e.stage = .acquiring (.done (.error (.notReentrant name)))) :
    ∃ env options, e.request = .acquire env name options ∧ options.checkReentrant = true ∧
      Refused past k (lockPath (options.directory env) name) := by
  have hproper := h.proper k e hk
  cases hproper with
  | @looks env name' options hlooks =>
    rw [acquireTimed_eq_ask hlooks] at hstage
    cases hstage
  | refused hlooks hrefused =>
    cases hstage
    exact ⟨_, _, rfl, hlooks.2, hrefused⟩
  | acquires hp =>
    cases hstage
    exact absurd rfl (hp.2 name)
  | drops | asks | answered => cases hstage

theorem Step.holds (h : Step me s move s') (hk : s.errands[k]? = some e)
    (hholds : e.holds path = true) (hcounted : Counted me past s)
    (hmove : ∀ manner p x, move ≠ .reply k manner (.unregister p) x) :
    ∃ e', s'.errands[k]? = some e' ∧ e'.holds path = true := by
  cases h with
  | begin => exact ⟨e, (List.getElem?_append_left (List.getElem?_eq_some_iff.1 hk).1).trans hk, hholds⟩
  | elsewhere => exact ⟨e, hk, hholds⟩
  | drop hj hg =>
    rw [get_put hj]
    split
    · rename_i hkj
      subst hkj
      cases hk.symm.trans hj
      exact ⟨_, rfl, hholds⟩
    · exact ⟨e, hk, hholds⟩
  | @reply j e₀ manner c x next m hj hasks hreply =>
    rw [get_put hj]
    split
    · rename_i hkj
      subst hkj
      cases hk.symm.trans hj
      refine ⟨_, rfl, ?_⟩
      obtain ⟨path', hpermitted⟩ := (hcounted.proper k e hk).permitted hasks
      cases c with
      | unregister p => exact absurd rfl (hmove manner p x)
      | register p =>
        -- it would have to have none
        obtain ⟨-, hl⟩ := hpermitted
        simp [Errand.holds, hl] at hholds
      | _ => exact hholds
    · exact ⟨e, hk, hholds⟩

/-- **The registry of a process counts the guards of its threads.**  In every state
    of every run, whatever was answered:

    the count of a path is the number of errands that have registered it, up to
    its components, and have not taken that back, because their guards are being
    made, live, or are being dropped; no entry has the count zero, and a count that
    is to be diminished is positive;

    a guard that was returned and is not dropped is registered: whoever looks for
    its path finds it, and an acquisition that looks is refused after this one call;

    who was refused had looked, and at that moment another errand had a
    registration of the path;

    and what others do takes no registration away: not the drop of another guard
    of the path either. -/
theorem registry_counts_guards (hempty : m.registry me = .empty) (hrun : Run me m past s) :
    ((∀ path, (s.machine.registry me).count path = s.holders path) ∧
      (∀ (k : Nat) e path, s.errands[k]? = some e → e.listed = some path →
        (∃ env name options, e.request = .acquire env name options ∧
          path = lockPath (options.directory env) name) ∧ (e.InFlight ∨ e.guard?.isSome = true)) ∧
      (∀ entry ∈ (s.machine.registry me).entries, 0 < entry.2) ∧
      ∀ (k : Nat) e path next, s.errands[k]? = some e → e.stage.Asks (.unregister path) next →
        0 < (s.machine.registry me).count path) ∧
    (∀ (k : Nat) e g, s.errands[k]? = some e → e.guard? = some g →
      (∃ env name options, e.request = .acquire env name options ∧
        g.handle.path = lockPath (options.directory env) name) ∧
      e.listed = some g.handle.path ∧
      ∀ dir name, (lockPath dir name).Same g.handle.path →
        (s.machine.run me (isHeldLocally dir name)).1 = .returned true ∧
        ∀ env options, options.directory env = dir → options.Looks name →
          s.machine.transcript me (acquireTimed env name options) =
            [⟨.isRegistered (lockPath dir name), true⟩] ∧
          (s.machine.run me (acquireTimed env name options)).1 =
            .returned (.error (.notReentrant name))) ∧
    (∀ (k : Nat) e name, s.errands[k]? = some e →
      e.stage = .acquiring (.done (.error (.notReentrant name))) →
      ∃ env options, e.request = .acquire env name options ∧ options.checkReentrant = true ∧
        Refused past k (lockPath (options.directory env) name)) ∧
    ∀ move s', Step me s move s' → ∀ (k : Nat) e path, s.errands[k]? = some e →
      e.holds path = true → (∀ manner p x, move ≠ .reply k manner (.unregister p) x) →
      (∃ e', s'.errands[k]? = some e' ∧ e'.holds path = true) ∧
        (s'.machine.registry me).contains path = true := by
  have hcounted := hrun.counted hempty
  refine ⟨⟨hcounted.count, fun k e path hk hl => (hcounted.proper k e hk).listed hl,
      hcounted.sound.positive, fun k e path next hk hasks => hcounted.pos_of_unregister hk hasks⟩,
    fun k e g hk hg => ?_, fun k e name hk hstage => hcounted.refused hk hstage,
    fun move s' hstep k e path hk hholds hmove => ?_⟩
  · obtain ⟨env, name, options, hrequest, hpath, hl⟩ := hcounted.guard hk hg
    refine ⟨⟨env, name, options, hrequest, hpath⟩, hl, fun dir' name' hsame => ?_⟩
    refine run_of_contains (hcounted.contains hk ?_)
    simp [Errand.holds, hl, show g.handle.path.Same (lockPath dir' name') from hsame.symm]
  · obtain ⟨e', hk', hholds'⟩ := hstep.holds hk hholds hcounted hmove
    exact ⟨⟨e', hk', hholds'⟩, (hcounted.step hstep).contains hk' hholds'⟩

/-- Options for an acquisition in a directory that does not wait. -/
def impatient (dir : Path) : AcquireOptions := ⟨0, 0, true, some dir⟩

/-- One guard counts once, and its mutex is not acquired again. -/
theorem registry_counts_one_guard : ∃ past s, ∃ (k : Nat) (e : Errand) (g : Guard), Run 1 (.bare 1) past s ∧
    s.errands[k]? = some e ∧ e.guard? = some g ∧
    (s.machine.registry 1).count g.handle.path = s.holders g.handle.path ∧
    (s.machine.run 1 (acquireTimed [] "a" (impatient Contest.root))).1 =
      .returned (.error (.notReentrant "a")) := by
  let request : Errand.Request := .acquire [] "a" (impatient Contest.root)
  have hstart : Run 1 (.bare 1) [] ⟨.bare 1, []⟩ := .start
  have hbegin : Run 1 (.bare 1) [(⟨.bare 1, []⟩, .begin request)] ⟨.bare 1, [.start request]⟩ :=
    hstart.next .begin
  obtain ⟨past, s, e, hrun, hk, hstage, -⟩ := hbegin.alone (fun _ _ => .acquiring) (k := 0) rfl rfl
  have hend : ((Machine.bare 1).run 1 (acquireTimed [] "a" (impatient Contest.root))).1 =
      .returned (.ok ⟨.ofAttempt "a" (lockPath Contest.root "a") (some 0)⟩) := by rfl
  have hg : e.guard? = some ⟨.ofAttempt "a" (lockPath Contest.root "a") (some 0)⟩ := by
    simp only [Errand.guard?, hstage, hend]
    rfl
  obtain ⟨⟨hcount, -⟩, hguards, -⟩ := registry_counts_guards rfl hrun
  obtain ⟨-, -, hlooks⟩ := hguards 0 e _ hk hg
  obtain ⟨-, hrefused⟩ := hlooks Contest.root "a" rfl
  have hlooks : (impatient Contest.root).Looks "a" := ⟨by decide, rfl⟩
  exact ⟨past, s, 0, e, _, hrun, hk, hg, hcount _, (hrefused [] _ rfl hlooks).2⟩

end Threads

end NamedMutex
