/-
  The life of a handle.

  A handle is made by an attempt, holding its mutex or not.  The first release or drop of one
  that holds it removes the lock file, if that can be removed, and gives up the lock; then the
  handle is disposed of, and holds nothing any more.  All other releases and drops are of a
  handle that holds nothing, and do nothing.

  * `Descends` says what may become of a handle; `Run.descends`: nothing else does, however long
    its thread keeps it;
  * `Known` says where a handle that was disposed of comes from;
  * `handle_life_cycle` is the main statement.
-/
import NamedMutex.Proofs.Answers
import NamedMutex.Proofs.Tenures

namespace NamedMutex

open Program

namespace Handle

variable {h : Handle}

theorem released_of_not_acquired (hh : h.isAcquired = false) : h.released = h := by
  have hheld : h.held = none := by simpa [isAcquired] using hh
  rw [released, hheld]

@[simp] theorem isAcquired_released (h : Handle) : h.released.isAcquired = false := by
  simp [released_eq, isAcquired]

theorem disposed_released (hh : h.isAcquired = true) : h.released.disposed = true := by
  simp [released_eq, hh]

theorem isAcquired_of_held {d : Descriptor} (hd : h.held = some d) : h.isAcquired = true := by
  rw [isAcquired, hd, Option.isSome_some]

end Handle

theorem exists_dialogue {α : Type} (me : Pid) (p : Program α) :
    ∃ told z, Dialogue me p told z := by
  induction p with
  | done => exact ⟨[], _, .done⟩
  | halt => exact ⟨[], _, .halt⟩
  | ask c next ih =>
    obtain ⟨x, hx⟩ := c.exists_answers me
    obtain ⟨told, z, h⟩ := ih x
    exact ⟨_, z, .ask hx h⟩

theorem Replies.of_unlinked {me : Pid} {m m' : Machine} {manner : Manner} {p : Path}
    (h : Replies m me manner (.unlink p) (.ok ()) m') (hw : m.WellFormed) (i : Inode) :
    ¬ m'.tree.Leads p i := by
  have hanswer := h.of_not_failed (fun e he => by cases he) nofun
  simp only [Machine.perform, Machine.answer] at hanswer
  split at hanswer <;> cases hanswer
  rename_i t ht
  exact FileTree.unlink_leads ht hw.tree i

namespace Tenures

variable {me : Pid} {m : Machine} {past : Past} {s s' u : Tenures} {move : Move} {k : Nat}
  {K K' : Keeper} {o : Holding} {h : Handle} {d : Descriptor} {r : Role} {ρ : Contest.Roles}
  {task : Task}

/-! ## What is in the hands of a thread -/

/-- What a thread has in its hands is new, or it has just been released. -/
theorem Attends.yields (hK : Attends me m K r) (ho : K.rest = .done (some o)) :
    (K.task.gives? = none ∧ o.inner.disposed = false) ∨
      ∃ h, K.task = .release h ∧ o = .handle h.released := by
  have hdone : Dialogue me K.rest [] (.returned (some o)) := by
    rw [ho]
    exact .done
  rcases Task.yields (hK.underway _ _ hdone) with ⟨hgives, hfresh⟩ | ⟨hgives, hleft⟩
  · exact Or.inl ⟨hgives, hfresh o rfl⟩
  · cases htask : K.task with
    | release h =>
      rw [htask] at hleft
      exact Or.inr ⟨h, rfl, Option.some.inj hleft⟩
    | attempt | acquire | drop =>
      rw [htask] at hleft
      cases hleft

theorem Attends.not_both (hK : Attends me m K r) (ho : K.rest = .done (some o)) :
    ¬ (o.inner.isAcquired = true ∧ o.inner.disposed = true) := by
  rintro ⟨hacquired, hdisposed⟩
  rcases hK.yields ho with ⟨-, hfresh⟩ | ⟨h, -, rfl⟩
  · rw [hfresh] at hdisposed
    cases hdisposed
  · have hnot : h.released.isAcquired = true := hacquired
    rw [Handle.isAcquired_released] at hnot
    cases hnot

theorem Attends.hasLock (hK : Attends me m K r) (ho : K.rest = .done (some o))
    (hd : o.inner.held = some d) : m.HasLock me d := by
  obtain ⟨dir, name, hminds⟩ := hK.minds
  rw [ho] at hminds
  obtain rfl := hminds.2.1 d hd
  exact hK.backs.hasLock

/-- There is nothing to do for a task that takes up what is not acquired. -/
theorem Attends.turn_eq_done (hK : Attends me m K r) (ho : K.rest = .done (some o))
    (htakes : task.Takes o) (hh : o.inner.isAcquired = false) :
    task.program = .done task.left? := by
  obtain ⟨dir, name, hminds⟩ := hK.minds
  rw [ho] at hminds
  exact Task.program_eq_done htakes hminds.2.2.2 (by simpa [Handle.isAcquired] using hh)

theorem Attends.file_eq_none (hK : Attends me m K r) {y : Option Holding}
    (hrest : K.rest = .done y) (hgives : K.task.gives? = some h) (hd : h.held = some d) :
    r.file = none := by
  have hdone : Dialogue me K.rest [] (.returned y) := by
    rw [hrest]
    exact .done
  obtain ⟨_, _, -, hy⟩ := (Task.dialogue_iff hgives hd).1 (hK.underway _ _ hdone)
  cases hy
  obtain ⟨dir, name, hminds⟩ := hK.minds
  rw [hrest] at hminds
  cases htask : K.task with
  | release h' =>
    rw [htask] at hminds hgives
    cases hgives
    exact hminds.2.2.1 (by simp [Holding.inner, Handle.released_eq])
  | attempt | acquire =>
    rw [htask] at hgives
    cases hgives
  | drop =>
    rw [htask] at hminds
    exact hminds

/-! ## What becomes of a handle -/

/-- A thread has in its hands a handle, or what was left of it by a release, or gives it up. -/
def Descends (h : Handle) (K : Keeper) : Prop :=
  ∃ h', (h' = h ∨ h.isAcquired = true ∧ h' = h.released) ∧
    (K.task.gives? = some h' ∨ ∃ o, K.rest = .done (some o) ∧ o.inner = h')

/-- What is left of a handle is the handle as it was, or released. -/
theorem Descends.shown (hdesc : Descends h K) (hK : Attends me m K r)
    (ho : K.rest = .done (some o)) :
    o.inner = h ∨ h.isAcquired = true ∧ o.inner = h.released := by
  obtain ⟨h', hh', hgives | ⟨o', ho', rfl⟩⟩ := hdesc
  · rcases hK.yields ho with ⟨hnone, -⟩ | ⟨h'', htask, rfl⟩
    · rw [hgives] at hnone
      cases hnone
    · rw [htask] at hgives
      cases hgives
      rcases hh' with rfl | ⟨hacquired, rfl⟩
      · cases hacquired : h'.isAcquired with
        | true => exact Or.inr ⟨rfl, rfl⟩
        | false => exact Or.inl (Handle.released_of_not_acquired hacquired)
      · exact Or.inr ⟨hacquired, Handle.released_released h⟩
  · rw [ho] at ho'
    cases ho'
    exact hh'

theorem Descends.step (hdesc : Descends h K) (hK : Attends me s.machine K r)
    (hstep : Step me s move s') (hk : s.keepers[k]? = some K) :
    ∃ K', s'.keepers[k]? = some K' ∧ Descends h K' := by
  rcases hstep.keeper hk with hsame | ⟨o, task, ho, htakes, -, hk'⟩ | ⟨c, x, next, hrest, hk'⟩
  · exact ⟨K, hsame, hdesc⟩
  · exact ⟨_, hk', o.inner, hdesc.shown hK ho, Or.inl htakes.gives?⟩
  · obtain ⟨h', hh', hgives | ⟨o, ho, -⟩⟩ := hdesc
    · exact ⟨_, hk', h', hh', Or.inl hgives⟩
    · rw [hrest] at ho
      cases ho

/-- **A thread that has a handle in its hands** has that, or what was left of it, ever after. -/
theorem Run.descends (hw : m.WellFormed) (hrun : Run me m past s) (hu : u ∈ states past s)
    (ho : u.shown? k = some o) : ∃ K, s.keepers[k]? = some K ∧ Descends o.inner K := by
  induction hrun with
  | start =>
    obtain rfl := List.mem_singleton.1 hu
    cases ho
  | @next past s s' move hrun hstep ih =>
    rcases mem_states.1 hu with rfl | hu
    · obtain ⟨K, hk, hrest⟩ := exists_of_shown? ho
      exact ⟨K, hk, o.inner, Or.inl rfl, Or.inr ⟨o, hrest, rfl⟩⟩
    · obtain ⟨K, hk, hdesc⟩ := ih hu
      obtain ⟨ρ, hkept⟩ := hrun.kept hw
      exact hdesc.step (hkept.attends k K hk) hstep hk

/-! ## Where a handle comes from -/

/-- A handle that was disposed of was acquired before, in the same hands. -/
def Known (past : Past) (s : Tenures) (k : Nat) (h : Handle) : Prop :=
  h.disposed = true → ∃ u ∈ states past s, ∃ o, u.shown? k = some o ∧
    o.inner.isAcquired = true ∧ h = o.inner.released

/-- A handle that a thread gives up was in its hands. -/
def Had (past : Past) (s : Tenures) (k : Nat) (h : Handle) : Prop :=
  Known past s k h ∧ ∃ u ∈ states past s, ∃ o, u.shown? k = some o ∧ o.inner = h

theorem Known.next (hknown : Known past s k h) : Known ((s, move) :: past) s' k h := by
  intro hdisposed
  obtain ⟨u, hu, h⟩ := hknown hdisposed
  exact ⟨u, mem_states.2 (Or.inr hu), h⟩

theorem Had.next (hhad : Had past s k h) : Had ((s, move) :: past) s' k h := by
  obtain ⟨hknown, u, hu, h⟩ := hhad
  exact ⟨hknown.next, u, mem_states.2 (Or.inr hu), h⟩

/-- What a thread has in its hands is known, if what it has given up was. -/
theorem Attends.known (hK : Attends me m K r) (ho : K.rest = .done (some o))
    (hhad : ∀ h, K.task.gives? = some h → Had past s k h) : Known past s k o.inner := by
  intro hdisposed
  rcases hK.yields ho with ⟨-, hfresh⟩ | ⟨h, htask, rfl⟩
  · rw [hfresh] at hdisposed
    cases hdisposed
  · obtain ⟨hknown, u, hu, o, hshown, rfl⟩ := hhad h (by rw [htask]; rfl)
    cases hacquired : o.inner.isAcquired with
    | true => exact ⟨u, hu, o, hshown, hacquired, rfl⟩
    | false =>
      -- the release was of a handle that held nothing
      have hsame := Handle.released_of_not_acquired hacquired
      rw [Holding.inner, hsame] at hdisposed ⊢
      exact hknown hdisposed

theorem Run.had (hw : m.WellFormed) (hrun : Run me m past s) :
    ∀ k K h, s.keepers[k]? = some K → K.task.gives? = some h → Had past s k h := by
  induction hrun with
  | start =>
    intro k K h hk
    cases hk
  | @next past s s' move hrun hstep ih =>
    intro k K' h hk' hgives
    obtain ⟨ρ, hkept⟩ := hrun.kept hw
    cases hk : s.keepers[k]? with
    | none =>
      -- a thread that has just begun gives nothing up
      obtain ⟨task, hbegins, rfl⟩ := hstep.newcomer hk hk'
      have hgives : task.gives? = some h := hgives
      cases task with
      | attempt | acquire => cases hgives
      | release | drop => exact hbegins.elim
    | some K =>
      rcases hstep.keeper hk with hsame | ⟨o, task, ho, htakes, -, hturn⟩ | ⟨c, x, next, -, hheard⟩
      · rw [hsame] at hk'
        cases hk'
        exact (ih k _ h hk hgives).next
      · rw [hturn] at hk'
        cases hk'
        have hgives : task.gives? = some h := hgives
        rw [htakes.gives?] at hgives
        cases hgives
        have hknown := (hkept.attends k _ hk).known ho fun h hgives => ih k _ h hk hgives
        have hshown : s.shown? k = some o := by rw [shown?_eq hk, Keeper.holding?, ho]
        exact Had.next ⟨hknown, s, self_mem_states past s, o, hshown, rfl⟩
      · rw [hheard] at hk'
        cases hk'
        exact (ih k _ h hk hgives).next

/-! ## What was given up -/

theorem Step.shut (hstep : Step me s move s') (hw : s.machine.WellFormed)
    (hd : s.machine.Shut d) : s'.machine.Shut d := by
  cases hstep with
  | begin | turn => exact hd
  | reply _ _ hreply => exact hd.reply hreply hw
  | elsewhere hm => exact hm.shut d hd

/-- **What was given up is shut ever after.** -/
theorem Run.shut (hw : m.WellFormed) (hrun : Run me m past s) (hu : u ∈ states past s)
    (hk : u.keepers[k]? = some K) {y : Option Holding} (hrest : K.rest = .done y)
    (hgives : K.task.gives? = some h) (hd : h.held = some d) : s.machine.Shut d := by
  induction hrun with
  | start =>
    obtain rfl := List.mem_singleton.1 hu
    cases hk
  | @next past s s' move hrun hstep ih =>
    rcases mem_states.1 hu with rfl | hu
    · obtain ⟨ρ, hkept⟩ := (hrun.next hstep).kept hw
      have hK := hkept.attends k K hk
      rcases hK.parting h d hgives hd with hfile | hshut
      · rw [hK.file_eq_none hrest hgives hd] at hfile
        cases hfile
      · exact hshut
    · obtain ⟨ρ, hkept⟩ := hrun.kept hw
      exact hstep.shut hkept.wellFormed (ih hu)

theorem path_of_unlink {p : Path} {x removed unlocked : Except IoError Unit}
    (hmem : (⟨.unlink p, x⟩ : Exchange) ∈ h.farewell d removed unlocked ++ task.aftermath) :
    p = h.path := by
  have hremoval : ∀ y, (⟨.unlink p, x⟩ : Exchange) ∉ removalReports h.path y := by
    intro y
    cases y with
    | ok => exact List.not_mem_nil
    | error e =>
      unfold removalReports
      split <;> simp
  have hunlocking : ∀ y, (⟨.unlink p, x⟩ : Exchange) ∉ unlockReports h.path y := by
    intro y
    cases y <;> simp [unlockReports]
  have haftermath : (⟨.unlink p, x⟩ : Exchange) ∉ task.aftermath := by
    unfold Task.aftermath
    split <;> simp
  rcases List.mem_append.1 hmem with hmem | hmem
  · rw [Handle.farewell] at hmem
    rcases List.mem_cons.1 hmem with heq | hmem
    · cases heq
      rfl
    · simp [hremoval, hunlocking] at hmem
  · exact absurd hmem haftermath

/-- **The life of a handle.**  In every state of every run, whatever was answered and whatever
    others have done:

    a handle is not acquired and disposed of at once; one that is acquired has the lock of its
    file; and one that is disposed of was acquired before, in the same hands;

    what is in the hands of a thread is what was there before, or that released, if it was
    acquired;

    the release or the drop of a handle that is not acquired changes nothing: not the machine,
    and no other thread;

    the release or the drop of one that is acquired ends with the handle released, whatever the
    removal of the lock file and its unlocking are answered; when the removal succeeds the lock
    path leads nowhere; and once it has ended, the file is neither open nor locked, ever
    after. -/
theorem handle_life_cycle (hw : m.WellFormed) (hrun : Run me m past s) :
    (∀ k o, s.shown? k = some o →
      ¬ (o.inner.isAcquired = true ∧ o.inner.disposed = true) ∧
      (∀ d, o.inner.held = some d → s.machine.HasLock me d) ∧
      (o.inner.disposed = true → ∃ u ∈ states past s, ∃ o', u.shown? k = some o' ∧
        o'.inner.isAcquired = true ∧ o.inner = o'.inner.released)) ∧
    (∀ u ∈ states past s, ∀ k o o', u.shown? k = some o → s.shown? k = some o' →
      o'.inner = o.inner ∨ o.inner.isAcquired = true ∧ o'.inner = o.inner.released) ∧
    (∀ k o task s', s.shown? k = some o → task.Takes o → o.inner.isAcquired = false →
      Step me s (.turn k task) s' → s'.machine = s.machine ∧
        (∀ j, j ≠ k → s'.keepers[j]? = s.keepers[j]?) ∧
        (s'.shown? k = some o ∨ task = .drop o ∧ s'.shown? k = none)) ∧
    (∀ (k : Nat) K h d, s.keepers[k]? = some K → K.task.gives? = some h → h.held = some d →
      h.released.isAcquired = false ∧ h.released.disposed = true ∧
      (∀ t z, Dialogue me K.rest t z → ∃ removed unlocked,
        K.told ++ t = h.farewell d removed unlocked ++ K.task.aftermath ∧
          z = .returned K.task.left?) ∧
      ∀ manner p x s', Step me s (.reply k manner (.unlink p) x) s' →
        p = h.path ∧ (x = .ok () → ∀ i, ¬ s'.machine.tree.Leads h.path i)) ∧
    ∀ u ∈ states past s, ∀ (k : Nat) K h d y, u.keepers[k]? = some K → K.task.gives? = some h →
      h.held = some d → K.rest = .done y →
      s.machine.opened.get? d = none ∧ ∀ i, s.machine.locks.get? i ≠ some d := by
  obtain ⟨ρ, hkept⟩ := hrun.kept hw
  refine ⟨fun k o ho => ?_, fun u hu k o o' ho ho' => ?_, fun k o task s' ho htakes hh hstep => ?_,
    fun k K h d hk hgives hd => ?_, fun u hu k K h d y hk hgives hd hrest => ?_⟩
  · obtain ⟨K, hk, hrest⟩ := exists_of_shown? ho
    have hK := hkept.attends k K hk
    exact ⟨hK.not_both hrest, fun d hd => hK.hasLock hrest hd,
      hK.known hrest fun h hgives => hrun.had hw k K h hk hgives⟩
  · obtain ⟨K, hk, hdesc⟩ := hrun.descends hw hu ho
    obtain ⟨K', hk', hrest⟩ := exists_of_shown? ho'
    cases hk.symm.trans hk'
    exact hdesc.shown (hkept.attends k K hk) hrest
  · obtain ⟨K, hk, hrest⟩ := exists_of_shown? ho
    have hdone := (hkept.attends k K hk).turn_eq_done hrest htakes hh
    cases hstep with
    | turn =>
      have hself : (s.put s.machine k (.start task)).shown? k = task.left? := by
        rw [shown?_eq ((get_put hk _ _).trans (if_pos rfl))]
        simp only [Keeper.holding?, Keeper.start, hdone]
      refine ⟨rfl, fun j hj => (get_put hk _ _).trans (if_neg hj), ?_⟩
      rw [hself]
      cases htakes with
      | @release h =>
        have hsame : h.released = h := Handle.released_of_not_acquired hh
        exact Or.inl (by rw [Task.left?, hsame])
      | drop => exact Or.inr ⟨rfl, rfl⟩
  · have hK := hkept.attends k K hk
    have hends : ∀ t z, Dialogue me K.rest t z → ∃ removed unlocked,
        K.told ++ t = h.farewell d removed unlocked ++ K.task.aftermath ∧
          z = .returned K.task.left? :=
      fun t z ht => (Task.dialogue_iff hgives hd).1 (hK.underway t z ht)
    refine ⟨h.isAcquired_released, Handle.disposed_released (Handle.isAcquired_of_held hd), hends,
      fun manner p x s' hstep => ?_⟩
    cases hstep with
    | @reply _ L _ _ _ next m' hk' hrest hreply =>
      cases hk.symm.trans hk'
      obtain ⟨t, z, ht⟩ := exists_dialogue me (next x)
      have hasks : Dialogue me K.rest (.of (.unlink p) x :: t) z := by
        rw [hrest]
        exact .ask hreply.answers ht
      obtain ⟨removed, unlocked, htold, -⟩ := hends _ z hasks
      obtain rfl : p = h.path := by
        refine path_of_unlink (x := x) (htold ▸ List.mem_append_right _ ?_)
        exact List.mem_cons_self ..
      refine ⟨rfl, ?_⟩
      rintro rfl
      exact hreply.of_unlinked hkept.wellFormed
  · have hshut := hrun.shut hw hu hk hrest hgives hd
    exact ⟨hshut.closed, hshut.unlocked hkept.wellFormed⟩

/-! ## An old handle -/

/-- A thread whose calls are all answered comes to the end to which its program comes alone. -/
theorem Run.goes_on {p : Program (Option Holding)} (hrun : Run me m past s)
    (hk : s.keepers[k]? = some K) (hp : K.rest = p) : ∃ past' K',
      Run me m past' (s.put (s.machine.run me p).2 k K') ∧
      K'.rest = .ofCompletion (s.machine.run me p).1 := by
  induction p generalizing past s K with
  | done | halt =>
    refine ⟨past, K, ?_, hp⟩
    have hsame : s.put s.machine k K = s := by
      obtain ⟨hlt, rfl⟩ := List.getElem?_eq_some_iff.1 hk
      rw [put, List.set_getElem_self]
    rwa [Machine.run, hsame]
  | ask c next ih =>
    have hreply : Replies s.machine me .answered c _ _ := .answered
    have hnext := hrun.next (.reply hk hp hreply)
    obtain ⟨past', K', hrun', hrest⟩ := ih _ hnext ((get_put hk _ _).trans (if_pos rfl)) rfl
    refine ⟨past', K', ?_, hrest⟩
    simp only [put, List.set_set] at hrun'
    exact hrun'

theorem Run.alone {m₁ : Machine} {keepers : List Keeper} {y : Option Holding}
    (hrun : Run me m past ⟨m₁, keepers⟩) (hk : keepers[k]? = some (.start task))
    (hend : (m₁.run me task.program).1 = .returned y) : ∃ past' K,
      Run me m past' ⟨(m₁.run me task.program).2, keepers.set k K⟩ ∧ K.holding? = y := by
  obtain ⟨past', K, hrun', hrest⟩ := hrun.goes_on hk rfl
  refine ⟨past', K, hrun', ?_⟩
  have hrest : K.rest = .ofCompletion (m₁.run me task.program).1 := hrest
  rw [Keeper.holding?, hrest, hend]
  rfl

/-- The task of an attempt in the root directory. -/
def attemptTask : Task := .attempt Contest.root "a"

/-- What it yields if the file that it opens has the number `d`. -/
def handleOf (d : Descriptor) : Handle := .ofAttempt "a" (lockPath Contest.root "a") (some d)

/-- A machine on which a mutex was acquired. -/
def taken : Machine := ((Machine.bare 1).run 1 attemptTask.program).2

/-- The machine when it was released again. -/
def vacated : Machine := (taken.run 1 (Task.release (handleOf 0)).program).2

/-- The machine when another handle has acquired it since. -/
def retaken : Machine := (vacated.run 1 attemptTask.program).2

theorem exists_removed :
    ∃ m', Replies retaken 2 .answered (.unlink (handleOf 1).path) (.ok ()) m' := by
  have hreply : Replies retaken 2 .answered (.unlink (handleOf 1).path) _ _ := .answered
  have hok : (retaken.perform 2 (.unlink (handleOf 1).path)).1.isOk = true := by decide +kernel
  cases hx : (retaken.perform 2 (.unlink (handleOf 1).path)).1 with
  | error e =>
    rw [hx] at hok
    cases hok
  | ok => exact ⟨_, hx ▸ hreply⟩

/-- A handle was released, another one has acquired the same mutex since, and another process
    has removed the lock file: the old handle is released again, and the new one does not
    notice. -/
theorem old_handle_released_again : ∃ past s s' old new,
    Run 1 (.bare 1) past s ∧ s.shown? 0 = some (.handle old) ∧ old.disposed = true ∧
    s.shown? 1 = some (.handle new) ∧ new.path = old.path ∧ new.held = some 1 ∧
    (∀ i, ¬ s.machine.tree.Leads new.path i) ∧
    Step 1 s (.turn 0 (.release old)) s' ∧ s'.machine = s.machine ∧ s'.shown? 1 = s.shown? 1 ∧
    s'.machine.HasLock 1 1 := by
  -- the first handle acquires and is released, then the second one acquires
  have hbegin : Run 1 (.bare 1) _ ⟨.bare 1, [.start attemptTask]⟩ := Run.start.next (.begin trivial)
  obtain ⟨_, K, hrun, hfirst⟩ : ∃ past K, Run 1 (.bare 1) past ⟨taken, [K]⟩ ∧
      K.holding? = some (.handle (handleOf 0)) :=
    hbegin.alone (k := 0) rfl (by decide +kernel)
  have hturn : Run 1 (.bare 1) _ ⟨taken, [.start (.release (handleOf 0))]⟩ :=
    hrun.next (.turn (k := 0) hfirst .release)
  obtain ⟨_, L, hrun, hold⟩ : ∃ past L, Run 1 (.bare 1) past ⟨vacated, [L]⟩ ∧
      L.holding? = some (.handle (handleOf 0).released) :=
    hturn.alone (k := 0) rfl (by decide +kernel)
  have hagain : Run 1 (.bare 1) _ ⟨vacated, [L, .start attemptTask]⟩ := hrun.next (.begin trivial)
  obtain ⟨_, N, hrun, hnew⟩ : ∃ past N, Run 1 (.bare 1) past ⟨retaken, [L, N]⟩ ∧
      N.holding? = some (.handle (handleOf 1)) :=
    hagain.alone (k := 1) rfl (by decide +kernel)
  -- the lock file is removed from outside
  have hw := Machine.bare_wellFormed 1
  have hretaken : retaken.WellFormed :=
    Machine.run_wellFormed (Machine.run_wellFormed (Machine.run_wellFormed hw 1 _) 1 _) 1 _
  obtain ⟨m₄, hremove⟩ := exists_removed
  have hapart : retaken.Apart 1 m₄ := by
    have hother : retaken.Apart 1 (retaken.perform 2 (.unlink (handleOf 1).path)).2 :=
      Machine.apart_of_other hretaken (by decide) nofun
    rwa [hremove.perform] at hother
  have houtside := hrun.next (.elsewhere hapart)
  have hshown : (⟨m₄, [L, N]⟩ : Tenures).shown? 0 = some (.handle (handleOf 0).released) := hold
  have hstep : Step 1 _ (.turn 0 (.release (handleOf 0).released)) _ := .turn hshown .release
  obtain ⟨hlocks, -, hidle, -⟩ := handle_life_cycle hw houtside
  obtain ⟨hmachine, -⟩ := hidle 0 _ _ _ hshown .release rfl hstep
  obtain ⟨-, hlock, -⟩ := hlocks 1 _ hnew
  exact ⟨_, _, _, (handleOf 0).released, handleOf 1, houtside, hold, rfl, hnew, rfl, rfl,
    hremove.of_unlinked hretaken, hstep, hmachine, rfl, hmachine ▸ hlock 1 rfl⟩

end Tenures

end NamedMutex
