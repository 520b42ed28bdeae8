/-
  An attempt with nobody else at work, as a part of a contest.

  * `Machine.transcript` lists the calls of a program that runs alone, with the
    answers to them;
  * `Run.alone`: a party whose calls are all answered, one after the other, comes
    to the end to which its program comes alone, and so does one that begins its
    attempt (`Run.attempt_alone`);
  * `Machine.bare` is the least machine on which an attempt can be made.
-/
import NamedMutex.Proofs.Calls

namespace NamedMutex

namespace Machine

/-- The calls of a program that runs with nobody else at work, and the answers
    to them. -/
def transcript {α : Type} (pid : Pid) : Program α → Machine → List ((c : Call) × c.Answer)
  | .done _, _ | .halt _, _ => []
  | .ask c next, m =>
    ⟨c, (m.perform pid c).1⟩ :: transcript pid (next (m.perform pid c).1) (m.perform pid c).2

/-- The files that the answers of a transcript give. -/
def filesOf (calls : List ((c : Call) × c.Answer)) : List Descriptor :=
  calls.flatMap fun y => y.1.opened y.2

end Machine

namespace Contest

variable {dir : Path} {name : String} {m : Machine} {k : Nat}

/-- What a run comes to in which a party alone goes on with the program `p` of its
    stage: `new` is what came to pass. -/
structure Alone {α : Type} (dir : Path) (name : String) (m : Machine) (past : Past) (s : Contest)
    (k : Nat) (P : Party) (stage : Program α → Stage) (p : Program α) (new : Past) (s' : Contest)
    (P' : Party) : Prop where
  run : Run dir name m (new ++ past) s'
  live : s'.Live k P'
  process : P'.process = P.process
  machine : s'.machine = (s.machine.run P.process p).2
  stage : P'.stage = stage (.ofCompletion (s.machine.run P.process p).1)
  files : P'.files = (Machine.filesOf (s.machine.transcript P.process p)).reverse ++ P.files
  others : ∀ u ∈ states new s', ∀ j, j ≠ k → u.parties[j]? = s.parties[j]?
  moves : ∀ u move, (u, move) ∈ new → ∃ c x, move = .reply k .answered c x ∧
    (⟨c, x⟩ : (c : Call) × c.Answer) ∈ s.machine.transcript P.process p

theorem Replies.of_perform {pid : Pid} {c : Call} {x : c.Answer} {m' : Machine}
    (h : m.perform pid c = (x, m')) : Replies m pid .answered c x m' := by
  have hreply : Replies m pid .answered c (m.perform pid c).1 (m.perform pid c).2 := .answered
  rwa [h] at hreply

theorem files_told (P : Party) (c : Call) (x : c.Answer) (stage : Stage)
    (calls : List ((c : Call) × c.Answer)) :
    (Machine.filesOf calls).reverse ++ (P.told c x stage).files =
      (Machine.filesOf (⟨c, x⟩ :: calls)).reverse ++ P.files := by
  have hrev : (c.opened x).reverse = c.opened x := by
    unfold Call.opened
    split <;> rfl
  simp only [Machine.filesOf, List.flatMap_cons, List.reverse_append, hrev, Party.told,
    List.append_assoc]

/-- **A party whose calls are all answered comes to the end to which its program
    comes alone.** -/
theorem Run.alone {α : Type} {stage : Program α → Stage}
    (hstage : ∀ c next, (stage (.ask c next)).Asks c fun x => stage (next x)) {p : Program α}
    {past : Past} {s : Contest} {P : Party} (hrun : Run dir name m past s) (hk : s.Live k P)
    (hp : P.stage = stage p) : ∃ new s' P', Alone dir name m past s k P stage p new s' P' := by
  induction p generalizing past s P with
  | done | halt =>
    refine ⟨[], s, P, hrun, hk, rfl, rfl, hp, rfl, fun u hu j _ => ?_, fun u move hu => ?_⟩
    · rw [List.mem_singleton.1 hu]
    · exact absurd hu List.not_mem_nil
  | ask c rest ih =>
    have hasks : P.stage.Asks c fun x => stage (rest x) := by
      rw [hp]
      exact hstage c rest
    have hlt : k < s.parties.length := (List.getElem?_eq_some_iff.1 hk.1).1
    obtain ⟨x, m', hx⟩ : ∃ x m', s.machine.perform P.process c = (x, m') := ⟨_, _, rfl⟩
    have hstep := hrun.next (.reply hk hasks (Replies.of_perform hx))
    have hk' : (s.put m' k (P.told c x (stage (rest x)))).Live k
        (P.told c x (stage (rest x))) := ⟨by simp [put, hlt], hk.2⟩
    obtain ⟨new, s', P', h⟩ := ih x hstep hk' rfl
    have hrest : s.machine.run P.process (.ask c rest) = m'.run P.process (rest x) := by
      simp only [Machine.run, hx]
    have hcalls : s.machine.transcript P.process (.ask c rest) =
        ⟨c, x⟩ :: m'.transcript P.process (rest x) := by
      simp only [Machine.transcript, hx]
    have hothers : ∀ u ∈ states new s', ∀ j, j ≠ k → u.parties[j]? = s.parties[j]? := by
      intro u hu j hj
      refine (h.others u hu j hj).trans ?_
      simp [put, Ne.symm hj]
    refine ⟨new ++ [(s, .reply k .answered c x)], s', P', ?_, h.live, h.process, ?_, ?_, ?_,
      fun u hu j hj => ?_, fun u move hu => ?_⟩
    · rw [List.append_assoc]
      exact h.run
    · rw [hrest]
      exact h.machine
    · rw [hrest]
      exact h.stage
    · rw [hcalls, h.files]
      exact files_told P c x _ _
    · simp only [states, List.map_append, List.map_cons, List.map_nil] at hu
      rcases List.mem_cons.1 hu with rfl | hu
      · exact hothers _ (List.mem_cons_self ..) j hj
      rcases List.mem_append.1 hu with hu | hu
      · exact hothers u (List.mem_cons_of_mem _ hu) j hj
      · rw [List.mem_singleton.1 hu]
    · rw [hcalls]
      rcases List.mem_append.1 hu with hu | hu
      · obtain ⟨c', x', hmove, hmem⟩ := h.moves u move hu
        exact ⟨c', x', hmove, List.mem_cons_of_mem _ hmem⟩
      · cases List.mem_singleton.1 hu
        exact ⟨c, x, rfl, List.mem_cons_self ..⟩

/-- **A party that releases its handle, and has the machine for itself**, comes to
    the end to which the release comes alone. -/
theorem Run.release_alone {past : Past} {s : Contest} {P : Party} {h : Handle}
    (hrun : Run dir name m past s) (hk : s.Live k P) (hh : P.stage.handle? = some h) :
    ∃ new s' P', Alone dir name m ((s, .release k) :: past)
      (s.put s.machine k { P with stage := .releasing h.release }) k
      { P with stage := .releasing h.release } .releasing h.release new s' P' := by
  have halive : ({ P with stage := .releasing h.release } : Party).alive = true := hk.2
  exact (hrun.next (.release hk hh)).alone (fun _ _ => .releasing)
    ((live_put hk _ halive).2 (Or.inl ⟨rfl, rfl⟩)) rfl

/-- **A process that begins an attempt, and has the machine for itself**, comes to
    the end to which the attempt comes alone. -/
theorem Run.attempt_alone {past : Past} {s : Contest} (hrun : Run dir name m past s) {pid : Pid}
    (hpid : s.machine.processes.get? pid = some .running) :
    ∃ new s' P', Alone dir name m ((s, .attempt pid) :: past) (s.enter (entrant dir name pid))
      s.parties.length (entrant dir name pid) .attempting (Handle.acquire dir name) new s' P' :=
  (hrun.next (.attempt hpid)).alone (fun _ _ => .attempting) ⟨by simp [enter], rfl⟩ rfl

theorem Run.attempt_calm {past : Past} {s : Contest} (hrun : Run dir name m past s) {pid : Pid}
    (hpid : s.machine.processes.get? pid = some .running) {h : Handle}
    (hend : (s.machine.run pid (Handle.acquire dir name)).1 = .returned (.ok h))
    (hcalm : ∀ y ∈ s.machine.transcript pid (Handle.acquire dir name), y.1.troubles y.2 = false) :
    ∃ new s' P', Run dir name m (new ++ past) s' ∧ (P'.process = pid ∧ P'.alive = true) ∧
      P'.stage = .attempting (.done (.ok h)) ∧
      s'.machine = (s.machine.run pid (Handle.acquire dir name)).2 ∧
      (∀ j, s'.parties[j]? = if j = s.parties.length then some P' else s.parties[j]?) ∧
      ∀ u move, (u, move) ∈ new → move.Calm := by
  obtain ⟨new, s', P', halone⟩ := hrun.attempt_alone hpid
  refine ⟨new ++ [(s, .attempt pid)], s', P', ?_, ⟨halone.process, halone.live.2⟩, ?_,
    halone.machine, fun j => ?_, fun u move hu => ?_⟩
  · rw [List.append_assoc]
    exact halone.run
  · have hstage := halone.stage
    simp only [entrant, enter, hend] at hstage
    exact hstage
  · split
    · rename_i hj
      exact hj ▸ halone.live.1
    · rename_i hj
      have hothers := halone.others s' (List.mem_cons_self ..) j hj
      simpa [get_enter, hj] using hothers
  · rcases List.mem_append.1 hu with hu | hu
    · obtain ⟨c, x, rfl, hmem⟩ := halone.moves u move hu
      exact hcalm _ hmem
    · cases List.mem_singleton.1 hu
      trivial

end Contest

/-! ## A bare machine -/

namespace Machine

/-- A machine with an empty root directory and one process. -/
def bare (pid : Pid) : Machine where
  tree := ⟨⟨[(0, ⟨.directory 0 .empty, 0o755, true⟩)]⟩, 0, 0, 1, 2⟩
  opened := .empty
  nextDescriptor := 0
  locks := .empty
  processes := ⟨[(pid, .running)]⟩
  registries := .empty
  clock := 0
  said := []

theorem node?_bare (pid : Pid) (i : Inode) : (bare pid).tree.node? i =
    if i = 0 then some ⟨.directory 0 .empty, 0o755, true⟩ else none := by
  by_cases hi : i = 0
  · subst hi
    rfl
  · simp [bare, FileTree.node?, Table.get?, hi, Ne.symm hi]

theorem processes_bare (pid q : Pid) : (bare pid).processes.get? q =
    if q = pid then some .running else none := by
  by_cases hq : q = pid
  · subst hq
    simp [bare, Table.get?]
  · simp [bare, Table.get?, hq, Ne.symm hq]

theorem bare_wellFormed (pid : Pid) : (bare pid).WellFormed where
  tree := by
    refine ⟨fun i n hn => ?_, fun {dir parent entries name i} hd he => ?_⟩
    · rw [node?_bare] at hn
      split at hn
      · rename_i hi
        subst hi
        exact Nat.zero_lt_two
      · cases hn
    · obtain ⟨mode, owned, hn⟩ := FileTree.directory?_eq_some.1 hd
      rw [node?_bare] at hn
      split at hn <;> cases hn
      cases he
  openedKeys := List.nodup_nil
  lockKeys := List.nodup_nil
  opened h := by cases h
  locked h := by cases h

end Machine

/-- Whether an attempt yields a handle, and whether that holds the mutex. -/
def Handle.outcome? : Completion (Except IoError Handle) → Option Bool
  | .returned (.ok h) => some h.isAcquired
  | _ => none

theorem Handle.of_outcome? {c : Completion (Except IoError Handle)} {b : Bool}
    (h : outcome? c = some b) : ∃ handle, c = .returned (.ok handle) ∧ handle.isAcquired = b := by
  unfold outcome? at h
  split at h
  · exact ⟨_, rfl, Option.some.inj h⟩
  · cases h

namespace Contest

/-- The root directory. -/
def root : Path := ⟨[Path.slash]⟩

/-- **Two attempts of one process, one after the other**: the first acquires the
    mutex, and the second does not. -/
theorem exists_two_attempts : ∃ past s P Q h h', Run root "a" (.bare 1) past s ∧
    (∀ j, s.parties[j]? = if j = 1 then some Q else if j = 0 then some P else none) ∧
    (P.process = 1 ∧ P.alive = true ∧ P.stage = .attempting (.done (.ok h)) ∧
      h.isAcquired = true) ∧
    (Q.alive = true ∧ Q.stage = .attempting (.done (.ok h')) ∧ h'.isAcquired = false) ∧
    ∀ u move, (u, move) ∈ past → move.Calm := by
  let first := (Machine.bare 1).run 1 (Handle.acquire root "a")
  obtain ⟨h, hend, hh⟩ := Handle.of_outcome? (c := first.1) (b := true) (by decide +kernel)
  obtain ⟨h', hend', hh'⟩ := Handle.of_outcome? (b := false)
    (c := (first.2.run 1 (Handle.acquire root "a")).1) (by decide +kernel)
  have hcalm : ∀ y ∈ (Machine.bare 1).transcript 1 (Handle.acquire root "a"),
      y.1.troubles y.2 = false := by decide +kernel
  have hcalm' : ∀ y ∈ first.2.transcript 1 (Handle.acquire root "a"),
      y.1.troubles y.2 = false := by decide +kernel
  have hstart : Run root "a" (.bare 1) [] ⟨.bare 1, []⟩ := .start
  have hpid : first.2.processes.get? 1 = some .running := by decide +kernel
  obtain ⟨new, s, P, hrun, ⟨hprocess, halive⟩, hstage, hm, hparties, hmoves⟩ :=
    hstart.attempt_calm rfl hend hcalm
  rw [← hm] at hend' hcalm' hpid
  obtain ⟨new', s', Q, hrun', ⟨-, halive'⟩, hstage', -, hparties', hmoves'⟩ :=
    hrun.attempt_calm hpid hend' hcalm'
  have hlen : s.parties.length = 1 := by
    refine Nat.le_antisymm ?_ (Nat.lt_of_not_le fun hle => ?_)
    · exact List.getElem?_eq_none_iff.1 (hparties 1)
    · have hzero := hparties 0
      rw [List.getElem?_eq_none hle] at hzero
      cases hzero
  rw [hlen] at hparties'
  refine ⟨_, s', P, Q, h, h', hrun', fun j => ?_, ⟨hprocess, halive, hstage, hh⟩,
    ⟨halive', hstage', hh'⟩, fun u move hu => ?_⟩
  · rw [hparties', hparties]
    rfl
  · rcases List.mem_append.1 hu with hu | hu
    · exact hmoves' u move hu
    · rw [List.append_nil] at hu
      exact hmoves u move hu

/-- **A crash**: a process acquires the mutex and dies, and another one starts.
    Its attempt would meet no failure. -/
theorem exists_crash : ∃ past s, Run root "a" (.bare 1) past s ∧
    s.machine.processes.get? 2 = some .running ∧ (∀ j Q, ¬ s.Live j Q) ∧
    ∀ y ∈ s.machine.transcript 2 (Handle.acquire root "a"), y.1.troubles y.2 = false := by
  let first := (Machine.bare 1).run 1 (Handle.acquire root "a")
  obtain ⟨h, hend, -⟩ := Handle.of_outcome? (c := first.1) (b := true) (by decide +kernel)
  have hcalm : ∀ y ∈ (Machine.bare 1).transcript 1 (Handle.acquire root "a"),
      y.1.troubles y.2 = false := by decide +kernel
  have hstart : Run root "a" (.bare 1) [] ⟨.bare 1, []⟩ := .start
  obtain ⟨new, s, P, hrun, ⟨hprocess, -⟩, -, hm, hparties, -⟩ := hstart.attempt_calm rfl hend hcalm
  have hpid : s.machine.processes.get? 1 = some .running := by
    rw [hm]
    decide +kernel
  have hnone : (s.machine.kill 1).processes.get? 2 = none := by
    rw [hm]
    decide +kernel
  refine ⟨_, _, (hrun.next (.death hpid)).next (.spawn (by decide) (by decide) hnone), ?_, ?_, ?_⟩
  · exact Table.get?_insert_self _ _ _
  · intro j Q hj
    have hj' : (s.bury 1).Live j Q := hj
    obtain ⟨⟨hQ, -⟩, hne⟩ := live_bury.1 hj'
    rw [hparties] at hQ
    split at hQ <;> cases hQ
    exact hne hprocess
  · show ∀ y ∈ ((s.machine.kill 1).spawn 2).transcript 2 _, _
    rw [hm]
    decide +kernel

end Contest

end NamedMutex
