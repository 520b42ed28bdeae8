/-
  The stamp in the lock file.

  If there was no lock file at first, and no write breaks off, then whatever the
  lock file holds was written by processes that had its lock: it is empty, or the
  number of such a process, with a newline or without.  And while a handle is
  acquired, it is the whole stamp of the process of that handle.

  * `run_readOwner_of_names`, `names_of_run_readOwner`: whom a look at the file finds;
  * `Play.signed`: who wrote what the file holds;
  * `stamp_integrity` is the main statement.
-/
import NamedMutex.Proofs.Exclusion
import NamedMutex.Proofs.Solo
import NamedMutex.Proofs.Starts

namespace NamedMutex

/-! ## Looks at the file -/

namespace Machine

variable {m : Machine} {me pid : Pid} {dir path : Path} {name : String} {bytes : Bytes}

theorem run_readOwner_of_names (hname : IsValidName name)
    (hread : m.tree.readPath (lockPath dir name) = .ok bytes) (hnames : Stamp.Names bytes pid)
    (hpid : 0 < pid ∧ pid < Pid.limit) (hrun : m.processes.get? pid = some .running) :
    (m.run me (readOwner dir name)).1 = .returned (.ok (some ⟨pid, true⟩)) := by
  rw [run_readOwner m me hname, ownerAt_of_names hread hnames, sees_of_running hpid hrun]

theorem names_of_ownerAt {o : Owner} (h : m.ownerAt path = .ok (some o)) :
    ∃ i, m.tree.Leads path i ∧ Stamp.Names (m.tree.bytesOf i) o.pid := by
  unfold ownerAt at h
  cases hread : m.tree.readPath path with
  | error e =>
    simp only [hread, readText] at h
    split at h <;> cases h
  | ok bytes =>
    obtain ⟨i, hl, rfl⟩ := FileTree.leads_of_readPath hread
    refine ⟨i, hl, ?_⟩
    simp only [hread, readText] at h
    cases hcontent : Utf8.decode? (m.tree.bytesOf i) with
    | none =>
      simp only [hcontent] at h
      split at h <;> cases h
    | some content =>
      simp only [hcontent, Except.ok.injEq] at h
      obtain ⟨pid, hparse, rfl⟩ := Option.map_eq_some_iff.1 h
      exact ⟨content, hcontent, hparse⟩

theorem names_of_run_readOwner {o : Owner}
    (h : (m.run me (readOwner dir name)).1 = .returned (.ok (some o))) :
    ∃ i, m.tree.Leads (lockPath dir name) i ∧ Stamp.Names (m.tree.bytesOf i) o.pid := by
  by_cases hname : IsValidName name
  · rw [run_readOwner m me hname] at h
    exact names_of_ownerAt (Completion.returned.inj h)
  · rw [readOwner, if_neg hname] at h
    cases h

end Machine

/-! ## Who wrote what -/

/-- A machine without a lock file, on which processes have the numbers that
    processes have. -/
structure Blank (path : Path) (m : Machine) : Prop where
  wellFormed : m.WellFormed
  absent : m.tree.Absent path
  pids : ∀ pid, m.processes.get? pid = some .running → 0 < pid ∧ pid < Pid.limit

theorem Blank.fit {path : Path} {m : Machine} (h : Blank path m) : Fit path m :=
  .of_absent h.wellFormed h.absent

theorem Follows.of_unlink {path p : Path} {me : Pid} {r r' : Role}
    {x : (Call.unlink p).Answer} (h : Follows path me r (.unlink p) x r') : r.Unlinks := by
  cases h with
  | unlink => exact ⟨_, rfl⟩
  | stamped h | unstamped h => cases h

namespace Contest

/-- A process had the lock of a node once. -/
def HadLock (past : Past) (s : Contest) (pid : Pid) (i : Inode) : Prop :=
  ∃ u ∈ states past s, ∃ d f, u.machine.locks.get? i = some d ∧
    u.machine.opened.get? d = some f ∧ f.process = pid

/-- The content of a node was written by a process that had its lock: nothing, or
    its number, with a newline or without. -/
def WrittenUnderLock (past : Past) (s : Contest) (i : Inode) (bytes : Bytes) : Prop :=
  bytes = [] ∨ ∃ pid, (0 < pid ∧ pid < Pid.limit) ∧ HadLock past s pid i ∧
    (bytes = Stamp.digits pid ∨ bytes = Stamp.text pid)

/-- What holds of all states after a start without a lock file. -/
structure Signed (path : Path) (past : Past) (s : Contest) : Prop where
  pids : ∀ pid, s.machine.processes.get? pid = some .running → 0 < pid ∧ pid < Pid.limit
  linked : ∀ i, s.machine.tree.Leads path i →
    ∃ bytes, s.machine.tree.file? i = some bytes ∧ WrittenUnderLock past s i bytes

variable {dir : Path} {name : String} {m : Machine} {past : Past} {s s' : Contest} {ρ ρ' : Roles}
  {move : Move} {k : Nat} {P P' : Party} {r : Role}

theorem WrittenUnderLock.next {i : Inode} {bytes : Bytes} (h : WrittenUnderLock past s i bytes) :
    WrittenUnderLock ((s, move) :: past) s' i bytes := by
  rcases h with rfl | ⟨pid, hpid, ⟨u, hu, hlock⟩, hbytes⟩
  · exact Or.inl rfl
  · exact Or.inr ⟨pid, hpid, ⟨u, mem_states.2 (Or.inr hu), hlock⟩, hbytes⟩

theorem Signed.congr {path : Path} (h : Signed path past s)
    (htree : s'.machine.tree = s.machine.tree)
    (hpids : ∀ pid, s'.machine.processes.get? pid = some .running →
      s.machine.processes.get? pid = some .running ∨ (0 < pid ∧ pid < Pid.limit)) :
    Signed path ((s, move) :: past) s' where
  pids pid hp := (hpids pid hp).elim (h.pids pid) id
  linked i hl := by
    rw [htree] at hl ⊢
    obtain ⟨bytes, hfile, hwritten⟩ := h.linked i hl
    exact ⟨bytes, hfile, hwritten.next⟩

/-- **Who writes to the linked file has its lock.** -/
theorem Signed.turn (hblank : Blank (lockPath dir name) m) (h : Signed (lockPath dir name) past s)
    (hs : Sound dir name s ρ) (hkept : Kept (lockPath dir name) m past s ρ) (hk : s.Live k P)
    {m' : Machine}
    (ht : Turn (lockPath dir name) P.process (Stamp.Whole P.process) (ρ k) s.machine r m') :
    Signed (lockPath dir name) ((s, move) :: past) (s.put m' k P') := by
  refine ⟨fun pid hp => h.pids pid (ht.processes ▸ hp), fun i hl => ?_⟩
  have hl : m'.tree.Leads (lockPath dir name) i := hl
  show ∃ bytes, m'.tree.file? i = some bytes ∧ _
  by_cases hsettled : s.machine.tree.Settled (lockPath dir name)
  · rcases ht.tree.linked hsettled i hl with hl | ⟨-, hnew⟩
    · obtain ⟨bytes, hfile, hwritten⟩ := h.linked i hl
      rcases ht.tree.files i (FileTree.isSome_node?_of_file? hfile) with hsame | ⟨hown, bytes', hfile', hwhole⟩
      · exact ⟨bytes, hsame.trans hfile, hwritten.next⟩
      · -- the owner of the node writes
        obtain ⟨d, hd, hlock, -⟩ := (hs.holds k P hk).owns hown
        obtain ⟨f, hf, hme, -⟩ := (hs.holds k P hk).file d hd
        have hhad : HadLock ((s, move) :: past) (s.put m' k P') P.process i :=
          ⟨s, mem_states.2 (Or.inr (List.mem_cons_self ..)), d, f, hlock, hf, hme⟩
        have hpid := h.pids _ (hs.running k P hk)
        refine ⟨bytes', hfile', ?_⟩
        rcases hwhole with rfl | hdigits | htext
        · exact Or.inl rfl
        · exact Or.inr ⟨_, hpid, hhad, Or.inl hdigits⟩
        · exact Or.inr ⟨_, hpid, hhad, Or.inr htext⟩
    · exact ⟨[], by simp [FileTree.file?, hnew], Or.inl rfl⟩
  · -- there is no lock file before its directory is made
    have hprep := ht.tree.prepared hsettled (hkept.tree.resolve_left hsettled)
    exact absurd hl (hblank.absent _ i hprep)

/-- **Whatever the lock file holds was written under its lock**, if no write breaks
    off. -/
theorem Play.signed (hblank : Blank (lockPath dir name) m) (h : Play dir name m past s ρ)
    (hwhole : ∀ u k c x, (u, Move.reply k .torn c x) ∉ past) :
    Signed (lockPath dir name) past s := by
  induction h with
  | start => exact ⟨hblank.pids, fun i hl => absurd hl (hblank.absent _ i .start)⟩
  | next hplay hc _ ih =>
    have hsigned := ih fun u k c x hmem => hwhole u k c x (List.mem_cons_of_mem _ hmem)
    have hs := hplay.sound hblank.wellFormed
    cases hc with
    | @spawn pid hpos hlt =>
      refine hsigned.congr rfl fun p hp => ?_
      simp only [Machine.spawn, Table.get?_insert] at hp
      split at hp
      · rename_i heq
        exact Or.inr (heq ▸ ⟨hpos, hlt⟩)
      · exact Or.inl hp
    | reap =>
      refine hsigned.congr rfl fun p hp => Or.inl ?_
      simp only [Machine.reap, Table.get?_erase] at hp
      split at hp
      · cases hp
      · exact hp
    | @death pid =>
      refine hsigned.congr (Machine.tree_kill hs.wellFormed pid) fun p hp => Or.inl ?_
      have hproc := Machine.processes_kill hs.wellFormed pid
      have hp : (Machine.kill _ pid).processes.get? p = some .running := hp
      rw [hproc, Table.get?_insert] at hp
      split at hp
      · cases hp
      · exact hp
    | attempt | release => exact hsigned.congr rfl fun _ hp => Or.inl hp
    | @reply k P manner c x next m' r hk hasks hreply hf ht =>
      have hmanner : manner.Leaves P.process = Stamp.Whole P.process := by
        cases manner with
        | torn => exact absurd (List.mem_cons_self ..) (hwhole _ k c x)
        | answered | failed => rfl
      rw [hmanner] at ht
      exact hsigned.turn hblank hs (hplay.kept hblank.fit) hk ht

/-! ## Stamp integrity -/

/-- A party holds the mutex, or is about to remove the file of its handle. -/
def Retains (s : Contest) (k : Nat) (P : Party) : Prop :=
  s.Live k P ∧ ((∃ h, P.stage = .attempting (.done (.ok h)) ∧ h.isAcquired = true) ∨
    ∃ p next, P.stage.Asks (.unlink p) next)

theorem Sound.retains (hs : Sound dir name s ρ) (h : s.Retains k P) : (ρ k).Unlinks := by
  obtain ⟨hk, ⟨h, hstage, hacq⟩ | ⟨p, next, hasks⟩⟩ := h
  · obtain ⟨d, -, hrole⟩ := hs.acquired hk hstage hacq
    exact ⟨d, hrole⟩
  · obtain ⟨r, hf, -⟩ := (hs.obeys k P hk.1).next hasks (x := .ok ()) trivial
    exact hf.of_unlink

theorem Run.valid (hrun : Run dir name m past s) (hk : s.parties[k]? = some P) :
    IsValidName name ∨ ∃ x, P.stage = .attempting (.halt x) := by
  by_cases hname : IsValidName name
  · exact Or.inl hname
  refine Or.inr ?_
  induction hrun generalizing k P with
  | start => cases hk
  | @next past s s' move hrun hstep ih =>
    have hlive : ∀ {j Q}, s.Live j Q → ∃ x, Q.stage = .attempting (.halt x) := fun h => ih h.1
    cases hstep with
    | spawn | reap => exact ih hk
    | death =>
      rw [get_bury, Option.map_eq_some_iff] at hk
      obtain ⟨Q, hk, rfl⟩ := hk
      have hQ : ∃ x, Q.stage = .attempting (.halt x) := ih hk
      exact hQ
    | attempt =>
      rw [get_enter] at hk
      split at hk
      · cases hk
        simp only [entrant, Handle.acquire, if_neg hname]
        exact ⟨_, rfl⟩
      · exact ih hk
    | release hj hh =>
      obtain ⟨x, hstage⟩ := hlive hj
      rw [hstage] at hh
      cases hh
    | reply hj hasks =>
      obtain ⟨x, hstage⟩ := hlive hj
      rw [hstage] at hasks
      cases hasks

theorem Run.valid_of_retains (hrun : Run dir name m past s) (h : s.Retains k P) :
    IsValidName name := by
  rcases hrun.valid h.1.1 with hname | ⟨x, hstage⟩
  · exact hname
  · obtain ⟨-, ⟨handle, hdone, -⟩ | ⟨p, next, hasks⟩⟩ := h
    · rw [hstage] at hdone
      cases hdone
    · rw [hstage] at hasks
      cases hasks

theorem Sound.stamped (hs : Sound dir name s ρ) (h : s.Retains k P) :
    ∃ i, s.machine.tree.Leads (lockPath dir name) i ∧ s.machine.tree.Usable i ∧
      s.machine.tree.file? i = some (Stamp.text P.process) := by
  obtain ⟨d, hrole⟩ := hs.retains h
  obtain ⟨f, -, hme, huse, hach⟩ := (hs.holds k P h.1).file d (by rw [hrole]; rfl)
  rw [hrole] at hach
  obtain ⟨-, hl, hfile⟩ := hach
  have hfile : s.machine.tree.file? f.inode = some (Stamp.text f.process) := hfile
  exact ⟨f.inode, hl, huse, hme ▸ hfile⟩

/-- Whom the linked file names had its lock. -/
theorem Signed.hadLock {path : Path} (h : Signed path past s) {i : Inode}
    (hl : s.machine.tree.Leads path i) {pid : Pid}
    (hnames : Stamp.Names (s.machine.tree.bytesOf i) pid) : HadLock past s pid i := by
  obtain ⟨bytes, hfile, hwritten⟩ := h.linked i hl
  rw [FileTree.bytesOf_of_file? hfile] at hnames
  rcases hwritten with rfl | ⟨q, hq, hhad, hbytes⟩
  · obtain ⟨content, hcontent, hparse⟩ := hnames
    cases hcontent
    cases hparse
  · have hnamesq : Stamp.Names bytes q := by
      rcases hbytes with rfl | rfl
      · exact Stamp.names_digits hq.1 (Stamp.lt_limit hq.2)
      · exact Stamp.names_text hq.1 (Stamp.lt_limit hq.2)
    rwa [hnames.unique hnamesq]

/-- **Owner stamp integrity.**  In every state of a run without a lock file at
    first, in which no write breaks off, whoever died and whatever else failed:
    while a party holds the mutex, until it removes the file, the file to which
    the path leads is the stamp of its process, and whoever looks finds that
    process, alive.  At all times the linked file was written by processes that
    had its lock, so that nobody finds any other. -/
theorem stamp_integrity (hblank : Blank (lockPath dir name) m) (hrun : Run dir name m past s)
    (hwhole : ∀ u k c x, (u, Move.reply k .torn c x) ∉ past) :
    (∀ k P, s.Retains k P → (∃ i, s.machine.tree.Leads (lockPath dir name) i ∧
      s.machine.tree.file? i = some (Stamp.text P.process)) ∧
      ∀ q, (s.machine.run q (readOwner dir name)).1 =
        .returned (.ok (some ⟨P.process, true⟩))) ∧
    (∀ i, s.machine.tree.Leads (lockPath dir name) i →
      ∃ bytes, s.machine.tree.file? i = some bytes ∧ WrittenUnderLock past s i bytes) ∧
    ∀ q o, (s.machine.run q (readOwner dir name)).1 = .returned (.ok (some o)) →
      ∃ i, s.machine.tree.Leads (lockPath dir name) i ∧ HadLock past s o.pid i := by
  obtain ⟨ρ, hplay⟩ := hrun.play hblank.wellFormed
  have hs := hplay.sound hblank.wellFormed
  have hsigned := hplay.signed hblank hwhole
  refine ⟨fun k P hretains => ?_, hsigned.linked, fun q o ho => ?_⟩
  · obtain ⟨i, hl, huse, hfile⟩ := hs.stamped hretains
    refine ⟨⟨i, hl, hfile⟩, fun q => ?_⟩
    have hread := FileTree.readPath_of_leads hl huse.2 huse.1
    rw [FileTree.bytesOf_of_file? hfile] at hread
    have hrunning := hs.running k P hretains.1
    have hpid := hsigned.pids _ hrunning
    exact Machine.run_readOwner_of_names (hrun.valid_of_retains hretains) hread
      (Stamp.names_text hpid.1 (Stamp.lt_limit hpid.2)) hpid hrunning
  · obtain ⟨i, hl, hnames⟩ := Machine.names_of_run_readOwner ho
    exact ⟨i, hl, hsigned.hadLock hl hnames⟩

/-- The first of two attempts has stamped the file. -/
theorem stamp_integrity_of_two : ∃ past s i, Run root "a" (.bare 1) past s ∧
    s.machine.tree.Leads (lockPath root "a") i ∧
    s.machine.tree.file? i = some (Stamp.text 1) ∧
    (s.machine.run 1 (readOwner root "a")).1 = .returned (.ok (some ⟨1, true⟩)) ∧
    HadLock past s 1 i := by
  obtain ⟨past, s, P, _, h, _, hrun, hparties, ⟨hprocess, halive, hstage, hacq⟩, -, hcalm⟩ :=
    exists_two_attempts
  have hblank : Blank (lockPath root "a") (.bare 1) := by
    refine ⟨Machine.bare_wellFormed 1, absent_bare 1, fun pid hpid => ?_⟩
    rw [Machine.processes_bare] at hpid
    split at hpid
    · rename_i hone
      rw [hone]
      decide
    · cases hpid
  obtain ⟨hretained, -, hfound⟩ := stamp_integrity hblank hrun fun u k c x hmem => hcalm u _ hmem
  have hretains : s.Retains 0 P := ⟨⟨hparties 0, halive⟩, Or.inl ⟨h, hstage, hacq⟩⟩
  obtain ⟨⟨i, hl, hfile⟩, hread⟩ := hretained 0 P hretains
  rw [hprocess] at hfile hread
  obtain ⟨j, hl', hhad⟩ := hfound 1 _ (hread 1)
  exact ⟨past, s, i, hrun, hl, hfile, hread 1, hl'.unique hl ▸ hhad⟩

end Contest

end NamedMutex
