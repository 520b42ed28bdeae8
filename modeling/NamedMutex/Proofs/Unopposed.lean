/-
  Attempts and releases that nobody disturbs.

  An attempt on its own ends with the file locked and stamped (`taken`), or with
  nothing done but that a file was opened and closed again (`passed`).

  * `gives_tryRounds_taken`, `gives_tryRounds_illegible`, `gives_tryRounds_refused` say
    which, by the lock and the content of the file;
  * `gives_release`: a release removes the file and closes it;
  * `acquire_over_content` says what an old content has to do with the outcome.
-/
import NamedMutex.Proofs.Solo
import NamedMutex.Proofs.Starts

namespace NamedMutex

theorem FileTree.setContent_setContent (t : FileTree) (i : Inode) (c c' : Content) :
    (t.setContent i c).setContent i c' = t.setContent i c' := by
  cases hn : t.node? i with
  | none => simp only [setContent, update, hn]
  | some n =>
    have hn' : (t.setContent i c).node? i = some { n with content := c } := by
      simp [setContent, node?_update, hn]
    simp only [setContent, update, hn] at hn' ⊢
    simp only [hn', Table.insert_insert]

/-- What an attempt comes to for whoever makes it. -/
def Handle.ofOutcome (name : String) (path : Path) : Attempt → Except IoError Handle
  | .error e => .error e
  | .ok held => .ok (.ofAttempt name path held)

namespace Machine

theorem run_wellFormed {α : Type} {m : Machine} (hw : m.WellFormed) (me : Pid) (p : Program α) :
    (m.run me p).2.WellFormed := by
  induction p generalizing m with
  | done | halt => exact hw
  | ask c next ih => exact ih _ (answer_wellFormed hw.tick me c)

theorem Gives.wellFormed {α : Type} {m m' : Machine} {me : Pid} {p : Program α} {a : α}
    (h : m.Gives me p a m') (hw : m.WellFormed) : m'.WellFormed := by
  obtain ⟨_, _, -, hrun⟩ := h.run
  have hw' := run_wellFormed hw me p
  rw [hrun] at hw'
  exact ⟨hw'.tree, hw'.openedKeys, hw'.lockKeys, hw'.opened, hw'.locked⟩

/-- A machine with another tree, on which a process has a new file open. -/
def having (m : Machine) (me : Pid) (i : Inode) (t : FileTree) (offset : Nat)
    (locks : Table Inode Descriptor) : Machine :=
  { m with
    tree := t
    opened := m.opened.insert m.nextDescriptor ⟨i, offset, me⟩
    nextDescriptor := m.nextDescriptor + 1
    locks := locks }

variable {m : Machine} {me : Pid} {i : Inode} {t : FileTree} {o : Nat}
  {locks : Table Inode Descriptor} {path : Path} {old : Bytes} {mode : Nat} {owned : Bool}

theorem opened_having : (m.having me i t o locks).opened.get? m.nextDescriptor = some ⟨i, o, me⟩ :=
  Table.get?_insert_self _ _ _

/-! ## What calls do with the new file -/

theorem answer_openFile (h : m.tree.openPath [.read, .write] path = .ok (t, i)) :
    m.answer me (.openFile path) = (.ok m.nextDescriptor, m.having me i t 0 m.locks) := by
  simp only [answer, h]
  rfl

theorem answer_tryLock (h : locks.get? i = none) :
    (m.having me i t o locks).answer me (.tryLock m.nextDescriptor) =
      (.ok (), m.having me i t o (locks.insert i m.nextDescriptor)) := by
  have hlock : (m.having me i t o locks).locks.get? i = none := h
  simp only [answer, tryLock, opened_having, hlock]
  rfl

theorem answer_tryLock_held {d : Descriptor} (h : locks.get? i = some d)
    (hd : d ≠ m.nextDescriptor) : (m.having me i t o locks).answer me (.tryLock m.nextDescriptor) =
      (.error (.os .wouldBlock), m.having me i t o locks) := by
  have hlock : (m.having me i t o locks).locks.get? i = some d := h
  simp only [answer, tryLock, opened_having, hlock, if_neg hd]

theorem answer_leadsTo (h : t.Leads path i) :
    (m.having me i t o locks).answer me (.leadsTo path m.nextDescriptor) =
      (true, m.having me i t o locks) := by
  have hleads : (m.having me i t o locks).leadsTo path m.nextDescriptor = true :=
    (leadsTo_iff opened_having).2 h
  simp only [answer, hleads]

theorem answer_read : (m.having me i t 0 locks).answer me (.read m.nextDescriptor) =
    (.ok (t.bytesOf i), m.having me i t (t.bytesOf i).length locks) := by
  have htree : (m.having me i t 0 locks).tree = t := rfl
  simp only [answer, read, opened_having, htree, List.drop_zero, Nat.zero_max]
  simp only [having, seek, Table.insert_insert]

theorem answer_truncate (hn : t.node? i = some ⟨.file old, mode, owned⟩) :
    (m.having me i t o locks).answer me (.truncate m.nextDescriptor) =
      (.ok (), m.having me i (t.setContent i (.file [])) o locks) := by
  have hn' : (m.having me i t o locks).tree.node? i = some ⟨.file old, mode, owned⟩ := hn
  simp only [answer, truncate, opened_having, hn']
  rfl

theorem answer_rewind : (m.having me i t o locks).answer me (.rewind m.nextDescriptor) =
    (.ok (), m.having me i t 0 locks) := by
  simp only [answer, rewind, opened_having]
  simp only [having, seek, Table.insert_insert]

theorem answer_write {bytes : Bytes} (hn : t.node? i = some ⟨.file old, mode, owned⟩) :
    (m.having me i t o locks).answer me (.write m.nextDescriptor bytes) =
      (.ok (), m.having me i (t.setContent i (.file (overwrite old o bytes))) (o + bytes.length)
        locks) := by
  have hn' : (m.having me i t o locks).tree.node? i = some ⟨.file old, mode, owned⟩ := hn
  simp only [answer, write, opened_having, hn']
  simp only [having, seek, setTree, Table.insert_insert]

theorem answer_unlock : (m.having me i t o locks).answer me (.unlock m.nextDescriptor) =
    (.ok (), m.having me i t o (locks.filter fun _ d => decide (d ≠ m.nextDescriptor))) := by
  have hopen : (m.having me i t o locks).opened.contains m.nextDescriptor = true := by
    rw [Table.contains, opened_having, Option.isSome_some]
  simp only [answer, if_pos hopen]
  rfl

/-- The machine after a file was opened in vain. -/
def passed (m : Machine) (t : FileTree) : Machine :=
  { m with tree := t, nextDescriptor := m.nextDescriptor + 1 }

theorem WellFormed.locks_ne (hw : m.WellFormed) :
    ∀ e ∈ m.locks.entries, decide (e.2 ≠ m.nextDescriptor) = true := by
  intro e he
  obtain ⟨f, hf, -⟩ := hw.locked ((Table.get?_eq_some_iff hw.lockKeys).2 he)
  exact decide_eq_true (Nat.ne_of_lt (hw.opened hf).1)

theorem WellFormed.filter_locks (hw : m.WellFormed) :
    m.locks.filter (fun _ d => decide (d ≠ m.nextDescriptor)) = m.locks :=
  congrArg Table.mk (List.filter_eq_self.2 hw.locks_ne)

theorem WellFormed.filter_insert_locks (hw : m.WellFormed) (hfree : m.locks.get? i = none) :
    (m.locks.insert i m.nextDescriptor).filter (fun _ d => decide (d ≠ m.nextDescriptor)) =
      m.locks := Table.filter_insert hfree (by simp) hw.locks_ne

theorem answer_close (hw : m.WellFormed)
    (hl : locks.filter (fun _ d => decide (d ≠ m.nextDescriptor)) = m.locks) :
    (m.having me i t o locks).answer me (.close m.nextDescriptor) = ((), m.passed t) := by
  have hfresh : m.opened.get? m.nextDescriptor = none := by
    cases h : m.opened.get? m.nextDescriptor with
    | none => rfl
    | some f => exact absurd (hw.opened h).1 (Nat.lt_irrefl _)
  simp only [answer, close, dropLock, having, Table.erase_insert hfresh, hl, passed]

/-! ## Attempts -/

/-- The machine after a process has locked a node and put its stamp into it. -/
def taken (m : Machine) (me : Pid) (i : Inode) (t : FileTree) : Machine :=
  m.having me i (t.setContent i (.file (Stamp.text me))) (Stamp.text me).length
    (m.locks.insert i m.nextDescriptor)

theorem node?_rewrite (new : Bytes) (hn : t.node? i = some ⟨.file old, mode, owned⟩) :
    (t.setContent i (.file new)).node? i = some ⟨.file new, mode, owned⟩ := by
  simp [FileTree.setContent, FileTree.node?_update, hn]

theorem gives_restamp (hn : t.node? i = some ⟨.file old, mode, owned⟩) :
    (m.having me i t o locks).Gives me (Attempt.restamp me m.nextDescriptor) (.ok ())
      (m.having me i (t.setContent i (.file (Stamp.text me))) (Stamp.text me).length locks) := by
  have hempty := node?_rewrite [] hn
  refine Ends.ask rfl (answer_truncate hn) ?_
  refine Ends.ask rfl answer_rewind ?_
  refine Ends.ask rfl (answer_write hempty) ?_
  rw [FileTree.setContent_setContent, Nat.zero_add]
  refine gives_call rfl ?_
  have hdigits : overwrite [] 0 (Stamp.digits me) = Stamp.digits me := overwrite_length [] _
  rw [hdigits, answer_write (node?_rewrite _ hn), overwrite_length, FileTree.setContent_setContent,
    ← List.length_append]
  rfl

theorem gives_reportFormerOwner (content : String) :
    m.Gives me (Attempt.reportFormerOwner path me content) () m := by
  unfold Attempt.reportFormerOwner
  cases Stamp.parse? content with
  | none => exact gives_pure _
  | some pid =>
    by_cases hme : pid = me
    · simp only [if_pos hme]
      exact Ends.report (gives_pure _)
    · simp only [if_neg hme]
      refine (gives_isAlive m me pid).bind ?_
      cases m.sees pid <;> exact Ends.report (gives_pure _)

theorem gives_busyOwner (m : Machine) (me : Pid) (path : Path) :
    ∃ owner, m.Gives me (Attempt.busyOwner path) owner m := by
  have hread : m.answer me (.readPath path) = (m.tree.readPath path, m) := rfl
  unfold Attempt.busyOwner
  cases h : readText (m.tree.readPath path) with
  | error e => exact ⟨_, Ends.ask rfl hread (by rw [h]; exact gives_pure none)⟩
  | ok content => exact ⟨_, Ends.ask rfl hread (by rw [h]; exact gives_ownerOf m me content)⟩

section Rounds
variable {n : Nat} (hopen : m.tree.openPath [.read, .write] path = .ok (t, i))
include hopen

/-- An attempt on a file that is text, and not locked. -/
theorem gives_tryRounds_taken {content : String} (hl : t.Leads path i)
    (hn : t.node? i = some ⟨.file old, mode, owned⟩) (hfree : m.locks.get? i = none)
    (htext : Utf8.decode? old = some content) :
    m.Gives me (Attempt.tryRounds path (n + 1)) (.ok (some m.nextDescriptor)) (m.taken me i t) := by
  have hbytes : t.bytesOf i = old := by simp only [FileTree.bytesOf, hn]
  have hread : readText (.ok (t.bytesOf i)) = .ok content := by simp only [readText, hbytes, htext]
  refine Ends.ask rfl (answer_openFile hopen) ?_
  refine Ends.ask rfl (answer_tryLock hfree) ?_
  refine Ends.ask rfl (answer_leadsTo hl) ?_
  refine Gives.bind (a := .ok ()) ?_ (gives_pure _)
  refine Ends.ask rfl answer_read ?_
  simp only [hread]
  refine Ends.ask (c := .ownPid) rfl rfl ?_
  exact (gives_reportFormerOwner content).bind (gives_restamp hn)

/-- An attempt on a file that is not locked, and cannot be stamped. -/
theorem gives_tryRounds_unstamped (hw : m.WellFormed) (hl : t.Leads path i)
    (hfree : m.locks.get? i = none) {e : IoError}
    (hstamp : (m.having me i t 0 (m.locks.insert i m.nextDescriptor)).Gives me
      (Attempt.stamp path m.nextDescriptor) (.error e)
      (m.having me i t o (m.locks.insert i m.nextDescriptor))) :
    m.Gives me (Attempt.tryRounds path (n + 1)) (.ok none) (m.passed t) := by
  refine Ends.ask rfl (answer_openFile hopen) ?_
  refine Ends.ask rfl (answer_tryLock hfree) ?_
  refine Ends.ask rfl (answer_leadsTo hl) ?_
  refine hstamp.bind ?_
  refine Gives.bind (Ends.report (Ends.ask rfl answer_unlock (gives_pure _))) ?_
  rw [hw.filter_insert_locks hfree]
  exact Ends.ask rfl (answer_close hw hw.filter_locks) (gives_pure _)

/-- An attempt on a file that is no text, and not locked. -/
theorem gives_tryRounds_illegible (hw : m.WellFormed) (hl : t.Leads path i)
    (hfree : m.locks.get? i = none) (hbad : Utf8.decode? (t.bytesOf i) = none) :
    m.Gives me (Attempt.tryRounds path (n + 1)) (.ok none) (m.passed t) := by
  have hread : readText (.ok (t.bytesOf i)) = .error .notText := by simp only [readText, hbad]
  refine gives_tryRounds_unstamped hopen hw hl hfree (e := .notText) (o := (t.bytesOf i).length) ?_
  refine Ends.ask rfl answer_read ?_
  simp only [hread]
  exact gives_pure _

/-- An attempt on a node that is no file. -/
theorem gives_tryRounds_device (hw : m.WellFormed) (hl : t.Leads path i)
    (hfree : m.locks.get? i = none)
    (hn : ∀ bytes mode owned, t.node? i ≠ some ⟨.file bytes, mode, owned⟩) :
    m.Gives me (Attempt.tryRounds path (n + 1)) (.ok none) (m.passed t) := by
  have hbytes : t.bytesOf i = [] := by
    unfold FileTree.bytesOf
    split
    · rename_i heq
      exact absurd heq (hn _ _ _)
    · rfl
  have hread : readText (.ok (t.bytesOf i)) = .ok "" := by rw [hbytes]; rfl
  have htruncate : ∀ o locks, (m.having me i t o locks).answer me (.truncate m.nextDescriptor) =
      (.error (.os .invalidArgument), m.having me i t o locks) := by
    intro o locks
    simp only [answer, truncate, opened_having]
    split
    · rename_i heq
      exact absurd heq (hn _ _ _)
    · rfl
  refine gives_tryRounds_unstamped hopen hw hl hfree (e := .os .invalidArgument)
    (o := (t.bytesOf i).length) ?_
  refine Ends.ask rfl answer_read ?_
  simp only [hread]
  refine Ends.ask (c := .ownPid) rfl rfl ?_
  refine (gives_reportFormerOwner "").bind ?_
  exact Ends.ask rfl (htruncate _ _) (gives_pure _)

/-- An attempt on a file that somebody else has locked. -/
theorem gives_tryRounds_refused (hw : m.WellFormed) {d : Descriptor}
    (hheld : m.locks.get? i = some d) :
    m.Gives me (Attempt.tryRounds path (n + 1)) (.ok none) (m.passed t) := by
  have hd : d ≠ m.nextDescriptor := by
    obtain ⟨f, hf, -⟩ := hw.locked hheld
    exact Nat.ne_of_lt (hw.opened hf).1
  obtain ⟨owner, howner⟩ := gives_busyOwner (m.having me i t 0 m.locks) me path
  refine Ends.ask rfl (answer_openFile hopen) ?_
  refine Ends.ask rfl (answer_tryLock_held hheld hd) ?_
  refine Gives.bind (howner.bind (Ends.report (gives_pure _))) ?_
  exact Ends.ask rfl (answer_close hw hw.filter_locks) (gives_pure _)

end Rounds

/-- How an attempt ends that an error has met. -/
def failing (e : IoError) : Attempt := if e.IsFatal then .error e else .ok none

theorem gives_fail (m : Machine) (me : Pid) (e : IoError) (event : Event) :
    m.Gives me (Attempt.fail e event) (failing e) m := by
  unfold Attempt.fail failing
  split
  · exact gives_pure _
  · exact Ends.report (gives_pure _)

/-- An attempt on a file that cannot be opened. -/
theorem gives_tryRounds_failed {e : IoError} {n : Nat}
    (hopen : m.tree.openPath [.read, .write] path = .error e) :
    m.Gives me (Attempt.tryRounds path (n + 1)) (failing e) m := by
  have hanswer : m.answer me (.openFile path) = (.error e, m) := by simp only [answer, hopen]
  exact Ends.ask rfl hanswer (gives_fail m me e _)

variable {dir : Path} {name : String} {m' : Machine}

theorem gives_acquire_of_attempt (hname : IsValidName name) {x : Attempt}
    (h : m.Gives me (attempt (lockPath dir name)) x m') :
    m.Gives me (Handle.acquire dir name) (Handle.ofOutcome name (lockPath dir name) x) m' := by
  refine Ends.within ?_ _
  rw [if_pos hname]
  refine h.bind ?_
  cases x with
  | error e => exact gives_pure _
  | ok held =>
    cases held with
    | none => exact gives_pure _
    | some d => exact Ends.report (gives_pure _)

/-- Where its directory need not be made, an attempt is a matter of the file. -/
theorem gives_attempt {x : Attempt}
    (hmake : ∀ q, path.parent? = some q → m.tree.makeDirs q = (m.tree, .ok ()))
    (h : m.Gives me (Attempt.tryRounds path Attempt.rounds) x m') :
    m.Gives me (attempt path) x m' := by
  refine Ends.within ?_ _
  cases hdir : path.parent? with
  | none => exact h
  | some q =>
    have hanswer : m.answer me (.makeDirs q) = (.ok (), m) := by
      simp only [answer, hmake q hdir]
      rfl
    exact Ends.ask rfl hanswer h

theorem gives_acquire (hname : IsValidName name) (hs : m.tree.Settled (lockPath dir name))
    {held : Option Descriptor}
    (h : m.Gives me (Attempt.tryRounds (lockPath dir name) Attempt.rounds) (.ok held) m') :
    m.Gives me (Handle.acquire dir name) (.ok (.ofAttempt name (lockPath dir name) held)) m' :=
  gives_acquire_of_attempt hname
    (gives_attempt (fun q hq => FileTree.makeDirs_of_isThere (hs q hq)) h)

/-! ## Releases -/

/-- The tree after the entry at a path was removed, if it could be. -/
def unlinked (t : FileTree) (p : Path) : FileTree :=
  match t.unlink p with
  | .ok t' => t'
  | .error _ => t

theorem gives_removeFile (m : Machine) (me : Pid) (p : Path) :
    m.Gives me (Handle.removeFile p) () (m.setTree (unlinked m.tree p)) := by
  unfold Handle.removeFile
  cases hunlink : m.tree.unlink p with
  | ok t =>
    have hanswer : m.answer me (.unlink p) = (.ok (), m.setTree t) := by
      simp only [answer, hunlink]
    have hafter : unlinked m.tree p = t := by simp only [unlinked, hunlink]
    rw [hafter]
    exact Ends.ask rfl hanswer (gives_pure _)
  | error e =>
    have hanswer : m.answer me (.unlink p) = (.error e, m) := by simp only [answer, hunlink]
    have hafter : m.setTree (unlinked m.tree p) = m := by simp only [unlinked, hunlink, setTree]
    rw [hafter]
    refine Ends.ask rfl hanswer ?_
    show m.Gives me (if e.kind = .notFound then pure () else Program.report _) () m
    split
    · exact gives_pure _
    · exact Ends.report (gives_pure _)

/-- **A release removes the entry at its path**, if it can, whatever file that names; then
    it closes its own file. -/
theorem gives_release {h : Handle} {d : Descriptor} {f : OpenFile} (hd : h.held = some d)
    (hf : m.opened.get? d = some f) :
    m.Gives me h.release h.released ((m.setTree (unlinked m.tree h.path)).close d) := by
  have hunlock : (m.setTree (unlinked m.tree h.path)).answer me (.unlock d) =
      (.ok (), (m.setTree (unlinked m.tree h.path)).dropLock d) := by
    have hopen : m.opened.contains d = true := by rw [Table.contains, hf, Option.isSome_some]
    simp only [answer, setTree, hopen, if_true]
  have hclose : ((m.setTree (unlinked m.tree h.path)).dropLock d).answer me (.close d) =
      ((), (m.setTree (unlinked m.tree h.path)).close d) := by
    simp only [answer, close, dropLock, Table.filter_filter_self]
  have hclosed : (m.setTree (unlinked m.tree h.path)).Gives me
      (Handle.closeFile h.path h.name d) () ((m.setTree (unlinked m.tree h.path)).close d) :=
    Ends.ask rfl hunlock (Ends.report (gives_call rfl hclose))
  simp only [Handle.release, hd]
  exact (gives_removeFile m me h.path).bind (hclosed.bind (gives_pure _))

/-! ## Old stamps -/

/-- The machine with other processes, and with another content of a file. -/
def revised (m : Machine) (i : Inode) (bytes : Bytes) (processes : Table Pid ProcessState) :
    Machine :=
  { m with tree := m.tree.setContent i (.file bytes), processes := processes }

/-- The handle of an attempt on a file with this content that nobody has locked. -/
def attemptOver (m : Machine) (dir : Path) (name : String) (bytes : Bytes) : Handle :=
  .ofAttempt name (lockPath dir name)
    (if (Utf8.decode? bytes).isSome then some m.nextDescriptor else none)

/-- What such an attempt leaves in the file. -/
def contentOver (me : Pid) (bytes : Bytes) : Bytes :=
  if (Utf8.decode? bytes).isSome then Stamp.text me else bytes

/-- **What an old content has to do with the outcome**: a lock file that nobody has
    locked is acquired and stamped whatever text it holds, and whatever processes there
    are; but one that holds no text is not acquired, and stays as it is. -/
theorem acquire_over_content (hw : m.WellFormed) (hname : IsValidName name)
    (hs : m.tree.Settled (lockPath dir name)) (hl : m.tree.Leads (lockPath dir name) i)
    (hfile : ∃ old, m.tree.file? i = some old) (hread : m.tree.may i .read = true)
    (hwrite : m.tree.may i .write = true) (hfree : m.locks.get? i = none) :
    ∀ (bytes : Bytes) (processes : Table Pid ProcessState), ∃ m',
      (m.revised i bytes processes).run me (Handle.acquire dir name) =
        (.returned (.ok (m.attemptOver dir name bytes)), m') ∧
      m'.tree.file? i = some (contentOver me bytes) := by
  intro bytes processes
  obtain ⟨old, hfile⟩ := hfile
  obtain ⟨mode, owned, hn⟩ := FileTree.file?_eq_some.1 hfile
  have hin : m.tree.Within (m.tree.setContent i (.file bytes)) := FileTree.rewrite_within hn
  have hn' := node?_rewrite bytes hn
  have hnode : (m.tree.node? i).isSome = true := by rw [hn, Option.isSome_some]
  have hw' : (m.revised i bytes processes).WellFormed :=
    ⟨hw.tree.rewrite, hw.openedKeys, hw.lockKeys, (hw.rewrite hn).opened, hw.locked⟩
  have hs' : (m.revised i bytes processes).tree.Settled (lockPath dir name) := hs.mono hin hw.tree
  have hl' : (m.tree.setContent i (.file bytes)).Leads (lockPath dir name) i := hl.mono hin hw.tree
  have hfile' : (m.tree.setContent i (.file bytes)).file? i = some bytes := FileTree.file?_rewrite hn
  have hopen : (m.revised i bytes processes).tree.openPath [.read, .write] (lockPath dir name) =
      .ok (m.tree.setContent i (.file bytes), i) :=
    FileTree.openPath_of_leads hl' (FileTree.isDirectory_of_file? hfile')
      ((hin.may hnode _).trans hread) ((hin.may hnode _).trans hwrite)
  cases htext : Utf8.decode? bytes with
  | some content =>
    obtain ⟨_, _, -, hrun⟩ := (gives_acquire hname hs'
      (gives_tryRounds_taken hopen hl' hn' hfree htext)).run
    have hafter : ((m.tree.setContent i (.file bytes)).setContent i (.file (Stamp.text me))).file? i
        = some (Stamp.text me) := FileTree.file?_rewrite hn'
    simp only [attemptOver, contentOver, htext, Option.isSome_some, if_true]
    exact ⟨_, hrun, hafter⟩
  | none =>
    have hbad : Utf8.decode? ((m.tree.setContent i (.file bytes)).bytesOf i) = none := by
      rw [FileTree.bytesOf_of_file? hfile', htext]
    obtain ⟨_, _, -, hrun⟩ := (gives_acquire hname hs'
      (gives_tryRounds_illegible hopen hw' hl' hfree hbad)).run
    simp only [attemptOver, contentOver, htext, Option.isSome_none]
    exact ⟨_, hrun, hfile'⟩

open Contest in
/-- A stale lock file is acquired if it is empty, but not if it holds the byte `FF`. -/
theorem acquire_over_two_contents : ∃ (m : Machine) (i : Inode), m.tree.Leads (lockPath root "a") i ∧
    m.locks.get? i = none ∧
    (∃ m', (m.revised i [] .empty).run 1 (Handle.acquire root "a") =
      (.returned (.ok (.ofAttempt "a" (lockPath root "a") (some 0))), m') ∧
      m'.tree.file? i = some (Stamp.text 1)) ∧
    ∃ m', (m.revised i [0xFF] .empty).run 1 (Handle.acquire root "a") =
      (.returned (.ok (.ofAttempt "a" (lockPath root "a") none)), m') ∧
      m'.tree.file? i = some [0xFF] := by
  have hw := bare_wellFormed 1
  have hsome : ((bare 1).tree.openPath [.read, .write] (lockPath root "a")).toOption.isSome = true := by
    decide +kernel
  obtain ⟨t, i, hopen⟩ : ∃ t i, (bare 1).tree.openPath [.read, .write] (lockPath root "a") =
      .ok (t, i) := by
    cases h : (bare 1).tree.openPath [.read, .write] (lockPath root "a") with
    | ok x => exact ⟨x.1, x.2, rfl⟩
    | error e =>
      rw [h] at hsome
      cases hsome
  rcases FileTree.openPath_cases hw.tree hopen with ⟨rfl, hl, -⟩ | ⟨-, -, hgrows, hl, hnode⟩
  · exact absurd hl (absent_bare 1 _ i .start)
  have hmay : ∀ a ∈ [Access.read, Access.write], t.may i a = true := by
    intro a ha
    simp only [FileTree.may, hnode]
    exact FileTree.fileMode_allows a ha
  have hover : ∀ bytes processes, ∃ m', (((bare 1).setTree t).revised i bytes processes).run 1
      (Handle.acquire root "a") =
        (.returned (.ok (((bare 1).setTree t).attemptOver root "a" bytes)), m') ∧
      m'.tree.file? i = some (contentOver 1 bytes) := acquire_over_content
    (hw.setTree hgrows.wellFormed hgrows.toWithin.keeps) (by decide)
    ((settled_bare 1).mono hgrows.toWithin hw.tree) hl
    ⟨[], FileTree.file?_eq_some.2 ⟨_, _, hnode⟩⟩ (hmay _ (by simp)) (hmay _ (by simp)) rfl
  exact ⟨(bare 1).setTree t, i, hl, rfl, hover [] .empty, hover [0xFF] .empty⟩

end Machine

end NamedMutex
