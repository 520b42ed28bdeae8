/-
  The states of lock files.

  A lock file is free, held or left behind (`LockState`).  On a machine with a directory
  of them (`Orderly`) every call of the library changes the state of one lock file at most
  and spares the others (`Spares`).

  * `Orderly.acquire` and `Orderly.acquire_held`: an attempt acquires a lock file unless it
    is held;
  * `Orderly.release` frees a lock file, `Shows.kill` leaves those of a process behind;
  * `Orderly.ownerAt`: a look finds whose stamp a lock file carries.
-/
import NamedMutex.Proofs.LockDirs

namespace NamedMutex

/-- How a lock file stands. -/
inductive LockState where
  /-- There is none. -/
  | free
  /-- It is locked through a file that a process has open. -/
  | held (file : Descriptor) (pid : Pid)
  /-- It carries the stamp of a process, but nobody has locked it. -/
  | left (pid : Pid)

namespace LockState

/-- How a lock file stands after the death of a process. -/
def afterDeath (pid : Pid) : LockState → LockState
  | held d q => if q = pid then left q else held d q
  | st => st

/-- The process whose stamp a lock file carries. -/
def stamp? : LockState → Option Pid
  | free => none
  | held _ pid | left pid => some pid

theorem stamp?_eq_none {st : LockState} : st.stamp? = none ↔ st = free := by
  cases st <;> simp [stamp?]

end LockState

namespace Machine

/-- The lock file under an entry of a directory stands so. -/
def Shows (m : Machine) (D : Inode) (e : Bytes) : LockState → Prop
  | .free => m.tree.LooksUp D e none
  | .held d pid => pid.IsProper ∧ ∃ i f, m.tree.Lies D e i (Stamp.text pid) ∧
      m.locks.get? i = some d ∧ m.opened.get? d = some f ∧ f.process = pid
  | .left pid => pid.IsProper ∧ ∃ i, m.tree.Lies D e i (Stamp.text pid) ∧ m.locks.get? i = none

/-- A machine with a directory of lock files. -/
structure Orderly (m : Machine) (dir : Path) (D : Inode) : Prop where
  wellFormed : m.WellFormed
  home : m.tree.Home dir D
  apart : m.tree.Apart D

/-- What happens to one lock file leaves the others alone, and the processes. -/
structure Spares (m m' : Machine) (D : Inode) (e : Bytes) : Prop where
  others : ∀ e' ≠ e, ∀ st, m.Shows D e' st → m'.Shows D e' st
  processes : m'.processes = m.processes
  registries : m'.registries = m.registries

variable {m m' : Machine} {dir : Path} {D i : Inode} {e : Bytes} {name : String} {me pid : Pid}
  {d : Descriptor} {st : LockState} {t : FileTree} {bytes : Bytes}

theorem Shows.congr (h : m.Shows D e st) (htree : m'.tree = m.tree) (hopened : m'.opened = m.opened)
    (hlocks : m'.locks = m.locks) : m'.Shows D e st := by
  cases st <;> simpa only [Shows, htree, hopened, hlocks] using h

theorem Orderly.congr (ho : m.Orderly dir D) (htree : m'.tree = m.tree)
    (hopened : m'.opened = m.opened) (hlocks : m'.locks = m.locks)
    (hnext : m.nextDescriptor ≤ m'.nextDescriptor) : m'.Orderly dir D := by
  obtain ⟨tree, openedKeys, lockKeys, opened, locked⟩ := ho.wellFormed
  refine ⟨⟨htree ▸ tree, hopened ▸ openedKeys, hlocks ▸ lockKeys, fun h => ?_, fun h => ?_⟩,
    htree ▸ ho.home, htree ▸ ho.apart⟩
  · rw [hopened] at h
    rw [htree]
    exact ⟨Nat.lt_of_lt_of_le (opened h).1 hnext, (opened h).2⟩
  · rw [hlocks] at h
    rw [hopened]
    exact locked h

theorem Shows.lies (h : m.Shows D e st) (hst : st.stamp? = some pid) :
    pid.IsProper ∧ ∃ i, m.tree.Lies D e i (Stamp.text pid) := by
  cases st with
  | free => cases hst
  | held d q =>
    obtain ⟨hq, i, _, hl, -⟩ := h
    cases hst
    exact ⟨hq, i, hl⟩
  | left q =>
    obtain ⟨hq, i, hl, -⟩ := h
    cases hst
    exact ⟨hq, i, hl⟩

/-! ## Attempts -/

/-- **A file that is opened, locked and stamped.** -/
theorem Orderly.taken (ho : m.Orderly dir D) (hopens : m.tree.Opens D e t i bytes)
    (hw' : (m.taken me i t).WellFormed) (hfree : m.locks.get? i = none) (hme : me.IsProper) :
    (m.taken me i t).Orderly dir D ∧ (m.taken me i t).Shows D e (.held m.nextDescriptor me) ∧
      m.Spares (m.taken me i t) D e := by
  have hw := ho.wellFormed
  obtain ⟨_, _, hn⟩ := FileTree.file?_eq_some.1 hopens.lies.file
  have hin : t.Within (m.taken me i t).tree := FileTree.rewrite_within hn
  have hback : (m.taken me i t).tree.Within t := FileTree.within_rewrite hn
  have hlies : (m.taken me i t).tree.Lies D e i (Stamp.text me) :=
    hopens.lies.within hopens.grows.wellFormed hin (FileTree.file?_rewrite hn)
  refine ⟨⟨hw', (ho.home.mono hopens.grows.toWithin hw.tree).mono hin hopens.grows.wellFormed,
    (hopens.apart ho.apart).of_within hback⟩,
    ⟨hme, i, _, hlies, Table.get?_insert_self _ _ _, Table.get?_insert_self _ _ _, rfl⟩, ?_, rfl, rfl⟩
  -- the other lock files are other files
  intro e' hne st h
  have hlies' : ∀ {j bytes}, m.tree.Lies D e' j bytes →
      j ≠ i ∧ (m.taken me i t).tree.Lies D e' j bytes := by
    intro j bytes hl
    have hj : j ≠ i := by
      rintro rfl
      exact hne (hopens.apart ho.apart _ _ _ (hopens.grows.toWithin.looksUp hl.looksUp)
        hopens.lies.looksUp)
    have hfile : t.file? j = some bytes :=
      (hopens.grows.files j (FileTree.isSome_node?_of_file? hl.file)).trans hl.file
    exact ⟨hj, (hl.within hw.tree hopens.grows.toWithin hfile).within hopens.grows.wellFormed hin
      ((FileTree.file?_setContent_ne hj).trans hfile)⟩
  have hlock : ∀ {j}, j ≠ i → (m.taken me i t).locks.get? j = m.locks.get? j := fun hj => by
    simp only [Machine.taken, having, Table.get?_insert, if_neg hj]
  cases st with
  | free => exact (hopens.vacant e' hne h).rewrite hopens.lies.file
  | held d pid =>
    obtain ⟨hpid, j, f, hl, hd, hf, hp⟩ := h
    obtain ⟨hj, hl'⟩ := hlies' hl
    have hdn : d ≠ m.nextDescriptor := Nat.ne_of_lt (hw.opened hf).1
    refine ⟨hpid, j, f, hl', (hlock hj).trans hd, ?_, hp⟩
    simpa only [Machine.taken, having, Table.get?_insert, if_neg hdn] using hf
  | left pid =>
    obtain ⟨hpid, j, hl, hd⟩ := h
    obtain ⟨hj, hl'⟩ := hlies' hl
    exact ⟨hpid, j, hl', (hlock hj).trans hd⟩

/-- An attempt on a lock file that holds text, and that nobody has locked. -/
theorem gives_acquire_opens (hw : m.WellFormed) (hhome : m.tree.Home dir D) (hf : Fits dir name)
    {content : String} (hopen : m.tree.openPath [.read, .write] (lockPath dir name) = .ok (t, i))
    (hopens : m.tree.Opens D (lockEntry name) t i bytes) (htext : Utf8.decode? bytes = some content)
    (hfree : m.locks.get? i = none) : m.Gives me (Handle.acquire dir name)
      (.ok (.ofAttempt name (lockPath dir name) (some m.nextDescriptor))) (m.taken me i t) := by
  obtain ⟨_, _, hn⟩ := FileTree.file?_eq_some.1 hopens.lies.file
  have hhome' := hhome.mono hopens.grows.toWithin hw.tree
  exact gives_acquire hf.valid (hhome.settled hf)
    (gives_tryRounds_taken hopen (hopens.lies.leads hhome' hf) hn hfree htext)

theorem WellFormed.lock_eq_none (hw : m.WellFormed) (hi : m.tree.next ≤ i) :
    m.locks.get? i = none := by
  refine Option.eq_none_iff_forall_ne_some.2 fun d hlock => ?_
  obtain ⟨n, hn⟩ := Option.isSome_iff_exists.1 (hw.lockNode hlock)
  exact Nat.not_lt.2 hi (hw.tree.below i n hn)

theorem WellFormed.locks_next (hw : m.WellFormed) : m.locks.get? m.tree.next = none :=
  hw.lock_eq_none (Nat.le_refl _)

/-- **An attempt on a lock file that nobody has locked** acquires it. -/
theorem Orderly.acquire (ho : m.Orderly dir D) (hf : Fits dir name)
    (hs : m.Shows D (lockEntry name) st) (hst : ∀ d pid, st ≠ .held d pid) (hme : me.IsProper) :
    ∃ m', m.Gives me (Handle.acquire dir name)
        (.ok (.ofAttempt name (lockPath dir name) (some m.nextDescriptor))) m' ∧
      m'.Orderly dir D ∧ m'.Shows D (lockEntry name) (.held m.nextDescriptor me) ∧
      m.Spares m' D (lockEntry name) := by
  have hw := ho.wellFormed
  obtain ⟨t, i, bytes, content, hopen, hopens, htext, hfree⟩ : ∃ t i bytes content,
      m.tree.openPath [.read, .write] (lockPath dir name) = .ok (t, i) ∧
      m.tree.Opens D (lockEntry name) t i bytes ∧ Utf8.decode? bytes = some content ∧
      m.locks.get? i = none := by
    cases st with
    | free =>
      obtain ⟨t, hopen, hopens⟩ := ho.home.opens hf hw.tree hs
      exact ⟨t, _, [], "", hopen, hopens, rfl, hw.locks_next⟩
    | held d pid => exact absurd rfl (hst d pid)
    | left pid =>
      obtain ⟨hpid, i, hl, hfree⟩ := hs
      obtain ⟨hopen, hopens⟩ := hl.opens ho.home hf hw.tree
      obtain ⟨content, htext, -⟩ := Stamp.names_text hpid.1 (Stamp.lt_limit hpid.2)
      exact ⟨_, i, _, content, hopen, hopens, htext, hfree⟩
  have hgives : m.Gives me (Handle.acquire dir name) _ _ :=
    gives_acquire_opens hw ho.home hf hopen hopens htext hfree
  exact ⟨_, hgives, ho.taken hopens (hgives.wellFormed hw) hfree hme⟩

/-- The machine after some files were opened in vain. -/
def skip (m : Machine) (n : Nat) : Machine := { m with nextDescriptor := m.nextDescriptor + n }

theorem WellFormed.skip (hw : m.WellFormed) (n : Nat) : (m.skip n).WellFormed where
  tree := hw.tree
  openedKeys := hw.openedKeys
  lockKeys := hw.lockKeys
  opened h := ⟨Nat.lt_add_right n (hw.opened h).1, (hw.opened h).2⟩
  locked h := hw.locked h

theorem Orderly.skip (ho : m.Orderly dir D) (n : Nat) : (m.skip n).Orderly dir D :=
  ho.congr rfl rfl rfl (Nat.le_add_right _ n)

/-- **An attempt on a lock file that somebody has locked** does nothing. -/
theorem Orderly.acquire_held (ho : m.Orderly dir D) (hf : Fits dir name)
    (hs : m.Shows D (lockEntry name) (.held d pid)) (me : Pid) :
    m.Gives me (Handle.acquire dir name) (.ok (.ofAttempt name (lockPath dir name) none))
      (m.skip 1) := by
  obtain ⟨-, i, f, hl, hd, -⟩ := hs
  obtain ⟨hopen, -⟩ := hl.opens ho.home hf ho.wellFormed.tree
  exact gives_acquire hf.valid (ho.home.settled hf)
    (gives_tryRounds_refused hopen ho.wellFormed hd)

/-! ## Releases, deaths and looks -/

/-- **A release frees the lock file.** -/
theorem Orderly.release (ho : m.Orderly dir D) (hf : Fits dir name)
    (hs : m.Shows D (lockEntry name) (.held d pid)) {h : Handle} (hd : h.held = some d)
    (hpath : h.path = lockPath dir name) (me : Pid) : ∃ m', m.Gives me h.release h.released m' ∧
      m'.Orderly dir D ∧ m'.Shows D (lockEntry name) .free ∧ m.Spares m' D (lockEntry name) := by
  have hw := ho.wellFormed
  obtain ⟨-, i, f, hl, hlock, hopened, -⟩ := hs
  have hi := FileTree.isDirectory_of_file? hl.file
  have hlink := FileTree.link?_of_file? hl.file
  have hunlinked : unlinked m.tree h.path = m.tree.remove D (lockEntry name) := by
    simp only [unlinked, hpath, ho.home.unlink hf hl.looksUp hi]
  have hgives : m.Gives me h.release h.released
      ((m.setTree (m.tree.remove D (lockEntry name))).close d) :=
    hunlinked ▸ gives_release hd hopened
  have hw' := hgives.wellFormed hw
  have hwt : (m.setTree (m.tree.remove D (lockEntry name))).WellFormed :=
    hw.setTree hw.tree.remove (FileTree.keeps_remove _ _)
  refine ⟨_, hgives, ⟨hw', ho.home.remove hw.tree (hl.looksUp.walks hlink) hi,
    ho.apart.of_within FileTree.remove_within⟩, hl.looksUp.remove_self, ?_, rfl, rfl⟩
  intro e' hne st h
  cases st with
  | free => exact h.remove fun h => hne h.2
  | held d' pid' =>
    obtain ⟨hpid, j, f', hl', hlock', hopened', hp⟩ := h
    have hdd : d' ≠ d := by
      -- one file is not locked under two entries
      rintro rfl
      obtain ⟨_, hf₁, rfl⟩ := hw.locked hlock
      obtain ⟨_, hf₂, rfl⟩ := hw.locked hlock'
      rw [hf₁] at hf₂
      cases hf₂
      exact hne (ho.apart _ _ _ hl'.looksUp hl.looksUp)
    refine ⟨hpid, j, f', hl'.remove hne, (locks_close hwt).2 ⟨hlock', hdd⟩, ?_, hp⟩
    rw [opened_close, if_neg hdd]
    exact hopened'
  | left pid' =>
    obtain ⟨hpid, j, hl', hlock'⟩ := h
    refine ⟨hpid, j, hl'.remove hne, Option.eq_none_iff_forall_ne_some.2 fun d' hafter => ?_⟩
    have hbefore : m.locks.get? j = some d' := ((locks_close hwt).1 hafter).1
    rw [hlock'] at hbefore
    cases hbefore

theorem Orderly.kill (ho : m.Orderly dir D) (pid : Pid) : (m.kill pid).Orderly dir D := by
  have htree := tree_kill ho.wellFormed pid
  exact ⟨kill_wellFormed ho.wellFormed pid, htree ▸ ho.home, htree ▸ ho.apart⟩

/-- **A death leaves the lock files of the process behind**, and no others. -/
theorem Shows.kill (h : m.Shows D e st) (hw : m.WellFormed) (pid : Pid) :
    (m.kill pid).Shows D e (st.afterDeath pid) := by
  have htree := tree_kill hw pid
  cases st with
  | free =>
    show (m.kill pid).tree.LooksUp D e none
    rwa [htree]
  | held d q =>
    obtain ⟨hq, i, f, hl, hlock, hopened, rfl⟩ := h
    by_cases hp : f.process = pid
    · simp only [LockState.afterDeath, if_pos hp]
      refine ⟨hq, i, htree ▸ hl, Option.eq_none_iff_forall_ne_some.2 fun d' hafter => ?_⟩
      obtain ⟨hbefore, hothers⟩ := (locks_kill hw).1 hafter
      rw [hlock] at hbefore
      cases hbefore
      exact hothers f hopened hp
    · simp only [LockState.afterDeath, if_neg hp]
      refine ⟨hq, i, f, htree ▸ hl, (locks_kill hw).2 ⟨hlock, fun f' hf' => ?_⟩,
        (opened_kill hw).2 ⟨hopened, hp⟩, rfl⟩
      rw [hopened] at hf'
      cases hf'
      exact hp
  | left q =>
    obtain ⟨hq, i, hl, hlock⟩ := h
    refine ⟨hq, i, htree ▸ hl, Option.eq_none_iff_forall_ne_some.2 fun d' hafter => ?_⟩
    have hbefore := ((locks_kill hw).1 hafter).1
    rw [hlock] at hbefore
    cases hbefore

/-- **A look at a lock file finds whose stamp it carries.** -/
theorem Orderly.ownerAt (ho : m.Orderly dir D) (hf : Fits dir name)
    (hs : m.Shows D (lockEntry name) st) : m.ownerAt (lockPath dir name) =
      .ok (st.stamp?.map fun pid => ⟨pid, m.processes.contains pid⟩) := by
  cases hst : st.stamp? with
  | none =>
    obtain rfl := LockState.stamp?_eq_none.1 hst
    have hread : m.tree.readPath (lockPath dir name) = .error (.os .noEntry) := by
      simp only [FileTree.readPath, ho.home.find_vacant hf hs]
    have hkind : (IoError.os Errno.noEntry).kind = .notFound := by decide
    simp only [Machine.ownerAt, hread, readText, hkind, if_true]
    rfl
  | some pid =>
    obtain ⟨hpid, i, hl⟩ := hs.lies hst
    have hread : m.tree.readPath (lockPath dir name) = .ok (Stamp.text pid) := by
      rw [FileTree.readPath_of_leads (hl.leads ho.home hf) hl.read
        (FileTree.isDirectory_of_file? hl.file), FileTree.bytesOf_of_file? hl.file]
    rw [ownerAt_of_names hread (Stamp.names_text hpid.1 (Stamp.lt_limit hpid.2)),
      sees_eq_contains hpid]
    rfl

/-- A lock file is there unless it is free. -/
theorem Orderly.leads_iff (ho : m.Orderly dir D) (hf : Fits dir name)
    (hs : m.Shows D (lockEntry name) st) :
    (∃ i, m.tree.Leads (lockPath dir name) i) ↔ st ≠ .free := by
  constructor
  · rintro ⟨i, hl⟩ rfl
    rw [FileTree.Leads, ho.home.find_vacant hf hs] at hl
    cases hl
  · intro hst
    obtain ⟨pid, hpid⟩ := Option.ne_none_iff_exists'.1 (mt LockState.stamp?_eq_none.1 hst)
    obtain ⟨-, i, hl⟩ := hs.lies hpid
    exact ⟨i, hl.leads ho.home hf⟩

end Machine

end NamedMutex
