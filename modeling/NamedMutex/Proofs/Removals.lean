/-
  What a release removes.

  An attempt checks that its path still leads to the file that it has locked; a release
  does not.  It removes whatever entry there is at its path, and closes its own file.  If
  somebody has removed or replaced the lock file of a handle, and another handle has the
  lock of the file that lies there now, the release of the first removes the file of the
  second, and a third attempt acquires the mutex beside the second.

  * `Cleared` is what a release makes of a machine;
  * `gives_acquire_vacant`: an attempt acquires where there is no lock file;
  * `release_removes_by_path` is the main statement, `three_handles` a run of which it
    speaks.
-/
import NamedMutex.Proofs.LockStates

namespace NamedMutex

namespace FileTree

variable {t : FileTree} {dir : Path} {D i : Inode} {name : String}

theorem Home.last_step (hd : t.Home dir D) (hf : Fits dir name)
    (hl : t.Leads (lockPath dir name) i) :
    ∃ b e e', Walks t .node b D e [lockEntry name] (.found i e') := by
  obtain ⟨_, hwalk⟩ := hd.walk
  obtain ⟨-, e', hall⟩ := leads_iff.1 hl
  rw [origin_lockPath t hf.valid, steps_lockPath hf.valid] at hall
  obtain ⟨b, e, hlast⟩ := hwalk.trans_of_prefix rfl hall
  exact ⟨b, e, e', hlast⟩

/-- What the lock directory has under the name of a lock file. -/
theorem Home.exists_looksUp (hd : t.Home dir D) (hf : Fits dir name) :
    ∃ found, t.LooksUp D (lockEntry name) found := by
  obtain ⟨parent, entries, hentries⟩ := isDirectory_iff.1 hd.isDirectory
  exact ⟨_, hd.search, hf.isLookedUp, parent, entries, hentries, rfl⟩

/-- **A lock file is removed from its directory whatever it is**, and the directory is a
    lock directory still. -/
theorem Home.removal (hd : t.Home dir D) (hf : Fits dir name) (hw : t.WellFormed)
    (hl : t.Leads (lockPath dir name) i) (hi : t.isDirectory i = false) :
    t.unlink (lockPath dir name) = .ok (t.remove D (lockEntry name)) ∧
      (t.remove D (lockEntry name)).Home dir D ∧
      (t.remove D (lockEntry name)).LooksUp D (lockEntry name) none := by
  obtain ⟨b, e, e', hlast⟩ := hd.last_step hf hl
  obtain ⟨found, hlook⟩ := hd.exists_looksUp hf
  refine ⟨?_, hd.remove hw hlast hi, hlook.remove_self⟩
  -- the entry is that of a file, or of a symbolic link to one
  cases found with
  | none =>
    have hnone := hd.find_vacant hf hlook
    rw [hl] at hnone
    cases hnone
  | some j =>
    refine hd.unlink hf hlook ?_
    rcases hlast.of_looksUp hlook with ⟨-, hrest⟩ | ⟨_, target, -, hlink, -⟩
    · cases hrest
      exact hi
    · unfold link? at hlink
      split at hlink
      · rename_i hn
        simp only [FileTree.isDirectory, directory?, hn, Option.isSome_none]
      · cases hlink

end FileTree

namespace Machine

variable {m m' : Machine} {dir : Path} {name : String} {D i : Inode} {d : Descriptor} {f : OpenFile}
  {h : Handle} {me : Pid}

/-- **An attempt acquires where there is no lock file**, and leaves all other locks alone. -/
theorem gives_acquire_vacant (hw : m.WellFormed) (hd : m.tree.Home dir D) (hf : Fits dir name)
    (hl : m.tree.LooksUp D (lockEntry name) none) (me : Pid) : ∃ m' j,
      m.Gives me (Handle.acquire dir name)
        (.ok (.ofAttempt name (lockPath dir name) (some m.nextDescriptor))) m' ∧
      m'.tree.Leads (lockPath dir name) j ∧ m'.locks.get? j = some m.nextDescriptor ∧
      ∀ i d', m.locks.get? i = some d' → m'.locks.get? i = some d' := by
  obtain ⟨t, hopen, hopens⟩ := hd.opens hf hw.tree hl
  have htext : Utf8.decode? [] = some "" := rfl
  have hgives : m.Gives me (Handle.acquire dir name) _ _ :=
    gives_acquire_opens hw hd hf hopen hopens htext hw.locks_next
  obtain ⟨_, _, hn⟩ := FileTree.file?_eq_some.1 hopens.lies.file
  have hleads : t.Leads (lockPath dir name) m.tree.next :=
    hopens.lies.leads (hd.mono hopens.grows.toWithin hw.tree) hf
  refine ⟨_, m.tree.next, hgives, ?_, Table.get?_insert_self _ _ _, fun i d' hlock => ?_⟩
  · exact hleads.mono (FileTree.rewrite_within hn) hopens.grows.wellFormed
  · have hi : i ≠ m.tree.next := by
      rintro rfl
      rw [hw.locks_next] at hlock
      cases hlock
    simp only [Machine.taken, having, Table.get?_insert, if_neg hi, hlock]

/-- What the release of a handle makes of a machine: the entry at its path is removed, if
    it can be, and its file is closed. -/
structure Cleared (m m' : Machine) (path : Path) (d : Descriptor) : Prop where
  removed : ∀ t, m.tree.unlink path = .ok t → m'.tree = t ∧ ∀ i, ¬ t.Leads path i
  kept : ∀ e, m.tree.unlink path = .error e → m'.tree = m.tree
  locks : ∀ i d', m'.locks.get? i = some d' ↔ m.locks.get? i = some d' ∧ d' ≠ d
  opened : ∀ d', m'.opened.get? d' = if d' = d then none else m.opened.get? d'

theorem cleared (hw : m.WellFormed) (path : Path) (d : Descriptor) :
    m.Cleared ((m.setTree (unlinked m.tree path)).close d) path d where
  removed t ht := by
    have htree : unlinked m.tree path = t := by simp only [unlinked, ht]
    exact ⟨htree, FileTree.unlink_leads ht hw.tree⟩
  kept e he := by
    have htree : unlinked m.tree path = m.tree := by simp only [unlinked, he]
    exact htree
  locks i d' := by
    simp only [close, dropLock, setTree, Table.get?_filter hw.lockKeys, decide_eq_true_eq]
  opened d' := opened_close

/-- **A release removes by path.**  Whatever has become of the files since a handle
    acquired: its release removes the entry that is at its path now, if that can be removed
    at all, whichever file it names and whoever has locked that; and it gives up the lock of
    its own file and no other.

    So if a lock file has been put in the place of that of the handle, and another handle
    has locked it, then after the release every process acquires the mutex at once, while
    that other handle has its lock still. -/
theorem release_removes_by_path (hw : m.WellFormed) (hd : h.held = some d)
    (hopened : m.opened.get? d = some f) : ∃ m', m.Gives me h.release h.released m' ∧
      m.Cleared m' h.path d ∧
      ∀ dir name D i d', h.path = lockPath dir name → Fits dir name → m.tree.Home dir D →
        m.tree.Leads h.path i → m.tree.isDirectory i = false → m.locks.get? i = some d' →
        d' ≠ d → ∀ you, ∃ m'' j,
          m'.Gives you (Handle.acquire dir name)
            (.ok (.ofAttempt name h.path (some m'.nextDescriptor))) m'' ∧
          m''.tree.Leads h.path j ∧ m''.locks.get? j = some m'.nextDescriptor ∧
          m''.locks.get? i = some d' := by
  obtain ⟨m', hgives, hcleared⟩ : ∃ m', m.Gives me h.release h.released m' ∧
      m.Cleared m' h.path d := ⟨_, gives_release hd hopened, cleared hw h.path d⟩
  refine ⟨m', hgives, hcleared, ?_⟩
  intro dir name D i d' hpath hf hhome hleads hi hlock hne you
  rw [hpath] at hleads
  obtain ⟨hunlink, hhome', hvacant⟩ := hhome.removal hf hw.tree hleads hi
  have hw' := hgives.wellFormed hw
  have htree := (hcleared.removed _ (hpath ▸ hunlink)).1
  obtain ⟨m'', j, hacquire, hleads', hlock', hothers⟩ :=
    gives_acquire_vacant hw' (htree ▸ hhome') hf (htree ▸ hvacant) you
  rw [hpath]
  exact ⟨m'', j, hacquire, hleads', hlock', hothers i d' ((hcleared.locks i d').2 ⟨hlock, hne⟩)⟩

/-- A machine on which the file of a first handle was removed from outside, and a second
    handle has acquired then. -/
def supplanted : Machine :=
  let first := ((bare 1).run 1 (Handle.acquire Contest.root "a")).2
  ((first.setTree (first.tree.remove 0 (lockEntry "a"))).run 1 (Handle.acquire Contest.root "a")).2

theorem supplanted_wellFormed : supplanted.WellFormed := by
  have hfirst := run_wellFormed (bare_wellFormed 1) 1 (Handle.acquire Contest.root "a")
  exact run_wellFormed (hfirst.setTree hfirst.tree.remove (FileTree.keeps_remove _ _)) 1 _

/-- The first of two handles is released: a third acquires beside the second. -/
theorem three_handles : ∃ m' m'' j,
    supplanted.locks.get? 3 = some 1 ∧ supplanted.tree.Leads (lockPath Contest.root "a") 3 ∧
    supplanted.Gives 1 (Handle.ofAttempt "a" (lockPath Contest.root "a") (some 0)).release
      (Handle.ofAttempt "a" (lockPath Contest.root "a") (some 0)).released m' ∧
    m'.Gives 1 (Handle.acquire Contest.root "a")
      (.ok (.ofAttempt "a" (lockPath Contest.root "a") (some m'.nextDescriptor))) m'' ∧
    m''.locks.get? j = some m'.nextDescriptor ∧ m''.locks.get? 3 = some 1 := by
  have hlock : supplanted.locks.get? 3 = some 1 := by decide +kernel
  have hfind : (supplanted.tree.find .node (lockPath Contest.root "a")).toOption = some 3 := by
    decide +kernel
  have hleads := FileTree.leads_of_toOption hfind
  have hopened : supplanted.opened.get? 0 = some ⟨2, 2, 1⟩ := by decide +kernel
  have hfits : Fits Contest.root "a" := ⟨by decide, by decide, by decide⟩
  have hhome : supplanted.tree.Home Contest.root 0 := by
    refine ⟨⟨none, ?_⟩, by decide +kernel, by decide +kernel, by decide +kernel⟩
    exact FileTree.walk_eq_ok_iff.1 (by rfl)
  have hheld : (Handle.ofAttempt "a" (lockPath Contest.root "a") (some 0)).held = some 0 := rfl
  obtain ⟨m', hrelease, -, hthird⟩ := release_removes_by_path supplanted_wellFormed hheld hopened
  obtain ⟨m'', j, hacquire, -, hlock', hlock''⟩ := hthird Contest.root "a" 0 3 1 rfl hfits hhome
    hleads (by decide +kernel) hlock (by decide) 1
  exact ⟨m', m'', j, hlock, hleads, hrelease, hacquire, hlock', hlock''⟩

end Machine

end NamedMutex
