/-
  What the operations on files do to a tree and to the ways through it.

  * `makeDirs_builds`: directories are made one after the other, each at a front of the
    path; so making them only adds to a tree (`makeDirs_grows`), and it does nothing where
    the directory is there (`makeDirs_of_isThere`);
  * `openPath_cases`: a file is opened where the path leads, or made where it
    leads nowhere;
  * `unlink_leads`: after a removal the path leads nowhere, and
    `unlink_leadsToDirectory`: every path to a directory still leads there;
  * `Keeps` is what all of them leave of the nodes.
-/
import NamedMutex.Proofs.Growth

namespace NamedMutex

namespace FileTree

variable {t t' : FileTree}

/-- The nodes of a tree are there in another one, of the same kind and with the
    same rights. -/
def Keeps (t t' : FileTree) : Prop :=
  ∀ i, (t.node? i).isSome = true → (t'.node? i).isSome = true ∧
    t'.isDirectory i = t.isDirectory i ∧ ∀ a, t'.may i a = t.may i a

theorem Keeps.refl (t : FileTree) : t.Keeps t := fun _ hi => ⟨hi, rfl, fun _ => rfl⟩

theorem Within.keeps (h : t.Within t') : t.Keeps t' :=
  fun _ hi => ⟨h.node hi, h.isDirectory hi, h.may hi⟩

theorem node?_remove (dir : Inode) (name : Bytes) (i : Inode) :
    ((t.remove dir name).node? i).isSome = (t.node? i).isSome := by
  cases hd : t.directory? dir with
  | none => simp only [remove, setEntries, hd]
  | some d =>
    obtain ⟨parent, entries⟩ := d
    rw [remove, setEntries_eq hd, node?_setContent]

theorem keeps_remove (dir : Inode) (name : Bytes) : t.Keeps (t.remove dir name) := by
  intro i hi
  have hi' : ((t.remove dir name).node? i).isSome = true := by rwa [node?_remove]
  exact ⟨hi', (remove_within.isDirectory hi').symm, fun a => (remove_within.may hi' a).symm⟩

theorem may_node {i : Inode} {a : Access} (h : t.may i a = true) : (t.node? i).isSome = true := by
  unfold may at h
  split at h
  · rename_i hn
    simp [hn]
  · cases h

theorem isDirectory_node {i : Inode} (h : t.isDirectory i = true) :
    (t.node? i).isSome = true := by
  obtain ⟨_, _, hd⟩ := isDirectory_iff.1 h
  obtain ⟨_, _, hn⟩ := directory?_eq_some.1 hd
  simp [hn]

theorem leadsToDirectory_mono (h : t.Within t') (hw : t.WellFormed) {p : Path}
    (hp : t.leadsToDirectory p = true) : t'.leadsToDirectory p = true := by
  obtain ⟨i, hl, hi⟩ := leadsToDirectory_iff.1 hp
  exact leadsToDirectory_iff.2 ⟨i, hl.mono h hw, h.isDirectory_of hi⟩

/-! ## Making directories -/

theorem freeName_eq_ok {p : Path} {dir : Inode} {name : Bytes} (h : t.freeName p = .ok (dir, name)) :
    refusal? p = none ∧
      Walks t .entry linkLimit (t.origin t.cwd p) none (bareSteps p) (.vacant dir name) := by
  unfold freeName at h
  split at h
  · cases h
  · cases h
  · rename_i hr
    split at h <;> cases h
    exact resolveBare_eq_ok_iff.1 hr

/-- A directory is made where the path leads to a free name. -/
theorem makeDir_cases {p : Path} (h : t.makeDir p = .ok t') :
    ∃ dir name, refusal? p = none ∧
      Walks t .entry linkLimit (t.origin t.cwd p) none (bareSteps p) (.vacant dir name) ∧
      t' = (t.create dir name (.directory dir .empty) dirMode).1 := by
  unfold makeDir at h
  split at h
  · cases h
  · rename_i dir name hfree
    cases h
    obtain ⟨hr, hwalk⟩ := freeName_eq_ok hfree
    exact ⟨dir, name, hr, hwalk, rfl⟩

theorem listsNothing_empty (dir : Inode) : ListsNothing (.directory dir .empty) := by
  intro parent entries name i h
  cases h
  simp

theorem makeDir_grows (hw : t.WellFormed) {p : Path} (h : t.makeDir p = .ok t') : t.Grows t' := by
  obtain ⟨dir, name, -, hwalk, rfl⟩ := makeDir_cases h
  exact create_grows hw (hwalk.vacant_looksUp rfl) (listsNothing_empty dir)

theorem makeDir_made (hw : t.WellFormed) {p : Path} (h : t.makeDir p = .ok t') :
    t'.Leads p t.next ∧ t'.isDirectory t.next = true := by
  have hgrows := makeDir_grows hw h
  obtain ⟨dir, name, hr, hwalk, rfl⟩ := makeDir_cases h
  have hl := hwalk.vacant_looksUp rfl
  have hnode : ((t.create dir name (.directory dir .empty) dirMode).1).node? t.next =
      some ⟨.directory dir .empty, dirMode, true⟩ := create_node hw hl
  have hdir : ((t.create dir name (.directory dir .empty) dirMode).1).isDirectory t.next = true := by
    simp [isDirectory, directory?, hnode]
  have hlink : ((t.create dir name (.directory dir .empty) dirMode).1).link? t.next = none := by
    simp [link?, hnode]
  have hfound := hwalk.create hgrows.toWithin hw rfl (create_looksUp hw hl) hlink
  -- a slash behind the path changes nothing, as it leads to a directory
  obtain ⟨tail, hsteps, htail⟩ := steps_tail p
  refine ⟨leads_iff.2 ⟨hr, ?_⟩, hdir⟩
  rw [hgrows.cwd, hgrows.origin, hsteps]
  rcases htail with rfl | rfl
  · exact ⟨_, (List.append_nil (bareSteps p)).symm ▸ hfound⟩
  · exact hfound.append_slash rfl hdir

theorem makeDir_leads (hw : t.WellFormed) {p : Path} (h : t.makeDir p = .ok t') :
    t'.leadsToDirectory p = true :=
  leadsToDirectory_iff.2 ⟨t.next, makeDir_made hw h⟩

/-- Directories are made at some of the paths in `P`, one after the other. -/
inductive Builds (P : Path → Prop) : FileTree → FileTree → Prop
  | done {t : FileTree} : Builds P t t
  | make {t t' t'' : FileTree} {p : Path} :
      P p → t.makeDir p = .ok t' → Builds P t' t'' → Builds P t t''

section Builds
variable {P : Path → Prop} {p : Path}

theorem Builds.trans {t'' : FileTree} (h : t.Builds P t') (h' : t'.Builds P t'') :
    t.Builds P t'' := by
  induction h with
  | done => exact h'
  | make hp hmake _ ih => exact .make hp hmake (ih h')

theorem Builds.grows (h : t.Builds P t') (hw : t.WellFormed) : t.Grows t' := by
  induction h with
  | done => exact .refl hw
  | make _ hmake _ ih =>
    have hfirst := makeDir_grows hw hmake
    exact hfirst.trans (ih hfirst.wellFormed)

theorem ensureDir_builds (hp : P p) (t : FileTree) : t.Builds P (t.ensureDir p).1 := by
  unfold ensureDir
  split
  · rename_i hmake
    exact .make hp hmake .done
  · split <;> exact .done

theorem ensureDirBelow_builds {above : FileTree → PartialChange}
    (ha : ∀ t : FileTree, t.Builds P (above t).1) (hp : P p) (t : FileTree) :
    t.Builds P (t.ensureDirBelow above p).1 := by
  have habove := ha t
  unfold ensureDirBelow
  split
  · rename_i hmake
    exact .make hp hmake .done
  · split
    · split
      · rename_i heq
        rwa [heq] at habove
      · rename_i heq
        rw [heq] at habove
        exact habove.trans (ensureDir_builds hp _)
    · split <;> exact .done

end Builds

/-- A path names a directory on the way to another one, or that one itself. -/
def OnTheWay (dir p : Path) : Prop := p = dir ∨ ∃ n, p = dir.front n

/-- **However far the making of directories comes**, it makes directories on the way. -/
theorem makeDirsUpTo_builds (dir : Path) :
    ∀ (n : Nat) (t : FileTree), t.Builds (OnTheWay dir) (makeDirsUpTo dir n t).1
  | 0, _ => .done
  | n + 1, t => ensureDirBelow_builds (makeDirsUpTo_builds dir n) (Or.inr ⟨n + 1, rfl⟩) t

theorem makeDirs_builds (t : FileTree) (dir : Path) :
    t.Builds (OnTheWay dir) (t.makeDirs dir).1 := by
  unfold makeDirs
  split
  · exact .done
  · exact ensureDirBelow_builds (makeDirsUpTo_builds dir _) (Or.inl rfl) t

/-- **Making directories only adds to a tree.** -/
theorem makeDirs_grows (hw : t.WellFormed) (p : Path) : t.Grows (t.makeDirs p).1 :=
  (makeDirs_builds t p).grows hw

theorem ensureDir_leads (hw : t.WellFormed) {p : Path} (h : (t.ensureDir p).2 = .ok ()) :
    (t.ensureDir p).1.leadsToDirectory p = true := by
  unfold ensureDir at h ⊢
  split
  · rename_i hmake
    exact makeDir_leads hw hmake
  · rename_i hmake
    simp only [hmake] at h
    split at h
    · rename_i hthere
      simpa only [if_pos hthere] using hthere
    · cases h

theorem ensureDirBelow_leads {P : Path → Prop} {above : FileTree → PartialChange}
    (ha : ∀ t : FileTree, t.Builds P (above t).1) (hw : t.WellFormed) {p : Path}
    (h : (t.ensureDirBelow above p).2 = .ok ()) :
    (t.ensureDirBelow above p).1.leadsToDirectory p = true := by
  unfold ensureDirBelow at h ⊢
  split
  · rename_i hmake
    exact makeDir_leads hw hmake
  · rename_i e hmake
    simp only [hmake] at h
    have hgrows := (ha t).grows hw
    by_cases hkind : e.kind = .notFound
    · simp only [if_pos hkind] at h ⊢
      split
      · rename_i heq
        simp only [heq] at h
        cases h
      · rename_i heq
        simp only [heq] at h hgrows
        exact ensureDir_leads hgrows.wellFormed h
    · simp only [if_neg hkind] at h ⊢
      split at h
      · rename_i hthere
        simpa only [if_pos hthere] using hthere
      · cases h

/-- A directory is there: the path is empty, or it leads to one. -/
def IsThere (t : FileTree) (p : Path) : Prop := p.bytes = [] ∨ t.leadsToDirectory p = true

theorem makeDirs_isThere (hw : t.WellFormed) {p : Path} (h : (t.makeDirs p).2 = .ok ()) :
    (t.makeDirs p).1.IsThere p := by
  by_cases hp : p.bytes = []
  · exact Or.inl hp
  · simp only [makeDirs, if_neg hp] at h ⊢
    exact Or.inr (ensureDirBelow_leads (makeDirsUpTo_builds p _) hw h)

theorem makeDirs_of_isThere {p : Path} (h : t.IsThere p) : t.makeDirs p = (t, .ok ()) := by
  rcases h with hp | hp
  · simp only [makeDirs, if_pos hp]
  by_cases hempty : p.bytes = []
  · simp only [makeDirs, if_pos hempty]
  obtain ⟨i, hl, -⟩ := leadsToDirectory_iff.1 hp
  obtain ⟨j, e, hbare⟩ := hl.resolveBare
  have hmake : t.makeDir p = failure .entryExists := by
    simp only [makeDir, freeName, hbare, failure]
  have hkind : (IoError.os Errno.entryExists).kind ≠ .notFound := by decide
  simp only [makeDirs, if_neg hempty, ensureDirBelow, hmake, failure, if_neg hkind, if_pos hp]

theorem makeDirs_of_refusal {p : Path} {e : IoError} (hp : p.bytes ≠ []) (h : refusal? p = some e) :
    t.makeDirs p = (t, .error e) := by
  have hmake : t.makeDir p = .error e := by
    simp only [makeDir, freeName, FileTree.resolveBare, follow, h]
  have hkind : e.kind ≠ .notFound := by
    simp only [refusal?, if_neg hp] at h
    split at h
    · cases h
      decide
    split at h
    · cases h
      decide
    · cases h
  have hleads : t.leadsToDirectory p = false := by
    simp only [leadsToDirectory, find, resolve, follow, h]
  simp [makeDirs, if_neg hp, ensureDirBelow, hmake, hkind, hleads]

theorem IsThere.mono (h : t.Within t') (hw : t.WellFormed) {p : Path} (hp : t.IsThere p) :
    t'.IsThere p :=
  hp.imp_right (leadsToDirectory_mono h hw)

/-! ## Opening files -/

theorem fileMode_allows : ∀ a ∈ [Access.read, Access.write],
    (⟨.file [], fileMode, true⟩ : Node).allows a = true := by decide

/-- **A file is opened where the path leads**, or it is made where the path leads
    to a free name. -/
theorem openPath_cases (hw : t.WellFormed) {p : Path} {i : Inode}
    (h : t.openPath [.read, .write] p = .ok (t', i)) :
    (t' = t ∧ t.Leads p i ∧ t.isDirectory i = false ∧ t.may i .read = true) ∨
      (t.node? i = none ∧ (∀ j, ¬ t.Leads p j) ∧ t.Grows t' ∧ t'.Leads p i ∧
        t'.node? i = some ⟨.file [], fileMode, true⟩) := by
  unfold openPath at h
  split at h
  · cases h
  · rename_i j e hres
    split at h
    · cases h
    rename_i hdir
    split at h
    · rename_i hmay
      cases h
      obtain ⟨hr, hwalk⟩ := resolve_eq_ok_iff.1 hres
      have hl : t.Leads p i := leads_iff.2 ⟨hr, e, hwalk.node_of_file⟩
      refine Or.inl ⟨rfl, hl, Bool.eq_false_iff.2 hdir, ?_⟩
      exact List.all_eq_true.1 hmay .read (by simp)
    · cases h
  · rename_i dir name hres
    split at h
    · have hmade := Except.ok.inj h
      obtain rfl : (t.create dir name (.file []) fileMode).1 = t' := congrArg Prod.fst hmade
      obtain rfl : t.next = i := congrArg Prod.snd hmade
      obtain ⟨hr, hwalk⟩ := resolve_eq_ok_iff.1 hres
      have hl := hwalk.vacant_looksUp rfl
      have hc : ListsNothing (.file []) := fun _ _ _ _ h => by cases h
      have hgrows : t.Grows (t.create dir name (.file []) fileMode).1 := create_grows hw hl hc
      have hnode : ((t.create dir name (.file []) fileMode).1).node? t.next =
          some ⟨.file [], fileMode, true⟩ := create_node hw hl
      have hlink : ((t.create dir name (.file []) fileMode).1).link? t.next = none := by
        simp [link?, hnode]
      refine Or.inr ⟨hw.node?_next, fun j hj => ?_, hgrows, leads_iff.2 ⟨hr, ?_⟩, hnode⟩
      · have hfree := resolve_eq_ok_iff.2 ⟨hr, hwalk.node_of_file⟩
        simp only [Leads, find, hfree] at hj
        cases hj
      · rw [hgrows.cwd, hgrows.origin]
        exact ⟨_, hwalk.create hgrows.toWithin hw rfl (create_looksUp hw hl) hlink⟩
    · cases h

theorem openPath_of_leads {p : Path} {i : Inode} (hl : t.Leads p i)
    (hdir : t.isDirectory i = false) (hread : t.may i .read = true)
    (hwrite : t.may i .write = true) : t.openPath [.read, .write] p = .ok (t, i) := by
  obtain ⟨hr, e, hwalk⟩ := leads_iff.1 hl
  have hfile : Walks t .file linkLimit (t.origin t.cwd p) none (steps p) (.found i e) := by
    refine hwalk.file_of_node fun j e' hj => ?_
    cases hj
    exact hdir
  simp [openPath, resolve_eq_ok_iff.2 ⟨hr, hfile⟩, hdir, hread, hwrite]

/-! ## Removing files -/

/-- What is removed is the entry that the path ends with, and it is not one of a
    directory. -/
theorem unlink_cases {p : Path} (h : t.unlink p = .ok t') :
    ∃ i dir name, t.resolveBare p = .ok (.found i (some (dir, name))) ∧
      steps p = bareSteps p ∧ t.isDirectory i = false ∧ t' = t.remove dir name := by
  unfold unlink at h
  split at h
  · cases h
  · cases h
  · cases h
  · rename_i i dir name hbare
    split at h
    · split at h <;> cases h
    rename_i hslash
    split at h
    · cases h
    split at h
    · cases h
    rename_i hdir
    cases h
    refine ⟨i, dir, name, hbare, ?_, Bool.eq_false_iff.2 hdir, rfl⟩
    simp [steps, hslash]

section Unlink
variable {p : Path} (h : t.unlink p = .ok t')
include h

theorem unlink_within : t'.Within t := by
  obtain ⟨_, _, _, -, -, -, rfl⟩ := unlink_cases h
  exact remove_within

theorem unlink_keeps : t.Keeps t' := by
  obtain ⟨_, dir, name, -, -, -, rfl⟩ := unlink_cases h
  exact keeps_remove dir name

theorem unlink_wellFormed (hw : t.WellFormed) : t'.WellFormed := by
  obtain ⟨_, _, _, -, -, -, rfl⟩ := unlink_cases h
  exact hw.remove

theorem unlink_file? (i : Inode) : t'.file? i = t.file? i := by
  obtain ⟨_, _, _, -, -, -, rfl⟩ := unlink_cases h
  exact file?_setEntries _ i

/-- **A path to a removed entry leads nowhere.** -/
theorem unlink_leads (hw : t.WellFormed) (j : Inode) : ¬ t'.Leads p j := by
  intro hl
  have hback := unlink_within h
  have hw' := unlink_wellFormed h hw
  obtain ⟨i, dir, name, hbare, -, -, rfl⟩ := unlink_cases h
  obtain ⟨k, e, hbare'⟩ := hl.resolveBare
  obtain ⟨hr, hwalk'⟩ := resolveBare_eq_ok_iff.1 hbare'
  -- the entry that is found now was found before, so it is the removed one
  have hwalk := hwalk'.mono hback hw' rfl
  rw [← hback.origin, ← hback.cwd] at hwalk
  have hsame := hbare.symm.trans (resolveBare_eq_ok_iff.2 ⟨hr, hwalk⟩)
  cases hsame
  exact not_looksUp_remove (hwalk'.looksUp rfl fun _ _ he => by cases he)

theorem unlink_last {i : Inode} (hl : t.Leads p i) : ∃ dir name b e₀ e,
    t' = t.remove dir name ∧ Walks t .node b dir e₀ [name] (.found i e) := by
  obtain ⟨j, dir, name, hbare, hsteps, -, rfl⟩ := unlink_cases h
  obtain ⟨-, hentry⟩ := resolveBare_eq_ok_iff.1 hbare
  obtain ⟨-, e, hwalk⟩ := leads_iff.1 hl
  rcases hentry.last_step rfl with ⟨-, he⟩ | hlast
  · cases he
  · rw [hsteps, ← List.append_nil (bareSteps p)] at hwalk
    obtain ⟨b, e₀, hlast⟩ := hlast hwalk
    exact ⟨dir, name, b, e₀, e, rfl, hlast⟩

/-- **Paths to other nodes do not notice that a file was removed.** -/
theorem unlink_leads_of_ne (hw : t.WellFormed) {i j : Inode} (hl : t.Leads p i)
    (hi : t.isDirectory i = false) {q : Path} (hq : t.Leads q j) (hne : j ≠ i) :
    t'.Leads q j := by
  have hback := unlink_within h
  obtain ⟨dir, name, b, e₀, e, rfl, hlast⟩ := unlink_last h hl
  obtain ⟨hr, e', hwalk⟩ := leads_iff.1 hq
  refine leads_iff.2 ⟨hr, e', ?_⟩
  rw [← hback.cwd, ← hback.origin]
  exact hlast.remove_of_ne hi hwalk hw rfl hne

/-- **Paths to directories do not notice that a file was removed.** -/
theorem unlink_leadsToDirectory (hw : t.WellFormed) {i : Inode} (hl : t.Leads p i)
    (hi : t.isDirectory i = false) {q : Path} (hq : t.leadsToDirectory q = true) :
    t'.leadsToDirectory q = true := by
  obtain ⟨k, hk, hdir⟩ := leadsToDirectory_iff.1 hq
  have hne : k ≠ i := by
    rintro rfl
    rw [hi] at hdir
    cases hdir
  refine leadsToDirectory_iff.2 ⟨k, unlink_leads_of_ne h hw hl hi hk hne, ?_⟩
  rw [(unlink_keeps h k (isDirectory_node hdir)).2.1]
  exact hdir

theorem IsThere.unlink (hw : t.WellFormed) {i : Inode} (hl : t.Leads p i)
    (hi : t.isDirectory i = false) {q : Path} (hq : t.IsThere q) : t'.IsThere q :=
  hq.imp_right (unlink_leadsToDirectory h hw hl hi)

end Unlink

/-! ## Writing files -/

section Rewrite
variable {i : Inode} {old new : Bytes} {mode : Nat} {owned : Bool}
  (h : t.node? i = some ⟨.file old, mode, owned⟩)
include h

theorem rewrite_within : t.Within (t.setContent i (.file new)) := by
  refine within_setContent fun n hn => ?_
  rw [h] at hn
  cases hn
  exact .file

theorem within_rewrite : (t.setContent i (.file new)).Within t := by
  refine setContent_within fun n hn => ?_
  rw [h] at hn
  cases hn
  exact .file

omit h in
theorem WellFormed.rewrite (hw : t.WellFormed) : (t.setContent i (.file new)).WellFormed :=
  hw.setContent fun _ _ _ _ hc => by cases hc

theorem file?_rewrite : (t.setContent i (.file new)).file? i = some new := by
  simp [file?, setContent, node?_update, h]

theorem leads_rewrite (hw : t.WellFormed) {p : Path} {j : Inode} :
    (t.setContent i (.file new)).Leads p j ↔ t.Leads p j :=
  ⟨fun hl => hl.mono (within_rewrite h) hw.rewrite, fun hl => hl.mono (rewrite_within h) hw⟩

end Rewrite

/-! ## Reading files -/

theorem isSome_node?_of_file? {i : Inode} {bytes : Bytes} (h : t.file? i = some bytes) :
    (t.node? i).isSome = true := by
  unfold file? at h
  split at h <;> cases h
  rename_i hn
  rw [hn]
  rfl

theorem bytesOf_of_file? {i : Inode} {bytes : Bytes} (h : t.file? i = some bytes) :
    t.bytesOf i = bytes := by
  obtain ⟨_, _, hn⟩ := file?_eq_some.1 h
  simp only [bytesOf, hn]

theorem readPath_of_leads {p : Path} {i : Inode} (hl : t.Leads p i) (hmay : t.may i .read = true)
    (hdir : t.isDirectory i = false) : t.readPath p = .ok (t.bytesOf i) := by
  have hfind : t.find .node p = .ok i := hl
  simp [readPath, hfind, hmay, hdir]

theorem leads_of_readPath {p : Path} {bytes : Bytes} (h : t.readPath p = .ok bytes) :
    ∃ i, t.Leads p i ∧ t.bytesOf i = bytes := by
  unfold readPath at h
  split at h
  · cases h
  · rename_i i hfind
    split at h
    · cases h
    · split at h
      · cases h
      · exact ⟨i, hfind, Except.ok.inj h⟩

end FileTree

end NamedMutex
