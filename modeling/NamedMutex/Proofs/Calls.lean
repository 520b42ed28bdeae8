/-
  Machines whose tables fit together, and what calls do to them.

  * `Machine.WellFormed`: openings are of nodes that exist, and locks belong to
    openings of the locked node;
  * `answer_wellFormed`: every call keeps a machine so, whatever it is, and
    `kill_wellFormed`: so does a death;
  * `opened_kill`, `locks_kill`: a death closes the files of the process, and
    takes the locks of those files and no others;
  * `answer_failed`: a call that fails does nothing, except that a part of the
    directories may have been made.
-/
import NamedMutex.Proofs.Contest
import NamedMutex.Proofs.Files

namespace NamedMutex

namespace Machine

/-- The tables of a machine fit together. -/
structure WellFormed (m : Machine) : Prop where
  tree : m.tree.WellFormed
  openedKeys : m.opened.keys.Nodup
  lockKeys : m.locks.keys.Nodup
  opened : ∀ {d f}, m.opened.get? d = some f →
    d < m.nextDescriptor ∧ (m.tree.node? f.inode).isSome = true
  locked : ∀ {i d}, m.locks.get? i = some d → ∃ f, m.opened.get? d = some f ∧ f.inode = i

variable {m m' : Machine} {d : Descriptor} {f : OpenFile} {i : Inode} {pid : Pid}

theorem WellFormed.lockNode (hw : m.WellFormed) (h : m.locks.get? i = some d) :
    (m.tree.node? i).isSome = true := by
  obtain ⟨f, hf, rfl⟩ := hw.locked h
  exact (hw.opened hf).2

/-! ## Locks -/

theorem locks_dropLock (hw : m.WellFormed) {j : Inode} {d' : Descriptor} :
    (m.dropLock d).locks.get? j = some d' ↔ m.locks.get? j = some d' ∧ d' ≠ d := by
  simp only [dropLock, Table.get?_filter hw.lockKeys, decide_eq_true_eq]

theorem WellFormed.dropLock (hw : m.WellFormed) (d : Descriptor) : (m.dropLock d).WellFormed where
  tree := hw.tree
  openedKeys := hw.openedKeys
  lockKeys := Table.nodup_filter hw.lockKeys _
  opened h := hw.opened h
  locked h := hw.locked ((locks_dropLock hw).1 h).1

theorem WellFormed.lock (hw : m.WellFormed) (hf : m.opened.get? d = some f) :
    WellFormed { m with locks := m.locks.insert f.inode d } where
  tree := hw.tree
  openedKeys := hw.openedKeys
  lockKeys := Table.nodup_insert hw.lockKeys _ _
  opened h := hw.opened h
  locked {i d'} h := by
    simp only [Table.get?_insert] at h
    split at h
    · rename_i hi
      cases h
      exact ⟨f, hf, hi.symm⟩
    · exact hw.locked h

/-! ## Openings -/

theorem opened_close {d' : Descriptor} :
    (m.close d).opened.get? d' = if d' = d then none else m.opened.get? d' := by
  simp only [close, Table.get?_erase]

theorem locks_close (hw : m.WellFormed) {j : Inode} {d' : Descriptor} :
    (m.close d).locks.get? j = some d' ↔ m.locks.get? j = some d' ∧ d' ≠ d :=
  locks_dropLock hw

theorem WellFormed.close (hw : m.WellFormed) (d : Descriptor) : (m.close d).WellFormed where
  tree := hw.tree
  openedKeys := Table.nodup_erase hw.openedKeys _
  lockKeys := Table.nodup_filter hw.lockKeys _
  opened {d' f} h := by
    rw [opened_close] at h
    split at h
    · cases h
    · exact hw.opened h
  locked {i d'} h := by
    obtain ⟨hlock, hne⟩ := (locks_close hw).1 h
    obtain ⟨f, hf, hi⟩ := hw.locked hlock
    exact ⟨f, by rw [opened_close, if_neg hne, hf], hi⟩

theorem opened_seek {d' : Descriptor} {o : Nat} :
    (m.seek d f o).opened.get? d' = if d' = d then some { f with offset := o } else m.opened.get? d' := by
  simp only [seek, Table.get?_insert]

theorem WellFormed.seek (hw : m.WellFormed) (hf : m.opened.get? d = some f) (o : Nat) :
    (m.seek d f o).WellFormed where
  tree := hw.tree
  openedKeys := Table.nodup_insert hw.openedKeys _ _
  lockKeys := hw.lockKeys
  opened {d' f'} h := by
    rw [opened_seek] at h
    split at h
    · rename_i hd
      cases h
      subst hd
      have hold := hw.opened hf
      exact hold
    · exact hw.opened h
  locked {i d'} h := by
    obtain ⟨f', hf', hi⟩ := hw.locked h
    by_cases hd : d' = d
    · subst hd
      rw [hf] at hf'
      cases hf'
      exact ⟨{ f with offset := o }, by rw [opened_seek, if_pos rfl], hi⟩
    · exact ⟨f', by rw [opened_seek, if_neg hd, hf'], hi⟩

theorem WellFormed.open_ (hw : m.WellFormed) (hi : (m.tree.node? i).isSome = true) (pid : Pid) :
    (m.open_ pid i).2.WellFormed where
  tree := hw.tree
  openedKeys := Table.nodup_insert hw.openedKeys _ _
  lockKeys := hw.lockKeys
  opened {d f} h := by
    simp only [Machine.open_, Table.get?_insert] at h ⊢
    split at h
    · rename_i hd
      cases h
      exact ⟨hd ▸ Nat.lt_succ_self _, hi⟩
    · obtain ⟨hlt, hnode⟩ := hw.opened h
      exact ⟨Nat.lt_succ_of_lt hlt, hnode⟩
  locked {i d} h := by
    obtain ⟨f, hf, hfi⟩ := hw.locked h
    have hne : d ≠ m.nextDescriptor := Nat.ne_of_lt (hw.opened hf).1
    exact ⟨f, by simp only [Machine.open_, Table.get?_insert, if_neg hne, hf], hfi⟩

/-! ## Trees -/

theorem WellFormed.setTree (hw : m.WellFormed) {t : FileTree} (ht : t.WellFormed)
    (hk : m.tree.Keeps t) : (m.setTree t).WellFormed where
  tree := ht
  openedKeys := hw.openedKeys
  lockKeys := hw.lockKeys
  opened h := ⟨(hw.opened h).1, (hk _ (hw.opened h).2).1⟩
  locked h := hw.locked h

theorem openPath_wellFormed (hw : m.WellFormed) {p : Path} {t : FileTree}
    (h : m.tree.openPath [.read, .write] p = .ok (t, i)) :
    (m.setTree t).WellFormed ∧ (t.node? i).isSome = true := by
  rcases FileTree.openPath_cases hw.tree h with ⟨rfl, -, -, hmay⟩ | ⟨-, -, hgrows, -, hnode⟩
  · exact ⟨hw.setTree hw.tree (.refl _), FileTree.may_node hmay⟩
  · exact ⟨hw.setTree hgrows.wellFormed hgrows.toWithin.keeps, by simp [hnode]⟩

/-! ## Calls -/

theorem truncate_cases {x : Except IoError Unit} (h : m.truncate d = (x, m')) :
    (∃ e, x = .error e ∧ m' = m) ∨ ∃ f old mode owned, x = .ok () ∧ m.opened.get? d = some f ∧
      m.tree.node? f.inode = some ⟨.file old, mode, owned⟩ ∧
      m' = m.setTree (m.tree.setContent f.inode (.file [])) := by
  unfold truncate at h
  split at h
  · cases h
    exact Or.inl ⟨_, rfl, rfl⟩
  · rename_i f hf
    split at h
    · rename_i hn
      cases h
      exact Or.inr ⟨f, _, _, _, rfl, hf, hn, rfl⟩
    · cases h
      exact Or.inl ⟨_, rfl, rfl⟩

theorem write_cases {x : Except IoError Unit} {bytes : Bytes} (h : m.write d bytes = (x, m')) :
    (m' = m) ∨ ∃ f old mode owned, x = .ok () ∧ m.opened.get? d = some f ∧
      m.tree.node? f.inode = some ⟨.file old, mode, owned⟩ ∧
      m' = (m.setTree (m.tree.setContent f.inode (.file (overwrite old f.offset bytes)))).seek d f
        (f.offset + bytes.length) := by
  unfold write at h
  split at h
  · cases h
    exact Or.inl rfl
  · rename_i f hf
    split at h
    · rename_i hn
      cases h
      exact Or.inr ⟨f, _, _, _, rfl, hf, hn, rfl⟩
    · cases h
      exact Or.inl rfl

theorem tryLock_cases {x : Except IoError Unit} (h : m.tryLock d = (x, m')) :
    (∃ e, x = .error e ∧ m' = m) ∨ ∃ f, x = .ok () ∧ m.opened.get? d = some f ∧
      ((m.locks.get? f.inode = some d ∧ m' = m) ∨
        (m.locks.get? f.inode = none ∧
          m' = { m with locks := m.locks.insert f.inode d })) := by
  unfold tryLock at h
  split at h
  · cases h
    exact Or.inl ⟨_, rfl, rfl⟩
  · rename_i f hf
    split at h
    · rename_i hl
      cases h
      exact Or.inr ⟨f, rfl, hf, Or.inr ⟨hl, rfl⟩⟩
    · rename_i holder hl
      split at h
      · rename_i hd
        cases h
        exact Or.inr ⟨f, rfl, hf, Or.inl ⟨hd ▸ hl, rfl⟩⟩
      · cases h
        exact Or.inl ⟨_, rfl, rfl⟩

theorem WellFormed.rewrite (hw : m.WellFormed) {old new : Bytes} {mode : Nat} {owned : Bool}
    (hn : m.tree.node? i = some ⟨.file old, mode, owned⟩) :
    (m.setTree (m.tree.setContent i (.file new))).WellFormed :=
  hw.setTree hw.tree.rewrite (FileTree.rewrite_within hn).keeps

/-- **Every call keeps a machine well-formed.** -/
theorem answer_wellFormed (hw : m.WellFormed) (pid : Pid) (c : Call) :
    (m.answer pid c).2.WellFormed := by
  cases c with
  | makeDirs p =>
    have hgrows := FileTree.makeDirs_grows hw.tree p
    exact hw.setTree hgrows.wellFormed hgrows.toWithin.keeps
  | openFile p =>
    simp only [answer]
    split
    · rename_i t i h
      obtain ⟨hw', hi⟩ := openPath_wellFormed hw h
      exact hw'.open_ hi pid
    · exact hw
  | tryLock d =>
    obtain ⟨x, m', hx⟩ : ∃ x m', m.tryLock d = (x, m') := ⟨_, _, rfl⟩
    simp only [answer, hx]
    rcases tryLock_cases hx with ⟨_, -, rfl⟩ | ⟨f, -, hf, ⟨-, rfl⟩ | ⟨-, rfl⟩⟩
    · exact hw
    · exact hw
    · exact hw.lock hf
  | read d =>
    simp only [answer, read]
    split
    · exact hw
    · rename_i hf
      exact hw.seek hf _
  | truncate d =>
    obtain ⟨x, m', hx⟩ : ∃ x m', m.truncate d = (x, m') := ⟨_, _, rfl⟩
    simp only [answer, hx]
    rcases truncate_cases hx with ⟨_, -, rfl⟩ | ⟨f, _, _, _, -, hf, hn, rfl⟩
    · exact hw
    · exact hw.rewrite hn
  | rewind d =>
    simp only [answer, rewind]
    split
    · exact hw
    · rename_i hf
      exact hw.seek hf _
  | write d bytes =>
    obtain ⟨x, m', hx⟩ : ∃ x m', m.write d bytes = (x, m') := ⟨_, _, rfl⟩
    simp only [answer, hx]
    rcases write_cases hx with rfl | ⟨f, _, _, _, -, hf, hn, rfl⟩
    · exact hw
    · exact (hw.rewrite hn).seek hf _
  | unlink p =>
    simp only [answer]
    split
    · rename_i h
      exact hw.setTree (FileTree.unlink_wellFormed h hw.tree) (FileTree.unlink_keeps h)
    · exact hw
  | unlock d =>
    simp only [answer]
    split
    · exact hw.dropLock d
    · exact hw
  | close d => exact hw.close d
  | leadsTo | readPath | ownPid | probe | now | isRegistered => exact hw
  | sleep | register | unregister | say =>
    exact ⟨hw.tree, hw.openedKeys, hw.lockKeys, hw.opened, hw.locked⟩

theorem WellFormed.tick (hw : m.WellFormed) : m.tick.WellFormed :=
  ⟨hw.tree, hw.openedKeys, hw.lockKeys, hw.opened, hw.locked⟩

theorem WellFormed.answered (hw : m.WellFormed) {pid : Pid} {c : Call} {x : c.Answer}
    {m' : Machine} (h : m.answer pid c = (x, m')) : m'.WellFormed := by
  have hanswer := answer_wellFormed hw pid c
  rwa [h] at hanswer

/-- **A call that fails does nothing**, except that a part of the directories may
    have been made. -/
theorem answer_failed {c : Call} {x : c.Answer} {e : IoError} (h : m.answer pid c = (x, m'))
    (he : c.failed? e = some x) (hc : ∀ p, c ≠ .makeDirs p) : m' = m := by
  cases c with
  | makeDirs p => exact absurd rfl (hc p)
  | openFile p =>
    cases he
    simp only [answer] at h
    split at h <;> cases h
    rfl
  | tryLock d =>
    cases he
    rcases tryLock_cases h with ⟨_, -, h⟩ | ⟨_, h, -⟩
    · exact h
    · cases h
  | leadsTo => exact (congrArg Prod.snd h).symm
  | read d =>
    cases he
    simp only [answer, read] at h
    split at h <;> cases h
    rfl
  | readPath => exact (congrArg Prod.snd h).symm
  | truncate d =>
    cases he
    rcases truncate_cases h with ⟨_, -, h⟩ | ⟨_, _, _, _, h, -⟩
    · exact h
    · cases h
  | rewind d =>
    cases he
    simp only [answer, rewind] at h
    split at h <;> cases h
    rfl
  | write d bytes =>
    cases he
    rcases write_cases h with h | ⟨_, _, _, _, h, -⟩
    · exact h
    · cases h
  | unlink p =>
    cases he
    simp only [answer] at h
    split at h <;> cases h
    rfl
  | unlock d =>
    cases he
    simp only [answer] at h
    split at h <;> cases h
    rfl
  | close | ownPid | probe | now | sleep | isRegistered | register | unregister | say => cases he

/-! ## Deaths -/

theorem mem_openedBy (hw : m.WellFormed) :
    d ∈ m.openedBy pid ↔ ∃ f, m.opened.get? d = some f ∧ f.process = pid := by
  simp only [openedBy, List.mem_map, List.mem_filter, decide_eq_true_eq, Prod.exists,
    exists_and_right, exists_eq_right]
  constructor
  · rintro ⟨f, hmem, hf⟩
    exact ⟨f, (Table.get?_eq_some_iff hw.openedKeys).2 hmem, hf⟩
  · rintro ⟨f, hget, hf⟩
    exact ⟨f, (Table.get?_eq_some_iff hw.openedKeys).1 hget, hf⟩

theorem foldl_close (hw : m.WellFormed) (ds : List Descriptor) :
    (ds.foldl close m).WellFormed ∧ (ds.foldl close m).tree = m.tree ∧
      (ds.foldl close m).nextDescriptor = m.nextDescriptor ∧
      (ds.foldl close m).processes = m.processes ∧
      (∀ d, (ds.foldl close m).opened.get? d = if d ∈ ds then none else m.opened.get? d) ∧
      ∀ i d, (ds.foldl close m).locks.get? i = some d ↔ m.locks.get? i = some d ∧ d ∉ ds := by
  induction ds generalizing m with
  | nil => exact ⟨hw, rfl, rfl, rfl, fun d => by simp, fun i d => by simp⟩
  | cons d₀ ds ih =>
    obtain ⟨hw', htree, hnext, hproc, hopened, hlocks⟩ := ih (hw.close d₀)
    refine ⟨hw', htree, hnext, hproc, fun d => ?_, fun i d => ?_⟩
    · rw [List.foldl_cons, hopened, opened_close]
      by_cases hd : d = d₀ <;> by_cases hds : d ∈ ds <;> simp [hd, hds]
    · rw [List.foldl_cons, hlocks, locks_close hw, List.mem_cons]
      constructor
      · rintro ⟨⟨hl, hne⟩, hds⟩
        exact ⟨hl, fun h => h.elim hne hds⟩
      · rintro ⟨hl, hne⟩
        exact ⟨⟨hl, fun h => hne (Or.inl h)⟩, fun h => hne (Or.inr h)⟩

theorem tree_kill (hw : m.WellFormed) (pid : Pid) : (m.kill pid).tree = m.tree :=
  (foldl_close hw _).2.1

theorem processes_kill (hw : m.WellFormed) (pid : Pid) :
    (m.kill pid).processes = m.processes.insert pid .zombie :=
  congrArg (·.insert pid .zombie) (foldl_close hw (m.openedBy pid)).2.2.2.1

theorem registries_kill (m : Machine) (pid : Pid) :
    (m.kill pid).registries = m.registries.erase pid := by
  have hclosed : ∀ (ds : List Descriptor) (m : Machine),
      (ds.foldl close m).registries = m.registries := by
    intro ds
    induction ds with
    | nil => exact fun _ => rfl
    | cons d ds ih => exact fun m => ih (m.close d)
  exact congrArg (·.erase pid) (hclosed _ m)

theorem opened_kill (hw : m.WellFormed) :
    (m.kill pid).opened.get? d = some f ↔ m.opened.get? d = some f ∧ f.process ≠ pid := by
  have hopened : (m.kill pid).opened.get? d =
      if d ∈ m.openedBy pid then none else m.opened.get? d := (foldl_close hw _).2.2.2.2.1 d
  rw [hopened]
  constructor
  · intro h
    split at h
    · cases h
    · rename_i hd
      exact ⟨h, fun hf => hd ((mem_openedBy hw).2 ⟨f, h, hf⟩)⟩
  · rintro ⟨h, hf⟩
    rw [if_neg, h]
    intro hd
    obtain ⟨f', h', hf'⟩ := (mem_openedBy hw).1 hd
    rw [h] at h'
    cases h'
    exact hf hf'

theorem locks_kill (hw : m.WellFormed) :
    (m.kill pid).locks.get? i = some d ↔
      m.locks.get? i = some d ∧ ∀ f, m.opened.get? d = some f → f.process ≠ pid := by
  have hlocks : (m.kill pid).locks.get? i = some d ↔
      m.locks.get? i = some d ∧ d ∉ m.openedBy pid := (foldl_close hw _).2.2.2.2.2 i d
  rw [hlocks, mem_openedBy hw]
  simp only [not_exists, not_and, ne_eq]

theorem kill_wellFormed (hw : m.WellFormed) (pid : Pid) : (m.kill pid).WellFormed := by
  obtain ⟨hw', -⟩ := foldl_close hw (m.openedBy pid)
  exact ⟨hw'.tree, hw'.openedKeys, hw'.lockKeys, hw'.opened, hw'.locked⟩

end Machine

end NamedMutex
