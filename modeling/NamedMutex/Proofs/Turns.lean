/-
  Turns: what one answered call does for the party that made it, and to all others.

  `Holds` says what the machine grants to a role.  A `Turn` leads from one role
  to the next; it keeps what the machine grants, and it spares the files of
  others: their openings, their locks, and while they own it, the linked file and
  its content.

  * `Follows.turn`: every answer of the machine makes a turn, and so does every
    failure (`Follows.turn_of_failed`) and every torn write
    (`Stamps.turn_of_torn`);
  * `Holds.spared`: what a party holds outlasts the turns of others.
-/
import NamedMutex.Proofs.Calls
import NamedMutex.Proofs.Protocol

namespace NamedMutex

namespace FileTree

/-- The directory in which a path ends is there. -/
def Settled (t : FileTree) (path : Path) : Prop := ∀ dir, path.parent? = some dir → t.IsThere dir

/-- The tree after the directory in which a path ends was made, as far as it can
    be. -/
def withLockDir (path : Path) (t : FileTree) : FileTree :=
  match path.parent? with
  | none => t
  | some dir => (t.makeDirs dir).1

/-- A node that programs open. -/
def Usable (t : FileTree) (i : Inode) : Prop := t.isDirectory i = false ∧ t.may i .read = true

variable {t t' : FileTree} {path : Path} {i : Inode}

theorem Usable.keeps (h : t.Usable i) (hk : t.Keeps t') : t'.Usable i := by
  obtain ⟨-, hdir, hmay⟩ := hk i (may_node h.2)
  exact ⟨hdir.trans h.1, (hmay _).trans h.2⟩

theorem withLockDir_grows (hw : t.WellFormed) : t.Grows (t.withLockDir path) := by
  unfold withLockDir
  split
  · exact .refl hw
  · exact makeDirs_grows hw _

theorem withLockDir_of_settled (h : t.Settled path) : t.withLockDir path = t := by
  unfold withLockDir
  split
  · rfl
  · rename_i dir hdir
    rw [makeDirs_of_isThere (h dir hdir)]

theorem Settled.mono (h : t.Settled path) (hin : t.Within t') (hw : t.WellFormed) :
    t'.Settled path := fun dir hdir => (h dir hdir).mono hin hw

/-- What a turn of a party does to the files.  `owns` is the node that the party
    owns, `written` what it may write there; `unlinks` is whether it may remove
    the entry at the path. -/
structure Turn (path : Path) (written : Bytes → Prop) (owns : Inode → Prop) (unlinks : Prop)
    (t t' : FileTree) : Prop where
  keeps : t.Keeps t'
  files : ∀ i, (t.node? i).isSome = true → t'.file? i = t.file? i ∨
    (owns i ∧ ∃ bytes, t'.file? i = some bytes ∧ written bytes)
  unlinked : ∀ i, t.Leads path i → t'.Leads path i ∨ unlinks
  linked : t.Settled path → ∀ i, t'.Leads path i → t.Leads path i ∨
    (t.node? i = none ∧ t'.node? i = some ⟨.file [], fileMode, true⟩)
  settled : t.Settled path → t'.Settled path
  unsettled : t' = t ∨ t' = t.withLockDir path ∨ t.Settled path

section Turn
variable {written : Bytes → Prop} {owns : Inode → Prop} {unlinks : Prop}

theorem Turn.refl (t : FileTree) : Turn path written owns unlinks t t where
  keeps := .refl t
  files _ _ := Or.inl rfl
  unlinked _ h := Or.inl h
  linked _ _ h := Or.inl h
  settled h := h
  unsettled := Or.inl rfl

theorem turn_withLockDir (hw : t.WellFormed) :
    Turn path written owns unlinks t (t.withLockDir path) := by
  have hgrows : t.Grows (t.withLockDir path) := withLockDir_grows hw
  refine ⟨hgrows.toWithin.keeps, fun i hi => Or.inl (hgrows.files i hi), fun i h => ?_,
    fun hs i h => Or.inl ?_, fun hs => hs.mono hgrows.toWithin hw, Or.inr (Or.inl rfl)⟩
  · exact Or.inl (h.mono hgrows.toWithin hw)
  · rwa [withLockDir_of_settled hs] at h

theorem turn_openPath (hw : t.WellFormed) (hs : t.Settled path)
    (h : t.openPath [.read, .write] path = .ok (t', i)) :
    Turn path written owns unlinks t t' ∧ t'.Usable i := by
  rcases openPath_cases hw h with ⟨rfl, -, hdir, hmay⟩ | ⟨hnone, -, hgrows, hl, hnode⟩
  · exact ⟨.refl _, hdir, hmay⟩
  refine ⟨⟨hgrows.toWithin.keeps, fun j hj => Or.inl (hgrows.files j hj), fun j hj => ?_,
    fun _ j hj => ?_, fun hs => hs.mono hgrows.toWithin hw, Or.inr (Or.inr hs)⟩, ?_, ?_⟩
  · exact Or.inl (hj.mono hgrows.toWithin hw)
  · obtain rfl := hl.unique hj
    exact Or.inr ⟨hnone, hnode⟩
  · simp [isDirectory, directory?, hnode]
  · simp only [may, hnode]
    exact fileMode_allows .read (by simp)

theorem turn_rewrite (hw : t.WellFormed) (hs : t.Settled path) {old new : Bytes} {mode : Nat}
    {owned : Bool} (hn : t.node? i = some ⟨.file old, mode, owned⟩) (hi : owns i)
    (hnew : written new) : Turn path written owns unlinks t (t.setContent i (.file new)) where
  keeps := (rewrite_within hn).keeps
  files j _ := by
    by_cases hj : j = i
    · subst hj
      exact Or.inr ⟨hi, new, file?_rewrite hn, hnew⟩
    · exact Or.inl (file?_setContent_ne hj)
  unlinked _ h := Or.inl ((leads_rewrite hn hw).2 h)
  linked _ _ h := Or.inl ((leads_rewrite hn hw).1 h)
  settled h := h.mono (rewrite_within hn) hw
  unsettled := Or.inr (Or.inr hs)

theorem turn_unlink (hw : t.WellFormed) (hs : t.Settled path) (hl : t.Leads path i)
    (hi : t.isDirectory i = false) (h : t.unlink path = .ok t') (hu : unlinks) :
    Turn path written owns unlinks t t' where
  keeps := unlink_keeps h
  files j _ := Or.inl (unlink_file? h j)
  unlinked _ _ := Or.inr hu
  linked _ _ h' := absurd h' (unlink_leads h hw _)
  settled h' dir hdir := (h' dir hdir).unlink h hw hl hi
  unsettled := Or.inr (Or.inr hs)

end Turn

end FileTree

/-! ## What roles hold -/

/-- What the stamp of an owner has come to: where its file stands open, and what
    it holds. -/
def Progress.Written (me : Pid) : Progress → Nat → Option Bytes → Prop
  | linked, o, _ => o = 0
  | seen, _, _ => True
  | truncated, _, file => file = some []
  | rewound, o, file => o = 0 ∧ file = some []
  | numbered, o, file => o = (Stamp.digits me).length ∧ file = some (Stamp.digits me)
  | stamped, _, file => file = some (Stamp.text me)

namespace Role

/-- The roles for which the lock directory was made. -/
def Inside (r : Role) : Prop := r ≠ .outside ∧ r ≠ .out (some .failure)

theorem inside_of_file {r : Role} {d : Descriptor} (h : r.file = some d) : r.Inside := by
  constructor
  all_goals
    rintro rfl
    cases h

theorem Opens.inside {r : Role} (h : r.Opens) : r.Inside := by
  rcases h with rfl | rfl
  · exact ⟨Role.noConfusion, Role.noConfusion⟩
  · exact ⟨Role.noConfusion, fun h => by cases h⟩

/-- What a role has achieved for the file `f` that it has open. -/
def Achieved (path : Path) (m : Machine) (f : OpenFile) : Role → Prop
  | opened _ => f.offset = 0
  | locked d => f.offset = 0 ∧ m.locks.get? f.inode = some d
  | owner d w => m.locks.get? f.inode = some d ∧ m.tree.Leads path f.inode ∧
      w.Written f.process f.offset (m.tree.file? f.inode)
  | _ => True

/-- The node that a role owns. -/
def Owns (m : Machine) (r : Role) (i : Inode) : Prop :=
  ∃ d w f, r = .owner d w ∧ m.opened.get? d = some f ∧ f.inode = i

/-- The role that removes the file. -/
def Unlinks (r : Role) : Prop := ∃ d, r = .owner d .stamped

end Role

/-- What the machine grants to a role. -/
structure Holds (path : Path) (me : Pid) (m : Machine) (r : Role) : Prop where
  settled : r.Inside → m.tree.Settled path
  file : ∀ d, r.file = some d → ∃ f, m.opened.get? d = some f ∧ f.process = me ∧
    m.tree.Usable f.inode ∧ r.Achieved path m f

/-- What one turn of a party in the role `r` does, which is in the role `r'` then. -/
structure Turn (path : Path) (me : Pid) (written : Bytes → Prop) (r : Role) (m : Machine)
    (r' : Role) (m' : Machine) : Prop where
  wellFormed : m'.WellFormed
  holds : Holds path me m' r'
  processes : m'.processes = m.processes
  tree : m.tree.Turn path written (r.Owns m) r.Unlinks m'.tree
  /-- The files of others stay open as they are. -/
  opened : ∀ d, d < m.nextDescriptor → r.file ≠ some d → m'.opened.get? d = m.opened.get? d
  /-- A file that is opened is nobody's yet. -/
  fresh : ∀ d, r'.file = some d → r.file = some d ∨ m.nextDescriptor ≤ d
  /-- The locks of others stay. -/
  kept : ∀ i d, m.locks.get? i = some d → r.file ≠ some d → m'.locks.get? i = some d
  /-- A lock is taken for the file that is locked then. -/
  taken : ∀ i d, m'.locks.get? i = some d → m.locks.get? i = some d ∨ r' = .locked d
  /-- A file that is closed has no lock. -/
  dropped : ∀ i d, r.file = some d → r'.file ≠ some d → m'.locks.get? i ≠ some d

variable {path : Path} {me : Pid} {written : Bytes → Prop} {r r' q : Role} {m m' : Machine}

theorem Holds.owns (h : Holds path me m r) {i : Inode} (hi : r.Owns m i) :
    ∃ d, r.file = some d ∧ m.locks.get? i = some d ∧ m.tree.Leads path i := by
  obtain ⟨d, w, f, rfl, hf, rfl⟩ := hi
  obtain ⟨f', hf', -, -, hlock, hl, -⟩ := h.file d rfl
  rw [hf] at hf'
  cases hf'
  exact ⟨d, rfl, hlock, hl⟩

theorem Holds.unlinks (h : Holds path me m r) (hu : r.Unlinks) :
    ∃ d i, r.file = some d ∧ m.locks.get? i = some d ∧ m.tree.Leads path i := by
  obtain ⟨d, rfl⟩ := hu
  obtain ⟨f, -, -, -, hlock, hl, -⟩ := h.file d rfl
  exact ⟨d, f.inode, rfl, hlock, hl⟩

theorem Holds.congr (h : Holds path me m r) (htree : m'.tree = m.tree)
    (hopened : m'.opened = m.opened) (hlocks : m'.locks = m.locks) : Holds path me m' r := by
  refine ⟨fun hin => htree ▸ h.settled hin, fun d hd => ?_⟩
  obtain ⟨f, hf, hme, huse, hach⟩ := h.file d hd
  have hsame : r.Achieved path m' f = r.Achieved path m f := by
    cases r <;> simp only [Role.Achieved, htree, hlocks]
  exact ⟨f, by rw [hopened, hf], hme, htree ▸ huse, hsame ▸ hach⟩

theorem Holds.lt_nextDescriptor (h : Holds path me m r) (hw : m.WellFormed) {d : Descriptor}
    (hd : r.file = some d) : d < m.nextDescriptor := by
  obtain ⟨f, hf, -⟩ := h.file d hd
  exact (hw.opened hf).1

/-- **What a party holds outlasts the turns of others.** -/
theorem Holds.spared {you : Pid} (hq : Holds path you m q) (hr : Holds path me m r)
    (hw : m.WellFormed) (ht : Turn path me written r m r' m')
    (hne : ∀ d, q.file = some d → r.file ≠ some d) : Holds path you m' q where
  settled hin := ht.tree.settled (hq.settled hin)
  file d hd := by
    obtain ⟨f, hf, hyou, huse, hach⟩ := hq.file d hd
    refine ⟨f, (ht.opened d (hw.opened hf).1 (hne d hd)).trans hf, hyou,
      huse.keeps ht.tree.keeps, ?_⟩
    -- a node that the other party owns is not locked by this one
    have hother : ∀ {d'}, r.file = some d' → m.locks.get? f.inode = some d' →
        ¬ m.locks.get? f.inode = some d := by
      intro d' hd' hlock' hlock
      rw [hlock] at hlock'
      cases hlock'
      exact hne d hd hd'
    cases q with
    | outside | ready | out => cases hd
    | leaving => trivial
    | opened => exact hach
    | locked d₀ =>
      cases hd
      exact ⟨hach.1, ht.kept _ _ hach.2 (hne d rfl)⟩
    | owner d₀ w =>
      cases hd
      obtain ⟨hlock, hl, hwritten⟩ := hach
      refine ⟨ht.kept _ _ hlock (hne d rfl), ?_, ?_⟩
      · rcases ht.tree.unlinked _ hl with hl' | hu
        · exact hl'
        · obtain ⟨d', i, hd', hlock', hl'⟩ := hr.unlinks hu
          obtain rfl := hl.unique hl'
          exact absurd hlock (hother hd' hlock')
      · rcases ht.tree.files _ (hw.opened hf).2 with hsame | ⟨hown, -⟩
        · rwa [hsame]
        · obtain ⟨d', hd', hlock', -⟩ := hr.owns hown
          exact absurd hlock (hother hd' hlock')

/-! ## Turns that concern the own file only -/

/-- A turn that opens no file, closes none and leaves the locks alone. -/
theorem Turn.own (hw' : m'.WellFormed) (hholds : Holds path me m' r') (hfile : r'.file = r.file)
    (hproc : m'.processes = m.processes)
    (htree : m.tree.Turn path written (r.Owns m) r.Unlinks m'.tree)
    (hopened : ∀ d, r.file ≠ some d → m'.opened.get? d = m.opened.get? d)
    (hlocks : m'.locks = m.locks) : Turn path me written r m r' m' where
  wellFormed := hw'
  holds := hholds
  processes := hproc
  tree := htree
  opened d _ hd := hopened d hd
  fresh d hd := Or.inl (hfile ▸ hd)
  kept i d h _ := by rwa [hlocks]
  taken i d h := Or.inl (by rwa [hlocks] at h)
  dropped i d hd hd' := absurd (hfile.trans hd) hd'

theorem Turn.idle (hw : m.WellFormed) (hh : Holds path me m r) (hfile : r'.file = r.file)
    (hin : r'.Inside → r.Inside)
    (hach : ∀ f, f.process = me → r.Achieved path m f → r'.Achieved path m f) :
    Turn path me written r m r' m := by
  refine .own hw ⟨fun h => hh.settled (hin h), fun d hd => ?_⟩ hfile rfl (.refl _)
    (fun _ _ => rfl) rfl
  obtain ⟨f, hf, hme, huse, h⟩ := hh.file d (hfile ▸ hd)
  exact ⟨f, hf, hme, huse, hach f hme h⟩

/-- A turn to a role is one to a role that has achieved less. -/
theorem Turn.become (ht : Turn path me written r m q m') (hfile : r'.file = q.file)
    (hin : r'.Inside → q.Inside)
    (hach : ∀ f, f.process = me → q.Achieved path m' f → r'.Achieved path m' f)
    (hq : ∀ d, q ≠ .locked d) : Turn path me written r m r' m' where
  wellFormed := ht.wellFormed
  holds := by
    refine ⟨fun h => ht.holds.settled (hin h), fun d hd => ?_⟩
    obtain ⟨f, hf, hme, huse, h⟩ := ht.holds.file d (hfile ▸ hd)
    exact ⟨f, hf, hme, huse, hach f hme h⟩
  processes := ht.processes
  tree := ht.tree
  opened := ht.opened
  fresh d hd := ht.fresh d (hfile ▸ hd)
  kept := ht.kept
  taken i d hl := (ht.taken i d hl).imp_right fun h => absurd h (hq d)
  dropped i d hd hd' := ht.dropped i d hd (hfile ▸ hd')

/-- What a turn does with a machine, it does with one that agrees in everything
    but the clock and what was said. -/
theorem Turn.congr (ht : Turn path me written r m r' m') {m'' : Machine} (hw : m''.WellFormed)
    (htree : m''.tree = m'.tree) (hopened : m''.opened = m'.opened)
    (hlocks : m''.locks = m'.locks) (hproc : m''.processes = m'.processes) :
    Turn path me written r m r' m'' where
  wellFormed := hw
  holds := ht.holds.congr htree hopened hlocks
  processes := hproc.trans ht.processes
  tree := htree ▸ ht.tree
  opened := by rw [hopened]; exact ht.opened
  fresh := ht.fresh
  kept := by rw [hlocks]; exact ht.kept
  taken := by rw [hlocks]; exact ht.taken
  dropped := by rw [hlocks]; exact ht.dropped

/-! ## Turns of answered calls -/

namespace Stamp

/-- What the owner of a file leaves in it, between two calls. -/
def Whole (pid : Pid) (bytes : Bytes) : Prop :=
  bytes = [] ∨ bytes = digits pid ∨ bytes = text pid

/-- What a torn write leaves, too. -/
def Torn (pid : Pid) (bytes : Bytes) : Prop := bytes <+: text pid

theorem Whole.torn {pid : Pid} {bytes : Bytes} (h : Whole pid bytes) : Torn pid bytes := by
  rcases h with rfl | rfl | rfl
  · exact List.nil_prefix
  · exact List.prefix_append _ _
  · exact List.prefix_rfl

end Stamp

theorem Machine.overwrite_length (old new : Bytes) :
    overwrite old old.length new = old ++ new := by
  simp [overwrite]

/-- A call that fails leaves a role its file, and asks no more of the machine. -/
theorem Follows.of_failed {c : Call} {x : c.Answer} {e : IoError} (h : Follows path me r c x r')
    (he : c.failed? e = some x) : r'.file = r.file ∧ (r'.Inside → r.Inside) ∧
      ∀ m f, r.Achieved path m f → r'.Achieved path m f := by
  have hout : ¬ (Role.out (some .failure)).Inside := fun h => h.2 rfl
  cases h with
  | say | ownPid | probe | close => cases he
  | made | opened | locked | linked | seen | illegible => cases he
  | stamped hs => cases hs <;> cases he
  | readPath => exact ⟨rfl, id, fun _ _ h => h⟩
  | unmade => exact ⟨rfl, fun h => absurd h hout, fun _ _ _ => trivial⟩
  | unopened ho =>
    refine ⟨?_, fun h => absurd h hout, fun _ _ _ => trivial⟩
    rcases ho with rfl | rfl <;> rfl
  | unlocked | orphaned | unread | unstamped | unlink | unlock =>
    exact ⟨rfl, fun _ => Role.inside_of_file rfl, fun _ _ _ => trivial⟩

/-- **A call that fails is a turn.** -/
theorem Follows.turn_of_failed {c : Call} {x : c.Answer} {e : IoError}
    (h : Follows path me r c x r') (he : c.failed? e = some x) (hw : m.WellFormed)
    (hh : Holds path me m r) : Turn path me written r m r' m := by
  obtain ⟨hfile, hin, hach⟩ := h.of_failed he
  exact .idle hw hh hfile hin fun f _ => hach m f

section Cases
variable {d : Descriptor} (hw : m.WellFormed)
include hw

theorem turn_makeDirs {dir : Path} (hdir : path.parent? = some dir)
    {x : Except IoError Unit} (h : m.answer me (.makeDirs dir) = (x, m'))
    (hr : (x = .ok () ∧ r' = .ready) ∨ r' = .out (some .failure)) :
    Turn path me written .outside m r' m' := by
  have hw' := hw.answered h
  simp only [Machine.answer] at h
  cases h
  have hlock : (m.tree.makeDirs dir).1 = m.tree.withLockDir path := by
    simp only [FileTree.withLockDir, hdir]
  have htree : m.tree.Turn path written (Role.outside.Owns m) Role.outside.Unlinks
      (m.tree.makeDirs dir).1 := by
    rw [hlock]
    exact FileTree.turn_withLockDir hw.tree
  have hfile : r'.file = none := by
    rcases hr with ⟨-, rfl⟩ | rfl <;> rfl
  refine .own hw' ⟨fun hin => ?_, fun d hd => ?_⟩ hfile rfl htree (fun _ _ => rfl) rfl
  · rcases hr with ⟨hx, -⟩ | rfl
    · intro dir' hdir'
      obtain rfl := Option.some.inj (hdir.symm.trans hdir')
      exact FileTree.makeDirs_isThere hw.tree hx
    · exact absurd rfl hin.2
  · rw [hfile] at hd
    cases hd

theorem turn_openFile (hh : Holds path me m r) (hr : r.Opens)
    (h : m.answer me (.openFile path) = (.ok d, m')) : Turn path me written r m (.opened d) m' := by
  have hw' := hw.answered h
  have hs := hh.settled hr.inside
  have hnone : r.file = none := by
    rcases hr with rfl | rfl <;> rfl
  simp only [Machine.answer] at h
  split at h <;> cases h
  rename_i t i hopen
  have hturn : m.tree.Turn path written (r.Owns m) r.Unlinks t ∧ t.Usable i :=
    FileTree.turn_openPath hw.tree hs hopen
  obtain ⟨htree, huse⟩ := hturn
  refine ⟨hw', ⟨fun _ => htree.settled hs, fun d hd => ?_⟩, rfl, htree, fun d hd _ => ?_,
    fun d hd => ?_, fun i d hl _ => hl, fun i d hl => Or.inl hl, fun i d hd => ?_⟩
  · cases hd
    exact ⟨⟨i, 0, me⟩, Table.get?_insert_self _ _ _, rfl, huse, rfl⟩
  · exact (Table.get?_insert _ _ _ _).trans (if_neg (Nat.ne_of_lt hd))
  · cases hd
    exact Or.inr (Nat.le_refl _)
  · rw [hnone] at hd
    cases hd

theorem turn_tryLock (hh : Holds path me m (.opened d))
    (h : m.answer me (.tryLock d) = (.ok (), m')) :
    Turn path me written (.opened d) m (.locked d) m' := by
  have hw' := hw.answered h
  obtain ⟨f, hf, hme, huse, ho⟩ := hh.file d rfl
  have hin : (Role.opened d).Inside := Role.inside_of_file rfl
  rcases Machine.tryLock_cases h with ⟨_, hx, -⟩ | ⟨f', -, hf', hcases⟩
  · cases hx
  obtain rfl := Option.some.inj (hf.symm.trans hf')
  rcases hcases with ⟨hl, rfl⟩ | ⟨hnone, rfl⟩
  · refine .own hw' ⟨fun _ => hh.settled hin, fun d' hd => ?_⟩ rfl rfl (.refl _) (fun _ _ => rfl) rfl
    cases hd
    exact ⟨f, hf, hme, huse, ho, hl⟩
  · refine ⟨hw', ⟨fun _ => hh.settled hin, fun d' hd => ?_⟩, rfl, .refl _, fun d' _ _ => rfl,
      fun d' hd => Or.inl hd, fun i d' hl _ => ?_, fun i d' hl => ?_, fun i d' hd hd' => ?_⟩
    · cases hd
      exact ⟨f, hf, hme, huse, ho, Table.get?_insert_self _ _ _⟩
    · simp only [Table.get?_insert]
      split
      · rename_i hi
        subst hi
        rw [hnone] at hl
        cases hl
      · exact hl
    · simp only [Table.get?_insert] at hl
      split at hl
      · cases hl
        exact Or.inr rfl
      · exact Or.inl hl
    · exact absurd hd hd'

omit hw in
/-- The owner of a file moves in it, or changes its content. -/
theorem turn_owner {w w' : Progress} (hh : Holds path me m (.owner d w)) {f : OpenFile} {o : Nat}
    (hf : m.opened.get? d = some f) (hw' : m'.WellFormed) (hproc : m'.processes = m.processes)
    (hopened : ∀ d', m'.opened.get? d' =
      if d' = d then some { f with offset := o } else m.opened.get? d')
    (hlocks : m'.locks = m.locks)
    (htree : m.tree.Turn path written ((Role.owner d w).Owns m) (Role.owner d w).Unlinks m'.tree)
    (hleads : m.tree.Leads path f.inode → m'.tree.Leads path f.inode)
    (hwr : w.Written me f.offset (m.tree.file? f.inode) →
      w'.Written me o (m'.tree.file? f.inode)) :
    Turn path me written (.owner d w) m (.owner d w') m' := by
  obtain ⟨f', hf', hme, huse, hlock, hl, hwritten⟩ := hh.file d rfl
  obtain rfl := Option.some.inj (hf.symm.trans hf')
  have hs := hh.settled (Role.inside_of_file rfl)
  refine .own hw' ⟨fun _ => htree.settled hs, fun d' hd => ?_⟩ rfl hproc htree (fun d' hd => ?_)
    hlocks
  · cases hd
    subst hme
    exact ⟨_, (hopened d).trans (if_pos rfl), rfl, huse.keeps htree.keeps, hlocks ▸ hlock,
      hleads hl, hwr hwritten⟩
  · rw [hopened, if_neg]
    rintro rfl
    exact hd rfl

theorem turn_seek {w w' : Progress} (hh : Holds path me m (.owner d w)) {f : OpenFile} {o : Nat}
    (hf : m.opened.get? d = some f)
    (hwr : w.Written me f.offset (m.tree.file? f.inode) → w'.Written me o (m.tree.file? f.inode)) :
    Turn path me written (.owner d w) m (.owner d w') (m.seek d f o) :=
  turn_owner hh hf (hw.seek hf o) rfl (fun _ => Machine.opened_seek) rfl (.refl _) id hwr

section Rewrite
variable {w w' : Progress} (hh : Holds path me m (.owner d w)) {f : OpenFile}
  (hf : m.opened.get? d = some f) {old new : Bytes} {mode : Nat} {owned : Bool}
  (hn : m.tree.node? f.inode = some ⟨.file old, mode, owned⟩) (hnew : written new)
include hh hf hn hnew

theorem tree_turn_rewrite : m.tree.Turn path written ((Role.owner d w).Owns m)
    (Role.owner d w).Unlinks (m.tree.setContent f.inode (.file new)) :=
  FileTree.turn_rewrite hw.tree (hh.settled (Role.inside_of_file rfl)) hn ⟨d, w, f, rfl, hf, rfl⟩ hnew

theorem turn_truncate (hwr : w'.Written me f.offset (some new)) :
    Turn path me written (.owner d w) m (.owner d w')
      (m.setTree (m.tree.setContent f.inode (.file new))) := by
  refine turn_owner hh hf (o := f.offset) (hw.rewrite hn) rfl (fun d' => ?_) rfl
    (tree_turn_rewrite hw hh hf hn hnew) (FileTree.leads_rewrite hn hw.tree).2 fun _ => ?_
  · split
    · rename_i hd
      exact hd ▸ hf
    · rfl
  · exact (FileTree.file?_rewrite hn).symm ▸ hwr

theorem turn_write {o : Nat} (hwr : w'.Written me o (some new)) :
    Turn path me written (.owner d w) m (.owner d w')
      ((m.setTree (m.tree.setContent f.inode (.file new))).seek d f o) := by
  refine turn_owner hh hf ((hw.rewrite hn).seek hf o) rfl (fun _ => Machine.opened_seek) rfl
    (tree_turn_rewrite hw hh hf hn hnew) (FileTree.leads_rewrite hn hw.tree).2 fun _ => ?_
  exact (FileTree.file?_rewrite hn).symm ▸ hwr

end Rewrite

theorem turn_unlink (hh : Holds path me m (.owner d .stamped)) {x : Except IoError Unit}
    (h : m.answer me (.unlink path) = (x, m')) :
    Turn path me written (.owner d .stamped) m (.leaving d none) m' := by
  have hw' := hw.answered h
  obtain ⟨f, hf, hme, huse, -, hl, -⟩ := hh.file d rfl
  have hs := hh.settled (Role.inside_of_file rfl)
  simp only [Machine.answer] at h
  split at h <;> cases h
  · rename_i t hunlink
    have htree : m.tree.Turn path written ((Role.owner d .stamped).Owns m)
        (Role.owner d .stamped).Unlinks t :=
      FileTree.turn_unlink hw.tree hs hl huse.1 hunlink ⟨d, rfl⟩
    refine .own hw' ⟨fun _ => htree.settled hs, fun d' hd => ?_⟩ rfl rfl htree (fun _ _ => rfl) rfl
    cases hd
    exact ⟨f, hf, hme, huse.keeps htree.keeps, trivial⟩
  · exact .idle hw hh rfl (fun _ => Role.inside_of_file rfl) fun _ _ _ => trivial

theorem turn_unlock {e : Option Excuse} (hh : Holds path me m (.leaving d e))
    {x : Except IoError Unit} (h : m.answer me (.unlock d) = (x, m')) :
    Turn path me written (.leaving d e) m (.leaving d e) m' := by
  have hw' := hw.answered h
  simp only [Machine.answer] at h
  split at h <;> cases h
  · refine ⟨hw', ⟨hh.settled, hh.file⟩, rfl, .refl _, fun _ _ _ => rfl, fun d' hd => Or.inl hd,
      fun i d' hl hd => ?_, fun i d' hl => ?_, fun i d' hd hd' => absurd hd hd'⟩
    · refine (Machine.locks_dropLock hw).2 ⟨hl, ?_⟩
      rintro rfl
      exact hd rfl
    · exact Or.inl ((Machine.locks_dropLock hw).1 hl).1
  · exact .idle hw hh rfl id fun _ _ h => h

theorem turn_close {e : Option Excuse} (hh : Holds path me m (.leaving d e)) :
    Turn path me written (.leaving d e) m (.out e) (m.close d) := by
  have hs := hh.settled (Role.inside_of_file rfl)
  have hnone : ∀ d', (Role.out e).file ≠ some d' := fun _ h => by cases h
  refine ⟨hw.close d, ⟨fun _ => hs, fun d' hd => absurd hd (hnone d')⟩, rfl, .refl _,
    fun d' _ hd => ?_, fun d' hd => absurd hd (hnone d'), fun i d' hl hd => ?_, fun i d' hl => ?_,
    fun i d' hd _ hl => ?_⟩
  · rw [Machine.opened_close, if_neg]
    rintro rfl
    exact hd rfl
  · refine (Machine.locks_close hw).2 ⟨hl, ?_⟩
    rintro rfl
    exact hd rfl
  · exact Or.inl ((Machine.locks_close hw).1 hl).1
  · cases hd
    exact ((Machine.locks_close hw).1 hl).2 rfl

end Cases

/-! ## The stamp -/

/-- What the owner of a file writes next, behind what it wrote before. -/
inductive Writes (me : Pid) : Progress → Bytes → Bytes → Progress → Prop
  | number : Writes me .rewound [] (Stamp.digits me) .numbered
  | newline : Writes me .numbered (Stamp.digits me) Stamp.newline .stamped

/-- A write of a stamp, or of the front of it, puts the bytes behind those that
    are there. -/
theorem Writes.turn {w w' v : Progress} {old bytes new : Bytes} (h : Writes me w old bytes w')
    {d : Descriptor} (hw : m.WellFormed) (hh : Holds path me m (.owner d w))
    {x : Except IoError Unit} (ha : m.answer me (.write d new) = (x, m'))
    (hnew : written (old ++ new))
    (hwr : v.Written me (old.length + new.length) (some (old ++ new))) :
    Turn path me written (.owner d w) m (.owner d v) m' := by
  obtain ⟨f, hf, hme, -, -, -, hwritten⟩ := hh.file d rfl
  subst hme
  -- the file holds the old bytes, and stands open at their end
  have hold : f.offset = old.length ∧ m.tree.file? f.inode = some old := by
    cases h with
    | number | newline => exact hwritten
  obtain ⟨ho, hfile⟩ := hold
  obtain ⟨mode, owned, hn⟩ : ∃ mode owned, m.tree.node? f.inode = some ⟨.file old, mode, owned⟩ := by
    unfold FileTree.file? at hfile
    split at hfile <;> cases hfile
    rename_i hn
    exact ⟨_, _, hn⟩
  have hm : m' = (m.setTree (m.tree.setContent f.inode (.file (old ++ new)))).seek d f
      (old.length + new.length) := by
    simp only [Machine.answer, Machine.write, hf, hn, ho, Machine.overwrite_length] at ha
    exact (congrArg Prod.snd ha).symm
  subst hm
  exact turn_write hw hh hf hn hnew hwr

theorem Stamps.turn {w w' : Progress} {d : Descriptor} {c : Call}
    {answer : Except IoError Unit → c.Answer} (h : Stamps me d w c answer w')
    (hw : m.WellFormed) (hh : Holds path me m (.owner d w))
    (ha : m.answer me c = (answer (.ok ()), m')) :
    Turn path me (Stamp.Whole me) (.owner d w) m (.owner d w') m' := by
  obtain ⟨f, hf, hme, -, -, -, hwritten⟩ := hh.file d rfl
  cases h with
  | truncate =>
    rcases Machine.truncate_cases ha with ⟨_, hx, -⟩ | ⟨f', old, mode, owned, -, hf', hn, rfl⟩
    · cases hx
    · obtain rfl := Option.some.inj (hf.symm.trans hf')
      exact turn_truncate hw hh hf hn (Or.inl rfl) rfl
  | rewind =>
    simp only [Machine.answer, Machine.rewind, hf] at ha
    obtain rfl := congrArg Prod.snd ha
    exact turn_seek hw hh hf fun h => ⟨rfl, h⟩
  | number =>
    refine Writes.number.turn hw hh ha (Or.inr (Or.inl rfl)) ?_
    exact ⟨Nat.zero_add _, rfl⟩
  | newline =>
    exact Writes.newline.turn hw hh ha (Or.inr (Or.inr rfl)) rfl

/-- **A torn write is a turn.**  The front of the bytes is in the file. -/
theorem Stamps.turn_of_torn {w w' : Progress} {d file : Descriptor} {bytes : Bytes}
    {answer : Except IoError Unit → (Call.write file bytes).Answer}
    (h : Stamps me d w (.write file bytes) answer w') (hw : m.WellFormed)
    (hh : Holds path me m (.owner d w)) {n : Nat} {x : Except IoError Unit}
    (ha : m.answer me (.write d (bytes.take n)) = (x, m')) :
    Turn path me (Stamp.Torn me) (.owner d w) m (.leaving d (some .failure)) m' := by
  have hseen : Turn path me (Stamp.Torn me) (.owner d w) m (.owner d .seen) m' := by
    cases h with
    | number =>
      have hfront : Stamp.digits me <+: Stamp.text me := List.prefix_append _ _
      exact Writes.number.turn hw hh ha ((List.take_prefix n _).trans hfront) trivial
    | newline =>
      have hfront := (List.prefix_append_right_inj (Stamp.digits me)).2 (List.take_prefix n Stamp.newline)
      exact Writes.newline.turn hw hh ha hfront trivial
  exact hseen.become rfl (fun _ => Role.inside_of_file rfl) (fun _ _ _ => trivial)
      fun _ h => by cases h

theorem Machine.leadsTo_iff {d : Descriptor} {f : OpenFile} (hf : m.opened.get? d = some f) :
    m.leadsTo path d = true ↔ m.tree.Leads path f.inode := by
  unfold Machine.leadsTo FileTree.Leads
  simp only [hf]
  cases m.tree.find .node path <;> simp [eq_comm]

theorem turn_read {d : Descriptor} {bytes : Bytes} (hw : m.WellFormed)
    (hh : Holds path me m (.owner d .linked)) (ha : m.answer me (.read d) = (.ok bytes, m')) :
    Turn path me written (.owner d .linked) m (.owner d .seen) m' := by
  obtain ⟨f, hf, -⟩ := hh.file d rfl
  simp only [Machine.answer, Machine.read, hf] at ha
  obtain rfl := congrArg Prod.snd ha
  exact turn_seek hw hh hf fun _ => trivial

/-- **An answer of the machine is a turn.** -/
theorem Follows.turn {c : Call} {x : c.Answer} (h : Follows path me r c x r')
    (hw : m.WellFormed) (hh : Holds path me m r) (ha : m.answer me c = (x, m')) :
    Turn path me (Stamp.Whole me) r m r' m' := by
  have hw' := hw.answered ha
  have hfailed : ∀ {e}, c.failed? e = some x → (∀ p, c ≠ .makeDirs p) →
      Turn path me (Stamp.Whole me) r m r' m' := by
    intro e he hc
    rw [Machine.answer_failed ha he hc]
    exact h.turn_of_failed he hw hh
  cases h with
  | say =>
    obtain rfl := congrArg Prod.snd ha
    exact (Turn.idle hw hh rfl id fun _ _ h => h).congr hw' rfl rfl rfl rfl
  | ownPid | probe | readPath =>
    obtain rfl := congrArg Prod.snd ha
    exact .idle hw hh rfl id fun _ _ h => h
  | made hdir => exact turn_makeDirs hw hdir ha (Or.inl ⟨rfl, rfl⟩)
  | unmade hdir => exact turn_makeDirs hw hdir ha (Or.inr rfl)
  | opened hopens => exact turn_openFile hw hh hopens ha
  | locked => exact turn_tryLock hw hh ha
  | linked =>
    simp only [Machine.answer, Prod.mk.injEq] at ha
    obtain ⟨hleads, rfl⟩ := ha
    refine .own hw ⟨fun _ => hh.settled (Role.inside_of_file rfl), fun d' hd => ?_⟩ rfl rfl (.refl _)
      (fun _ _ => rfl) rfl
    cases hd
    obtain ⟨f, hf, hme, huse, ho, hlock⟩ := hh.file _ rfl
    exact ⟨f, hf, hme, huse, hlock, (Machine.leadsTo_iff hf).1 hleads, ho⟩
  | seen => exact turn_read hw hh ha
  | illegible =>
    exact (turn_read hw hh ha).become rfl (fun _ => Role.inside_of_file rfl) (fun _ _ _ => trivial)
      fun _ h => by cases h
  | stamped hs => exact hs.turn hw hh ha
  | unlink => exact turn_unlink hw hh ha
  | unlock => exact turn_unlock hw hh ha
  | close =>
    obtain rfl := congrArg Prod.snd ha
    exact turn_close hw hh
  | unopened | unlocked | unread => exact hfailed rfl fun _ h => by cases h
  | orphaned => exact hfailed (e := .notText) rfl fun _ h => by cases h
  | unstamped hs =>
    cases hs with
    | truncate | rewind | number | newline => exact hfailed rfl fun _ h => by cases h

end NamedMutex
