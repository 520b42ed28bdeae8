/-
  Operations on different names.

  The lock files of different names are different entries of their directory, and the
  registry tells their paths apart.  So two jobs on them have nothing to do with each other,
  unless the file that one of them gives up has the name of the other.

  * `Pair` are two such jobs on a machine, and `Pair.keeps` says what the first leaves alone;
  * `Neighbours` are those that give up no file of the other's name; `Neighbours.commute`:
    the order in which they are done does not matter;
  * `Pair.independent` is the main statement, `interference_by_renaming` a handle whose lock
    file got another name.
-/
import NamedMutex.Proofs.Agreements

namespace NamedMutex

open FileTree

/-! ## What a deed leaves alone -/

variable {t t' : FileTree} {D i : Inode} {e e' : Bytes} {deed : Deed}

namespace FileTree

/-- A directory without links: no entry is a symbolic link or the directory itself, and no
    two entries are one file. -/
structure Plain (t : FileTree) (D : Inode) : Prop where
  noLink : ∀ e, t.NoLink D e
  ne : ∀ e, t.child? D e ≠ some D
  apart : ∀ e e' i, t.child? D e = some i → t.child? D e' = some i → e = e'

theorem plain_of_single {parent : Inode} (hd : t.directory? D = some (parent, ⟨[(e, i)]⟩))
    (hi : (t.file? i).isSome = true) : t.Plain D := by
  obtain ⟨bytes, hfile⟩ := Option.isSome_iff_exists.1 hi
  have hne : i ≠ D := by
    rintro rfl
    have hnot := isDirectory_of_file? hfile
    rw [isDirectory_iff.2 ⟨_, _, hd⟩] at hnot
    cases hnot
  have hchild : ∀ x j, t.child? D x = some j → x = e ∧ j = i := by
    intro x j hj
    rw [child?_eq hd] at hj
    by_cases hx : e = x
    · simp only [Table.get?, hx, List.find?_cons, decide_true, Option.map_some,
        Option.some.injEq] at hj
      exact ⟨hx.symm, hj.symm⟩
    · simp [Table.get?, hx] at hj
  refine ⟨fun x j hj => ?_, fun x hj => ?_, fun x x' j hj hj' => ?_⟩
  · rw [(hchild x j hj).2]
    exact link?_of_file? hfile
  · exact hne (hchild x D hj).2.symm
  · rw [(hchild x j hj).1, (hchild x' j hj').1]

theorem Does.le_next (h : FileTree.Does D e deed t t') : t.next ≤ t'.next := by
  rw [h.next]
  split
  · exact Nat.le_succ _
  · exact Nat.le_refl _

theorem KeepsDirectory.may (h : t.KeepsDirectory t' D) (hd : t.isDirectory D = true) (a : Access) :
    t'.may D a = t.may D a := by
  obtain ⟨parent, entries, hentries⟩ := isDirectory_iff.1 hd
  obtain ⟨mode, owned, hn⟩ := directory?_eq_some.1 hentries
  obtain ⟨entries', hn'⟩ := h _ _ _ _ hn
  rw [may_eq, may_eq, hn, hn']
  rfl

theorem Does.child?_of_ne (h : FileTree.Does D e deed t t') (he : e' ≠ e) :
    t'.child? D e' = t.child? D e' := by
  rw [h.entries]
  refine amend_of_ne fun p hp => ?_
  rw [Deed.entry_key hp]
  exact he

/-- **What there is of another name is left alone**, if its file is not the one that is stamped. -/
theorem Does.slot (h : FileTree.Does D e deed t t') (hd : t.isDirectory D = true) (he : e' ≠ e)
    (hD : t.child? D e' ≠ some D) (hi : ∀ i, t.child? D e' = some i → deed.stamps? ≠ some i) :
    t'.slot D e' = t.slot D e' := by
  have hnode : ∀ i, t.child? D e' = some i → t'.node? i = t.node? i := by
    intro i hchild
    have hne : i ≠ D := by
      rintro rfl
      exact hD hchild
    rw [h.nodes i hne]
    refine amend_of_ne fun p hp => ?_
    rintro rfl
    exact hi _ hchild (Deed.node_key hp)
  have hmay := h.directory.may hd
  have hfound : (t'.child? D e').map (fun i => (i, t'.node? i)) =
      (t.child? D e').map fun i => (i, t.node? i) := by
    rw [h.child?_of_ne he]
    cases hi : t.child? D e' with
    | none => rfl
    | some i => rw [Option.map_some, Option.map_some, hnode i hi]
  simp only [FileTree.slot, mayChange, hmay, hfound]

end FileTree

theorem Machine.Does.lock {m m' : Machine} (h : m.Does D e deed m') (he : e' ≠ e)
    (hi : ∀ i, m.tree.child? D e' = some i → deed.inode? ≠ some i) :
    (m'.part D e').lock = (m.part D e').lock := by
  rw [Machine.part, Machine.part, h.tree.child?_of_ne he]
  cases hfile : m.tree.child? D e' with
  | none => rfl
  | some i =>
    rw [Option.bind_some, Option.bind_some, h.locks]
    refine amend_of_ne fun p hp => ?_
    rintro rfl
    exact hi _ hfile (Deed.lock_key hp)

/-! ## Runs of jobs -/

namespace Job

variable {x : Job} {m m' : Machine} {D i : Inode} {d : Descriptor} {r : Report}

/-- The job ends so, with nobody else at work. -/
def Runs (x : Job) (m : Machine) (r : Report) (m' : Machine) : Prop :=
  m.run x.process x.program = (.returned r, m')

/-- The job keeps off a name: the file of which it gives up an opening is not to be found under
    the name. -/
def KeepsOff (x : Job) (m : Machine) (D : Inode) (e : Bytes) : Prop :=
  ∀ d f, x.held? = some d → m.opened.get? d = some f → m.tree.child? D e ≠ some f.inode

theorem Runs.wellFormed (h : x.Runs m r m') (hw : m.WellFormed) : m'.WellFormed := by
  have hw' := Machine.run_wellFormed hw x.process x.program
  rwa [show m.run x.process x.program = _ from h] at hw'

theorem exists_runs (hw : m.WellFormed) (hx : x.Fits m D) (hlink : m.tree.NoLink D x.entry) :
    ∃ r m', x.Runs m r m' ∧ r.seen id = x.report m D ∧ x.Done m D m' := by
  obtain ⟨r, m', clock, said, -, hrun, hseen, hdone⟩ := (x.conforms hw hx hlink).run
  exact ⟨r, m'.moment clock said, hrun, hseen, hdone.does.moment clock said,
    hdone.tallies.counts, hdone.tallies.sound⟩

theorem Fits.lock (hx : x.Fits m D) (hw : m.WellFormed) (h : (x.deed m D).inode? = some i)
    (hlock : m.locks.get? i = some d) : x.held? = some d := by
  rcases x.deed_cases m D with hdeed | ⟨j, mode, owned, hdeed, hj⟩ | ⟨d', f, removes, hd, hf, hdeed⟩
    <;> rw [hdeed] at h <;> cases h
  · rcases hj with ⟨-, hfree⟩ | rfl
    · rw [hfree] at hlock
      cases hlock
    · rw [hw.locks_next] at hlock
      cases hlock
  · obtain ⟨f', hf', hlock'⟩ := hx.held d' hd
    rw [hf] at hf'
    cases hf'
    rw [hlock] at hlock'
    cases hlock'
    exact hd

end Job

/-! ## Jobs on different names -/

namespace Machine

/-- What a job has left alone: what there is of the name `e` whose lock path is `path`, and all
    openings but the one that it gave up. -/
structure Keeps (m m' : Machine) (D : Inode) (e : Bytes) (path : Path)
    (given : Option Descriptor) : Prop where
  /-- Its entry, its file with its bytes, and the rights to the directory. -/
  slot : m'.tree.slot D e = m.tree.slot D e
  opened : ∀ d f, given ≠ some d → m.opened.get? d = some f → m'.opened.get? d = some f ∧
    (m.locks.get? f.inode = some d → m'.locks.get? f.inode = some d)
  count : ∀ pid, (m'.registry pid).count path = (m.registry pid).count path

/-- Two jobs on different names of a directory without links. -/
structure Pair (m : Machine) (D : Inode) (x y : Job) : Prop where
  wellFormed : m.WellFormed
  sound : ∀ pid, (m.registry pid).Sound
  plain : m.tree.Plain D
  fits : x.Fits m D
  fits' : y.Fits m D
  names : x.name ≠ y.name
  /-- No two handles have one opening. -/
  handles : ∀ d, x.held? = some d → y.held? ≠ some d

/-- Two such jobs, neither of which gives up a file that has the name of the other. -/
structure Neighbours (m : Machine) (D : Inode) (x y : Job) : Prop extends m.Pair D x y where
  keepsOff : x.KeepsOff m D y.entry
  keepsOff' : y.KeepsOff m D x.entry

variable {m mx my mxy myx : Machine} {x y : Job}

/-! ### After one of them -/

namespace Pair

theorem symm (h : m.Pair D x y) : m.Pair D y x where
  wellFormed := h.wellFormed
  sound := h.sound
  plain := h.plain
  fits := h.fits'
  fits' := h.fits
  names := h.names.symm
  handles d hy hx := h.handles d hx hy

theorem entries (h : m.Pair D x y) : y.entry ≠ x.entry :=
  fun he => h.names (lockEntry_injective he).symm

theorem paths (h : m.Pair D x y) {q : Path} (hx : x.path.Same q) : ¬ y.path.Same q :=
  fun hy => h.names (eq_of_same_lockPath h.fits.valid h.fits'.valid (hx.trans hy.symm))

theorem stamps_ne (h : m.Pair D x y) (hi : m.tree.child? D y.entry = some i) :
    (x.deed m D).stamps? ≠ some i := by
  intro hx
  rcases x.deed_stamps hx with hchild | rfl
  · exact h.entries (h.plain.apart _ _ _ hi hchild)
  · exact Nat.lt_irrefl _ (h.wellFormed.tree.lt_next (h.wellFormed.tree.entry hi))

/-- **What is of the other name is left alone.** -/
theorem keeps (h : m.Pair D x y) (hx : x.Done m D mx) : m.Keeps mx D y.entry y.path x.held? := by
  constructor
  case slot =>
    exact hx.does.tree.slot h.fits.finds.isDirectory h.entries (h.plain.ne _) fun i hi =>
      h.stamps_ne hi
  case opened =>
    intro d f hgiven hf
    constructor
    · rw [hx.does.opened, amend_of_ne fun p hp => ?_, hf]
      rintro rfl
      rcases x.deed_file (Deed.opening_key hp) with hd | ⟨-, hd⟩
      · exact hgiven hd
      · exact Nat.ne_of_lt (h.wellFormed.opened hf).1 hd
    · intro hlock
      rw [hx.does.locks, amend_of_ne fun p hp => ?_, hlock]
      rintro hi
      exact hgiven (h.fits.lock h.wellFormed (hi ▸ Deed.lock_key hp) hlock)
  case count =>
    intro pid
    rw [hx.tallies.counts pid (h.sound pid)]
    exact if_neg fun hsame => h.paths hsame.2 rfl

/-- The file of the other name is not a job's, unless the job gives it up. -/
theorem child_ne (h : m.Pair D x y) (hoff : x.KeepsOff m D y.entry) (hx : x.Owns m D i) :
    m.tree.child? D y.entry ≠ some i := by
  intro hy
  rcases hx with hx | ⟨d, f, hd, hf, rfl⟩
  · exact h.entries (h.plain.apart _ _ _ hy hx)
  · exact hoff d f hd hf hy

/-- The lock of its file is left alone as well, unless it is given up. -/
theorem part (h : m.Pair D x y) (hoff : x.KeepsOff m D y.entry) (hx : x.Done m D mx) :
    mx.part D y.entry = m.part D y.entry := by
  have hlock := hx.does.lock h.entries fun i hi hinode =>
    h.child_ne hoff (x.owns_of_deed hinode (h.wellFormed.tree.lt_next (h.wellFormed.tree.entry hi))) hi
  have hslot : (mx.part D y.entry).slot = (m.part D y.entry).slot := (h.keeps hx).slot
  exact Part.ext hslot hlock

theorem noLink_after (h : m.Pair D x y) (hx : x.Done m D mx) : mx.tree.NoLink D y.entry :=
  (h.plain.noLink _).of_slot_eq (h.keeps hx).slot

theorem held_after (h : m.Pair D x y) (hx : x.Done m D mx) {d : Descriptor}
    (hd : y.held? = some d) : ∃ f, m.opened.get? d = some f ∧ mx.opened.get? d = some f ∧
      mx.locks.get? f.inode = some d := by
  obtain ⟨f, hf, hlock⟩ := h.fits'.held d hd
  obtain ⟨hf', hlock'⟩ := (h.keeps hx).opened d f (fun hx => h.handles d hx hd) hf
  exact ⟨f, hf, hf', hlock' hlock⟩

theorem fits_after (h : m.Pair D x y) (hx : x.Done m D mx) : y.Fits mx D where
  valid := h.fits'.valid
  finds := hx.does.tree.finds y.dir h.fits'.finds
  concerns := h.fits'.concerns
  held d hd := by
    obtain ⟨f, -, hf, hlock⟩ := h.held_after hx hd
    exact ⟨f, hf, hlock⟩

/-- **Counts of registrations do not depend on the order.** -/
theorem counts (h : m.Pair D x y) {f g : Nat → Nat}
    (hx : m.Tallies x.process x.path f mx) (hxy : mx.Tallies y.process y.path g mxy)
    (hy : m.Tallies y.process y.path g my) (hyx : my.Tallies x.process x.path f myx) (pid : Pid)
    (q : Path) : (myx.registry pid).count q = (mxy.registry pid).count q := by
  have hsound := h.sound pid
  rw [hyx.counts pid (hy.sound pid hsound), hy.counts pid hsound,
    hxy.counts pid (hx.sound pid hsound), hx.counts pid hsound]
  by_cases hxq : pid = x.process ∧ x.path.Same q
  · have hyq : ¬ (pid = y.process ∧ y.path.Same q) := fun hyq => h.paths hxq.2 hyq.2
    simp only [if_pos hxq, if_neg hyq]
  · simp only [if_neg hxq]

end Pair

namespace Neighbours

theorem symm (h : m.Neighbours D x y) : m.Neighbours D y x :=
  ⟨h.toPair.symm, h.keepsOff', h.keepsOff⟩

theorem not_owns (h : m.Neighbours D x y) (hx : x.Owns m D i) : ¬ y.Owns m D i := by
  rintro (hy | ⟨d', f', hd', hf', hi⟩)
  · exact h.child_ne h.keepsOff hx hy
  rcases hx with hx | ⟨d, f, hd, hf, rfl⟩
  · exact h.keepsOff' d' f' hd' hf' (hi ▸ hx)
  · -- the lock of the file is that of both openings
    obtain ⟨_, hopened, hlock⟩ := h.fits.held d hd
    obtain ⟨_, hopened', hlock'⟩ := h.fits'.held d' hd'
    rw [hf] at hopened
    rw [hf'] at hopened'
    cases hopened
    cases hopened'
    rw [hi, hlock, Option.some.injEq] at hlock'
    exact h.handles d hd (hlock' ▸ hd')

/-- Nothing has changed for the other job. -/
theorem agrees (h : m.Neighbours D x y) (hx : x.Done m D mx) : y.Agrees D m mx where
  part := h.part h.keepsOff hx
  registered := by
    have hsound := hx.tallies.sound y.process (h.sound y.process)
    rw [Job.isRegistered, Job.isRegistered, Bool.eq_iff_iff, hsound.contains_iff,
      (h.sound y.process).contains_iff, (h.keeps hx).count]
  processes := hx.does.processes
  held d hd := by
    obtain ⟨f, hf, hf', -⟩ := h.held_after hx hd
    rw [hf, hf']

/-- The jobs do nothing to the same file, and nothing to the same opening. -/
theorem disjoint (h : m.Neighbours D x y) (hx : x.Done m D mx) :
    (x.deed m D).Disjoint (y.deed mx D) := by
  constructor
  · intro i hi hi'
    rcases y.deed_inode hi' with hy | ⟨-, rfl⟩
    · have hy' := (h.agrees hx).symm.owns hy
      exact h.not_owns (x.owns_of_deed hi (hy'.lt_next h.wellFormed)) hy'
    · -- a file that is new after the first job
      rcases x.deed_inode hi with hx' | ⟨hmakes, hnext⟩
      · exact Nat.not_le.2 (hx'.lt_next h.wellFormed) hx.does.tree.le_next
      · have hlater := hx.does.tree.next
        rw [if_pos (hnext ▸ hmakes), hnext] at hlater
        exact Nat.succ_ne_self _ hlater.symm
  · intro d hd hd'
    rcases y.deed_file hd' with hy | ⟨-, rfl⟩
    · rcases x.deed_file hd with hx' | ⟨-, rfl⟩
      · exact h.handles d hx' hy
      · exact Nat.lt_irrefl _ (h.fits'.held_lt h.wellFormed hy)
    · rcases x.deed_file hd with hx' | ⟨hopens, -⟩
      · exact Nat.not_le.2 (h.fits.held_lt h.wellFormed hx') hx.does.nextDescriptor
      · exact Nat.succ_ne_self _ (hx.does.opens _ hopens).2.symm

/-! ### In either order -/

/-- Numbers that are new in one order are exchanged for those that are new in the other. -/
theorem exists_renumbering (h : m.Neighbours D x y) (hw : mx.WellFormed) (hx : x.Done m D mx)
    (hy : y.Done m D my) :
    ∃ (ι : Equiv.Perm Inode) (τ : Equiv.Perm Descriptor), FixesBelow m.tree.next ι ∧
      FixesBelow m.nextDescriptor τ ∧
      ((x.deed m D).stamps? = some m.tree.next → ι m.tree.next = my.tree.next) ∧
      ((x.deed m D).opens? = some m.nextDescriptor → τ m.nextDescriptor = my.nextDescriptor) ∧
      ((y.deed mx D).stamps? = some mx.tree.next → ι mx.tree.next = m.tree.next) ∧
      ((y.deed mx D).opens? = some mx.nextDescriptor → τ mx.nextDescriptor = m.nextDescriptor) := by
  have hfirst := (h.agrees hx).symm.deed_renew hw (h.fits_after hx)
  have hmakes : (y.deed mx D).stamps? = some mx.tree.next →
      my.tree.next = m.tree.next + 1 := by
    intro hstamps
    rw [hy.does.tree.next, hfirst, Deed.stamps?_renumber, hstamps, Option.map_some, Job.renew_next]
    exact if_pos rfl
  have hopens : (y.deed mx D).opens? = some mx.nextDescriptor →
      my.nextDescriptor = m.nextDescriptor + 1 := by
    intro hopen
    refine (hy.does.opens m.nextDescriptor ?_).2
    rw [hfirst, Deed.opens?_renumber, hopen, Option.map_some, Job.renew_next]
  obtain ⟨ι, hι, hιx, hιy⟩ := exists_fixesBelow (fun hnode => hx.does.tree.next.trans (if_pos hnode))
    hmakes hx.does.tree.le_next hy.does.tree.le_next
  obtain ⟨τ, hτ, hτx, hτy⟩ := exists_fixesBelow (fun hopen => (hx.does.opens _ hopen).2) hopens
    hx.does.nextDescriptor hy.does.nextDescriptor
  exact ⟨ι, τ, hι, hτ, hιx, hτx, hιy, hτy⟩

/-- **The order of the jobs does not matter**: they reply the same, and leave the same machine,
    but for new numbers. -/
theorem commute (h : m.Neighbours D x y) (hw : mx.WellFormed) (hx : x.Done m D mx)
    (hxy : y.Done mx D mxy) (hy : y.Done m D my) (hyx : x.Done my D myx) :
    ∃ (ι : Equiv.Perm Inode) (τ : Equiv.Perm Descriptor), FixesBelow m.tree.next ι ∧
      FixesBelow m.nextDescriptor τ ∧ x.report my D = (x.report m D).seen τ ∧
      y.report m D = (y.report mx D).seen τ ∧ mxy.Renumbered D ι τ myx := by
  obtain ⟨ι, τ, hι, hτ, hιx, hτx, hιy, hτy⟩ := h.exists_renumbering hw hx hy
  have hax : x.Agrees D m my := h.symm.agrees hy
  have hay : y.Agrees D mx m := (h.agrees hx).symm
  have hιx' : ∀ i, x.Owns m D i → ι i = i := fun i hi => hι i (hi.lt_next h.wellFormed)
  have hιy' : ∀ i, y.Owns mx D i → ι i = i := fun i hi =>
    hι i ((hay.owns hi).lt_next h.wellFormed)
  have hτx' : ∀ d, x.held? = some d → τ d = d := fun d hd => hτ d (h.fits.held_lt h.wellFormed hd)
  have hτy' : ∀ d, y.held? = some d → τ d = d := fun d hd => hτ d (h.fits'.held_lt h.wellFormed hd)
  have hdx : x.deed my D = (x.deed m D).renumber ι τ := hax.deed_eq hιx' hτx' hιx hτx
  have hdy : y.deed m D = (y.deed mx D).renumber ι τ := hay.deed_eq hιy' hτy' hιy hτy
  refine ⟨ι, τ, hι, hτ, ?_, ?_, ?_⟩
  · exact hax.report_eq hιx' hιx hτx h.fits (h.symm.fits_after hy) (h.plain.noLink _)
  · exact hay.report_eq hιy' hιy hτy (h.fits_after hx) h.fits'
      ((h.agrees hx).noLink (h.plain.noLink _))
  · have hty := hy.tallies
    have htx := hyx.tallies
    rw [hdy, Deed.tally_renumber] at hty
    rw [hdx, Deed.tally_renumber] at htx
    have hcounts := h.counts hx.tallies hxy.tallies hty htx
    exact Does.renumbered h.wellFormed h.fits.finds.isDirectory hx.does hxy.does (hdy ▸ hy.does)
      (hdx ▸ hyx.does) h.entries.symm (h.disjoint hx) hι hτ hcounts

end Neighbours

/-! ### A release and an attempt -/

/-- A process has acquired a mutex in the root directory. -/
def locked : Machine := ((bare 1).run 1 (Handle.acquire Contest.root "a")).2

/-- It releases its handle. -/
def releaseJob : Job :=
  ⟨1, Contest.root, "a", .release (.ofAttempt "a" (lockPath Contest.root "a") (some 0))⟩

/-- It makes an attempt on another name. -/
def attemptJob : Job := ⟨1, Contest.root, "b", .attempt⟩

theorem locked_wellFormed : locked.WellFormed := run_wellFormed (bare_wellFormed 1) 1 _

theorem pair_of_file {m : Machine} {e : Bytes} (hw : m.WellFormed) (hregistries : m.registries = .empty)
    (hdir : m.tree.directory? 0 = some (0, ⟨[(e, 2)]⟩)) (hfile : (m.tree.file? 2).isSome = true)
    (hroot : m.tree.root = 0) (hopened : m.opened.get? 0 = some ⟨2, 2, 1⟩)
    (hlock : m.locks.get? 2 = some 0) : m.Pair 0 releaseJob attemptJob := by
  have hd : m.tree.isDirectory 0 = true := isDirectory_iff.2 ⟨_, _, hdir⟩
  have hfinds : m.tree.Finds Contest.root 0 := by
    have horigin : m.tree.origin m.tree.cwd Contest.root = 0 := hroot
    refine ⟨⟨none, ?_⟩, hd⟩
    rw [horigin]
    exact .here
  constructor
  case wellFormed => exact hw
  case sound =>
    intro pid
    have hempty : m.registry pid = .empty := by
      rw [registry, hregistries]
      rfl
    rw [hempty]
    exact Registry.sound_empty
  case plain => exact plain_of_single hdir hfile
  case fits =>
    refine ⟨by decide, hfinds, rfl, fun d hd => ?_⟩
    cases hd
    exact ⟨_, hopened, hlock⟩
  case fits' => exact ⟨by decide, hfinds, trivial, fun d hd => by cases hd⟩
  case names => decide
  case handles => exact fun d _ h => by cases h

/-! ### Different names -/

/-- **Different names do not interfere.**  Two jobs on different names of a directory without
    links end in either order.  The first leaves alone the entry and the file of the other name,
    its count of registrations and all other openings, and the lock as well unless it gives up
    that very file.  It replies the same, but for the number of a new opening, on every machine
    that agrees on what is of its own name.  If neither job gives up a file that has the name
    of the other, both reply the same in the other order, and the machine becomes the same, but
    for the time and for the numbers that new files and openings get. -/
theorem Pair.independent (h : m.Pair D x y) : ∃ rx mx ry' mxy ry my rx' myx,
    x.Runs m rx mx ∧ y.Runs mx ry' mxy ∧ y.Runs m ry my ∧ x.Runs my rx' myx ∧
    m.Keeps mx D y.entry y.path x.held? ∧
    (x.KeepsOff m D y.entry → mx.part D y.entry = m.part D y.entry) ∧
    (∀ m₂, m₂.WellFormed → x.Fits m₂ D → x.Agrees D m m₂ → ∃ r₂ m₂', x.Runs m₂ r₂ m₂' ∧
      r₂.seen (fun _ => 0) = rx.seen fun _ => 0) ∧
    (x.KeepsOff m D y.entry → y.KeepsOff m D x.entry →
      ∃ (ι : Equiv.Perm Inode) (τ : Equiv.Perm Descriptor), FixesBelow m.tree.next ι ∧
        FixesBelow m.nextDescriptor τ ∧ rx'.seen id = rx.seen τ ∧ ry.seen id = ry'.seen τ ∧
        mxy.Renumbered D ι τ myx) := by
  have hlink := h.plain.noLink x.entry
  obtain ⟨rx, mx, hrx, hsx, hx⟩ := Job.exists_runs h.wellFormed h.fits hlink
  obtain ⟨ry, my, hry, hsy, hy⟩ := Job.exists_runs h.wellFormed h.fits' (h.plain.noLink _)
  have hwx := hrx.wellFormed h.wellFormed
  obtain ⟨ry', mxy, hry', hsy', hxy⟩ := Job.exists_runs hwx (h.fits_after hx) (h.noLink_after hx)
  obtain ⟨rx', myx, hrx', hsx', hyx⟩ := Job.exists_runs (hry.wellFormed h.wellFormed)
    (h.symm.fits_after hy) (h.symm.noLink_after hy)
  refine ⟨rx, mx, ry', mxy, ry, my, rx', myx, hrx, hry', hry, hrx', h.keeps hx,
    fun hoff => h.part hoff hx, ?_, ?_⟩
  · intro m₂ hw₂ hx₂ hagrees
    obtain ⟨r₂, m₂', hr₂, hs₂, -⟩ := Job.exists_runs hw₂ hx₂ (hagrees.noLink hlink)
    have hreport := hagrees.report_renew h.wellFormed h.fits hx₂ hlink
    rw [← hs₂, ← hsx, Report.seen_seen] at hreport
    have hseen := congrArg (Report.seen fun _ => 0) hreport
    rw [Report.seen_seen, Report.seen_seen] at hseen
    exact ⟨r₂, m₂', hr₂, hseen⟩
  · intro hoff hoff'
    have hneighbours : m.Neighbours D x y := ⟨h, hoff, hoff'⟩
    obtain ⟨ι, τ, hι, hτ, hreport, hreport', hrenumbered⟩ :=
      hneighbours.commute hwx hx hxy hy hyx
    refine ⟨ι, τ, hι, hτ, ?_, ?_, hrenumbered⟩
    · rw [hsx', hreport, ← hsx, Report.seen_seen]
      rfl
    · rw [hsy, hreport', ← hsy', Report.seen_seen]
      rfl

/-- A release and an attempt on another name may come in either order. -/
theorem independent_of_release : locked.Pair 0 releaseJob attemptJob ∧
    releaseJob.KeepsOff locked 0 attemptJob.entry ∧ attemptJob.KeepsOff locked 0 releaseJob.entry ∧
    ∃ rx mx ry' mxy ry my rx' myx, releaseJob.Runs locked rx mx ∧ attemptJob.Runs mx ry' mxy ∧
      attemptJob.Runs locked ry my ∧ releaseJob.Runs my rx' myx ∧
      mx.part 0 attemptJob.entry = locked.part 0 attemptJob.entry ∧
      ∃ (ι : Equiv.Perm Inode) (τ : Equiv.Perm Descriptor), rx'.seen id = rx.seen τ ∧
        ry.seen id = ry'.seen τ ∧ mxy.Renumbered 0 ι τ myx := by
  have hpair : locked.Pair 0 releaseJob attemptJob :=
    pair_of_file locked_wellFormed rfl rfl (by decide +kernel) rfl rfl rfl
  have hoff : releaseJob.KeepsOff locked 0 attemptJob.entry := by
    intro d f _ _ hchild
    have hvacant : locked.tree.child? 0 attemptJob.entry = none := by decide +kernel
    rw [hvacant] at hchild
    cases hchild
  have hoff' : attemptJob.KeepsOff locked 0 releaseJob.entry := fun d f hd => by cases hd
  obtain ⟨rx, mx, ry', mxy, ry, my, rx', myx, hrx, hry', hry, hrx', -, hpart, -, hcommute⟩ :=
    hpair.independent
  obtain ⟨ι, τ, -, -, hx, hy, hrenumbered⟩ := hcommute hoff hoff'
  exact ⟨hpair, hoff, hoff', rx, mx, ry', mxy, ry, my, rx', myx, hrx, hry', hry, hrx', hpart hoff,
    ι, τ, hx, hy, hrenumbered⟩

/-- The lock file was given another name, from outside. -/
def relabelled : Machine :=
  let renamed := locked.tree.rename (lockPath Contest.root "a") (lockPath Contest.root "b")
  locked.setTree (renamed.toOption.getD locked.tree)

theorem relabelled_wellFormed : relabelled.WellFormed := by
  let bare := (locked.tree.remove 0 (lockEntry "a")).remove 0 (lockEntry "b")
  have htree : relabelled.tree = bare.enter 0 (lockEntry "b") 2 := by rfl
  have hempty : bare.directory? 0 = some (0, ⟨[]⟩) := by rfl
  have hw := locked_wellFormed
  refine { hw with tree := ?_, opened := fun h => ⟨(hw.opened h).1, ?_⟩ }
  · rw [htree]
    exact hw.tree.remove.remove.enter (by decide +kernel)
  · rw [htree]
    refine (within_enter hempty rfl).node ?_
    rw [node?_remove, node?_remove]
    exact (hw.opened h).2

/-- **Where a lock file has got the name of another mutex**, the handle has locked that mutex: an
    attempt on it fails, but succeeds once the handle is released. -/
theorem interference_by_renaming : relabelled.Pair 0 releaseJob attemptJob ∧
    ∃ rx mx my d mxy, releaseJob.Runs relabelled rx mx ∧
      mx.part 0 attemptJob.entry ≠ relabelled.part 0 attemptJob.entry ∧
      attemptJob.Runs relabelled (.handle (.ok (.ofAttempt "b" attemptJob.path none))) my ∧
      attemptJob.Runs mx (.handle (.ok (.ofAttempt "b" attemptJob.path (some d)))) mxy := by
  have hpair : relabelled.Pair 0 releaseJob attemptJob :=
    pair_of_file relabelled_wellFormed rfl rfl (by decide +kernel) rfl rfl rfl
  refine ⟨hpair, _, _, _, _, _, rfl, fun hpart => ?_, rfl, rfl⟩
  have hlock := congrArg Part.lock hpart
  revert hlock
  decide +kernel

end Machine

end NamedMutex
