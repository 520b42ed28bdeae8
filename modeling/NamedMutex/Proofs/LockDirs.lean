/-
  Directories of lock files.

  In a directory to which a path leads (`Home`) the lock files of names that fit (`Fits`)
  are entries, and what is done to one of them leaves the others and the directory alone.

  * `Home.settled`, `Home.leads`, `Home.openPath_vacant`, `Home.unlink`: what the paths of
    lock files are worth there;
  * `Leads.settled`: where there is a lock file, there is its directory;
  * `Home.mono`, `Home.remove`: the directory stays while files come and go;
  * `Lies` is a lock file that is there; `Lies.opens` and `Home.opens` say what opening one
    makes of the tree.
-/
import NamedMutex.Proofs.LockPaths
import NamedMutex.Proofs.Unopposed

namespace NamedMutex

/-- A name that the file system has room for in a directory. -/
structure Fits (dir : Path) (name : String) : Prop where
  valid : IsValidName name
  entry : (lockEntry name).length ≤ FileTree.nameLimit
  path : FileTree.refusal? (lockPath dir name) = none

theorem Fits.isLookedUp {dir : Path} {name : String} (h : Fits dir name) :
    FileTree.IsLookedUp (lockEntry name) := by
  have hlen := five_le_length_lockEntry name
  refine ⟨lockEntry_ne_nil name, ?_, ?_, h.entry⟩ <;>
  · intro heq
    rw [heq] at hlen
    exact absurd hlen (by decide)

namespace FileTree

variable {t t' : FileTree} {dir : Path} {D i : Inode} {name : String}

/-- A path leads to a directory in which entries may be made and removed.  The empty
    path is that of the working directory. -/
structure Home (t : FileTree) (dir : Path) (D : Inode) : Prop where
  walk : ∃ e, Walks t .node linkLimit (t.origin t.cwd dir) none (bareSteps dir) (.found D e)
  isDirectory : t.isDirectory D = true
  write : t.may D .write = true
  search : t.may D .search = true

/-! ## Ways to lock files -/

theorem leads_of_toOption {t : FileTree} {p : Path} {i : Inode}
    (h : (t.find .node p).toOption = some i) : t.Leads p i := by
  unfold Leads
  cases hfind : t.find .node p with
  | error e =>
    rw [hfind] at h
    cases h
  | ok j =>
    rw [hfind] at h
    cases h
    rfl

theorem Walks.snoc {aim : Aim} {b : Nat} {at_ : Inode} {e e₁ : Option (Inode × Bytes)}
    {names : List Bytes} {n : Bytes} {p q : Place} (h : Walks t .node b at_ e names q)
    (hq : q = .found D e₁) (hn : n ≠ []) (hstep : ∀ {b e}, Walks t aim b D e [n] p) :
    Walks t aim b at_ e (names ++ [n]) p := by
  have hfile : ∀ rest, ¬ AsksFile aim (rest ++ [n]) := by
    rintro rest ⟨-, h⟩
    cases rest with
    | nil => exact hn (List.singleton_inj.1 h)
    | cons x xs => cases xs <;> cases h
  induction h with
  | here =>
    cases hq
    exact hstep
  | slash hd _ ih => exact .slash hd (ih hq)
  | stay hd hmay _ ih => exact .stay hd hmay (ih hq)
  | up hd hmay _ ih => exact .up hd hmay (ih hq)
  | vacant => cases hq
  | entry hl _ hlink _ ih => exact .entry hl (hfile _) hlink (ih hq)
  | linkItself _ haim => cases haim
  | link hl _ hlink _ ht _ ih =>
    exact .link hl (hfile _) hlink (by simp) ht ((List.append_assoc _ _ _) ▸ ih hq)

/-- A walk comes by directories all the way, and so it ends if it leads to one. -/
theorem Walks.of_prefix {b : Nat} {at_ j : Inode} {e e' : Option (Inode × Bytes)}
    {names all : List Bytes} {p : Place} (h : Walks t .node b at_ e all p) (hp : p = .found j e')
    (hall : names <+: all) (hj : names = all → t.isDirectory j = true) :
    ∃ i e₁, Walks t .node b at_ e names (.found i e₁) ∧ t.isDirectory i = true := by
  have hfile : ∀ rest, ¬ AsksFile .node rest := fun _ h => by cases h.1
  induction h generalizing names with
  | here =>
    cases hp
    obtain rfl := List.prefix_nil.1 hall
    exact ⟨_, _, .here, hj rfl⟩
  | slash hd _ ih =>
    cases names with
    | nil => exact ⟨_, _, .here, hd⟩
    | cons n ns =>
      obtain ⟨rfl, hrest⟩ := List.cons_prefix_cons.1 hall
      obtain ⟨i, e₁, h, hi⟩ := ih hp hrest fun h => hj (h ▸ rfl)
      exact ⟨i, e₁, .slash hd h, hi⟩
  | stay hd hmay _ ih =>
    cases names with
    | nil => exact ⟨_, _, .here, hd⟩
    | cons n ns =>
      obtain ⟨rfl, hrest⟩ := List.cons_prefix_cons.1 hall
      obtain ⟨i, e₁, h, hi⟩ := ih hp hrest fun h => hj (h ▸ rfl)
      exact ⟨i, e₁, .stay hd hmay h, hi⟩
  | up hd hmay _ ih =>
    cases names with
    | nil => exact ⟨_, _, .here, isDirectory_iff.2 ⟨_, _, hd⟩⟩
    | cons n ns =>
      obtain ⟨rfl, hrest⟩ := List.cons_prefix_cons.1 hall
      obtain ⟨i, e₁, h, hi⟩ := ih hp hrest fun h => hj (h ▸ rfl)
      exact ⟨i, e₁, .up hd hmay h, hi⟩
  | vacant => cases hp
  | entry hl _ hlink _ ih =>
    cases names with
    | nil => exact ⟨_, _, .here, hl.isDirectory⟩
    | cons n ns =>
      obtain ⟨rfl, hrest⟩ := List.cons_prefix_cons.1 hall
      obtain ⟨i, e₁, h, hi⟩ := ih hp hrest fun h => hj (h ▸ rfl)
      exact ⟨i, e₁, .entry hl (hfile _) hlink h, hi⟩
  | linkItself _ haim => cases haim
  | link hl _ hlink _ ht _ ih =>
    cases names with
    | nil => exact ⟨_, _, .here, hl.isDirectory⟩
    | cons n ns =>
      obtain ⟨rfl, hrest⟩ := List.cons_prefix_cons.1 hall
      obtain ⟨i, e₁, h, hi⟩ := ih hp ((List.prefix_append_right_inj _).2 hrest)
        fun h => hj (List.append_cancel_left h ▸ rfl)
      exact ⟨i, e₁, .link hl (hfile _) hlink (fun h => by cases h.2) ht h, hi⟩

/-- The directory that an attempt makes is there if the way to it leads by directories. -/
theorem isThere_of_walks (hname : IsValidName name) {q : Path}
    (hq : (lockPath dir name).parent? = some q) (hrefusal : q.bytes ≠ [] → refusal? q = none)
    (hwalks : ∀ names, names <+: bareSteps dir → ∃ i e,
      Walks t .node linkLimit (t.origin t.cwd dir) none names (.found i e) ∧
        t.isDirectory i = true) : t.IsThere q := by
  rcases parent_lockPath hname hq with hempty | ⟨hbytes, hsteps⟩
  · exact Or.inl hempty
  by_cases hempty : q.bytes = []
  · exact Or.inl hempty
  obtain ⟨i, e, hwalk, hi⟩ := hwalks _ hsteps
  have horigin : t.origin t.cwd q = t.origin t.cwd dir := by
    simp only [origin, Path.isAbsolute_of_prefix hbytes hempty, isAbsolute_lockPath hname]
  obtain ⟨tail, htail, hcases⟩ := steps_tail q
  refine Or.inr (leadsToDirectory_iff.2 ⟨i, leads_iff.2 ⟨hrefusal hempty, ?_⟩, hi⟩)
  rw [horigin, htail]
  rcases hcases with rfl | rfl
  · exact ⟨e, (List.append_nil (bareSteps q)).symm ▸ hwalk⟩
  · exact hwalk.append_slash rfl hi

theorem settled_of_walks (hname : IsValidName name) (hpath : refusal? (lockPath dir name) = none)
    (hwalks : ∀ names, names <+: bareSteps dir → ∃ i e,
      Walks t .node linkLimit (t.origin t.cwd dir) none names (.found i e) ∧
        t.isDirectory i = true) : t.Settled (lockPath dir name) := by
  intro q hq
  refine isThere_of_walks hname hq (fun hempty => ?_) hwalks
  rcases parent_lockPath hname hq with hnil | ⟨hbytes, -⟩
  · exact absurd hnil hempty
  · exact Path.refusal?_of_prefix hbytes hempty hpath

theorem Leads.settled (hname : IsValidName name) (hl : t.Leads (lockPath dir name) i) :
    t.Settled (lockPath dir name) := by
  obtain ⟨hpath, e, hwalk⟩ := leads_iff.1 hl
  rw [origin_lockPath t hname, steps_lockPath hname] at hwalk
  refine settled_of_walks hname hpath fun names hnames =>
    hwalk.of_prefix rfl (hnames.trans (List.prefix_append _ _)) fun h => ?_
  have hlength := h ▸ hnames.length_le
  rw [List.length_append] at hlength
  exact absurd hlength (Nat.not_succ_le_self _)

section Home
variable (hd : t.Home dir D) (hf : Fits dir name)
include hd hf

/-- **Where the directory is there, attempts need not make it.** -/
theorem Home.settled : t.Settled (lockPath dir name) := by
  obtain ⟨e, hwalk⟩ := hd.walk
  exact settled_of_walks hf.valid hf.path fun names hnames =>
    hwalk.of_prefix rfl hnames fun _ => hd.isDirectory

theorem Home.leads (hl : t.LooksUp D (lockEntry name) (some i)) (hlink : t.link? i = none) :
    t.Leads (lockPath dir name) i := by
  obtain ⟨e, hwalk⟩ := hd.walk
  refine leads_iff.2 ⟨hf.path, some (D, lockEntry name), ?_⟩
  rw [origin_lockPath t hf.valid, steps_lockPath hf.valid]
  exact hwalk.snoc rfl (lockEntry_ne_nil name) (.entry hl (fun h => by cases h.1) hlink .here)

theorem Home.openPath_vacant (hl : t.LooksUp D (lockEntry name) none) :
    t.openPath [.read, .write] (lockPath dir name) =
      .ok (t.create D (lockEntry name) (.file []) fileMode) := by
  obtain ⟨e, hwalk⟩ := hd.walk
  have hvacant : Walks t .file linkLimit (t.origin t.cwd (lockPath dir name)) none
      (steps (lockPath dir name)) (.vacant D (lockEntry name)) := by
    rw [origin_lockPath t hf.valid, steps_lockPath hf.valid]
    exact hwalk.snoc rfl (lockEntry_ne_nil name) (.vacant hl)
  have hmay : t.mayChange D = true := by simp [mayChange, hd.write, hd.search]
  simp only [openPath, resolve_eq_ok_iff.2 ⟨hf.path, hvacant⟩, hmay, if_true]

theorem Home.find_vacant (hl : t.LooksUp D (lockEntry name) none) :
    t.find .node (lockPath dir name) = .error (.os .noEntry) := by
  obtain ⟨e, hwalk⟩ := hd.walk
  have hvacant : Walks t .node linkLimit (t.origin t.cwd (lockPath dir name)) none
      (steps (lockPath dir name)) (.vacant D (lockEntry name)) := by
    rw [origin_lockPath t hf.valid, steps_lockPath hf.valid]
    exact hwalk.snoc rfl (lockEntry_ne_nil name) (.vacant hl)
  simp only [find, resolve_eq_ok_iff.2 ⟨hf.path, hvacant⟩]

/-- An entry that is not one of a directory is removed, also if it is a symbolic link. -/
theorem Home.unlink (hl : t.LooksUp D (lockEntry name) (some i)) (hi : t.isDirectory i = false) :
    t.unlink (lockPath dir name) = .ok (t.remove D (lockEntry name)) := by
  obtain ⟨e, hwalk⟩ := hd.walk
  have hlast : ∀ {b e}, Walks t .entry b D e [lockEntry name] (.found i (some (D, lockEntry name))) := by
    intro b e
    cases hlink : t.link? i with
    | none => exact .entry hl (fun h => by cases h.1) hlink .here
    | some target => exact .linkItself hl rfl hlink
  have hfound : Walks t .entry linkLimit (t.origin t.cwd (lockPath dir name)) none
      (bareSteps (lockPath dir name)) (.found i (some (D, lockEntry name))) := by
    rw [origin_lockPath t hf.valid, bareSteps_lockPath hf.valid]
    exact hwalk.snoc rfl (lockEntry_ne_nil name) hlast
  have hmay : t.mayChange D = true := by simp [mayChange, hd.write, hd.search]
  simp [FileTree.unlink, resolveBare_eq_ok_iff.2 ⟨hf.path, hfound⟩, hmay, hi,
    asksDirectory_lockPath hf.valid]

end Home

/-! ## Directories that change -/

theorem Home.mono (hd : t.Home dir D) (h : t.Within t') (hw : t.WellFormed) : t'.Home dir D := by
  obtain ⟨e, hwalk⟩ := hd.walk
  refine ⟨⟨e, ?_⟩, h.isDirectory_of hd.isDirectory, ?_, ?_⟩
  · rw [h.origin, h.cwd]
    exact hwalk.mono h hw rfl
  · rw [h.mayDirectory hd.isDirectory, hd.write]
  · rw [h.mayDirectory hd.isDirectory, hd.search]

theorem LooksUp.walks {entry : Bytes} (hl : t.LooksUp D entry (some i)) (hlink : t.link? i = none) :
    Walks t .node linkLimit D none [entry] (.found i (some (D, entry))) :=
  .entry hl (fun h => by cases h.1) hlink .here

theorem Home.remove {entry : Bytes} {b : Nat} {e₀ e₁ : Option (Inode × Bytes)}
    (hd : t.Home dir D) (hw : t.WellFormed) (hlast : Walks t .node b D e₀ [entry] (.found i e₁))
    (hi : t.isDirectory i = false) : (t.remove D entry).Home dir D := by
  obtain ⟨e, hwalk⟩ := hd.walk
  obtain ⟨-, hdir, hmay⟩ := keeps_remove (t := t) D entry D (isDirectory_node hd.isDirectory)
  refine ⟨⟨e, ?_⟩, hdir.trans hd.isDirectory, (hmay _).trans hd.write, (hmay _).trans hd.search⟩
  rw [← remove_within.origin, ← remove_within.cwd]
  exact hlast.remove hi hwalk hw rfl hd.isDirectory

/-- No two entries of a directory are of one file. -/
def Apart (t : FileTree) (D : Inode) : Prop :=
  ∀ e e' i, t.LooksUp D e (some i) → t.LooksUp D e' (some i) → e = e'

theorem Apart.of_within (ha : t.Apart D) (h : t'.Within t) : t'.Apart D :=
  fun _ _ _ hl hl' => ha _ _ _ (h.looksUp hl) (h.looksUp hl')

theorem link?_of_file? {bytes : Bytes} (h : t.file? i = some bytes) : t.link? i = none := by
  obtain ⟨_, _, hn⟩ := file?_eq_some.1 h
  simp only [link?, hn]

theorem LooksUp.rewrite {e old new : Bytes} {found : Option Inode} (hl : t.LooksUp D e found)
    (hfile : t.file? i = some old) : (t.setContent i (.file new)).LooksUp D e found := by
  obtain ⟨_, _, hn⟩ := file?_eq_some.1 hfile
  have hne : D ≠ i := by
    rintro rfl
    have := hl.isDirectory
    rw [isDirectory_of_file? hfile] at this
    cases this
  obtain ⟨hmay, hname, parent, entries, hd, he⟩ := hl
  have hdir : t.isDirectory D = true := isDirectory_iff.2 ⟨_, _, hd⟩
  exact ⟨((rewrite_within hn).mayDirectory hdir _).trans hmay, hname, parent, entries,
    (directory?_setContent_ne hne).trans hd, he⟩

theorem LooksUp.remove_self {e : Bytes} {found : Option Inode} (hl : t.LooksUp D e found) :
    (t.remove D e).LooksUp D e none := by
  obtain ⟨hmay, hname, parent, entries, hd, he⟩ := hl
  have hnode := isDirectory_node (isDirectory_iff.2 ⟨_, _, hd⟩)
  obtain ⟨-, -, hkeeps⟩ := keeps_remove (t := t) D e D hnode
  refine ⟨(hkeeps _).trans hmay, hname, parent, entries.erase e, ?_, ?_⟩
  · rw [FileTree.remove, setEntries_eq hd, directory?_setContent hnode]
  · rw [Table.get?_erase, if_pos rfl]

theorem looksUp_create {e e' : Bytes} {c : Content} {mode : Nat} {found : Option Inode}
    (hw : t.WellFormed) (hl : t.LooksUp D e none) (hne : e' ≠ e) :
    (t.create D e c mode).1.LooksUp D e' found ↔ t.LooksUp D e' found := by
  have hD := hl.ne_next hw
  have hl' : (t.withNode c mode).LooksUp D e none := hl.withNode hw
  have hdir := hl'.isDirectory
  obtain ⟨-, -, parent, entries, hd, he⟩ := hl'
  have hin : (t.withNode c mode).Within (t.create D e c mode).1 := within_enter hd he
  have hnew : (t.create D e c mode).1.directory? D = some (parent, entries.insert e t.next) := by
    rw [create_eq, enter, setEntries_eq hd]
    exact directory?_setContent (isDirectory_node hdir)
  have hold : t.directory? D = some (parent, entries) := by
    simpa only [directory?, node?_withNode, if_neg hD] using hd
  have hmay : (t.create D e c mode).1.may D .search = t.may D .search := by
    rw [hin.mayDirectory hdir]
    simp only [may, node?_withNode, if_neg hD]
  constructor
  · rintro ⟨hm, hname, _, _, hd', he'⟩
    rw [hnew] at hd'
    cases hd'
    rw [Table.get?_insert, if_neg hne] at he'
    exact ⟨hmay.symm.trans hm, hname, parent, entries, hold, he'⟩
  · rintro ⟨hm, hname, _, _, hd', he'⟩
    rw [hold] at hd'
    cases hd'
    exact ⟨hmay.trans hm, hname, parent, entries.insert e t.next, hnew, by
      rwa [Table.get?_insert, if_neg hne]⟩

/-- A lock file: an entry, the file that it names, and what that holds. -/
structure Lies (t : FileTree) (D : Inode) (entry : Bytes) (i : Inode) (bytes : Bytes) : Prop where
  looksUp : t.LooksUp D entry (some i)
  file : t.file? i = some bytes
  read : t.may i .read = true
  write : t.may i .write = true

section Lies
variable {e e' : Bytes} {bytes bytes' : Bytes}

theorem Lies.within (hl : t.Lies D e i bytes) (hw : t.WellFormed) (h : t.Within t')
    (hfile : t'.file? i = some bytes') : t'.Lies D e i bytes' where
  looksUp := h.looksUp hl.looksUp
  file := hfile
  read := (h.may (hl.looksUp.node hw) _).trans hl.read
  write := (h.may (hl.looksUp.node hw) _).trans hl.write

theorem Lies.remove (hl : t.Lies D e i bytes) (hne : e ≠ e') :
    (t.remove D e').Lies D e i bytes := by
  obtain ⟨-, -, hmay⟩ := keeps_remove (t := t) D e' i (isSome_node?_of_file? hl.file)
  exact ⟨hl.looksUp.remove fun h => hne h.2, (file?_setEntries _ i).trans hl.file,
    (hmay _).trans hl.read, (hmay _).trans hl.write⟩

theorem Lies.leads (hl : t.Lies D (lockEntry name) i bytes) (hd : t.Home dir D)
    (hf : Fits dir name) : t.Leads (lockPath dir name) i :=
  hd.leads hf hl.looksUp (link?_of_file? hl.file)

/-- What opening a lock file makes of the tree: it is there then. -/
structure Opens (t : FileTree) (D : Inode) (e : Bytes) (t' : FileTree) (i : Inode)
    (bytes : Bytes) : Prop where
  grows : t.Grows t'
  lies : t'.Lies D e i bytes
  vacant : ∀ e' ≠ e, t.LooksUp D e' none → t'.LooksUp D e' none
  apart : t.Apart D → t'.Apart D

theorem Lies.opens (hl : t.Lies D (lockEntry name) i bytes) (hd : t.Home dir D)
    (hf : Fits dir name) (hw : t.WellFormed) :
    t.openPath [.read, .write] (lockPath dir name) = .ok (t, i) ∧
      t.Opens D (lockEntry name) t i bytes :=
  ⟨openPath_of_leads (hl.leads hd hf) (isDirectory_of_file? hl.file) hl.read hl.write,
    .refl hw, hl, fun _ _ h => h, fun h => h⟩

theorem Home.opens (hd : t.Home dir D) (hf : Fits dir name) (hw : t.WellFormed)
    (hl : t.LooksUp D (lockEntry name) none) :
    ∃ t', t.openPath [.read, .write] (lockPath dir name) = .ok (t', t.next) ∧
      t.Opens D (lockEntry name) t' t.next [] := by
  have hc : ListsNothing (.file []) := fun _ _ _ _ h => by cases h
  have hnode : (t.create D (lockEntry name) (.file []) fileMode).1.node? t.next =
      some ⟨.file [], fileMode, true⟩ := create_node hw hl
  have hmay : ∀ a ∈ [Access.read, Access.write],
      (t.create D (lockEntry name) (.file []) fileMode).1.may t.next a = true := by
    intro a ha
    simp only [may, hnode]
    exact fileMode_allows a ha
  refine ⟨_, hd.openPath_vacant hf hl, create_grows hw hl hc, ⟨create_looksUp hw hl,
    file?_eq_some.2 ⟨_, _, hnode⟩, hmay _ (by simp), hmay _ (by simp)⟩,
    fun e' hne => (looksUp_create hw hl hne).2, fun ha e e' i he he' => ?_⟩
  -- the new file is in no other entry
  have hnew : ∀ {e i}, e ≠ lockEntry name →
      (t.create D (lockEntry name) (.file []) fileMode).1.LooksUp D e (some i) → i ≠ t.next := by
    rintro e i hne hl' rfl
    have hsome := ((looksUp_create hw hl hne).1 hl').node hw
    rw [hw.node?_next] at hsome
    cases hsome
  by_cases h : e = lockEntry name <;> by_cases h' : e' = lockEntry name
  · rw [h, h']
  · subst h
    exact absurd (Option.some.inj (he.unique (create_looksUp hw hl))) (hnew h' he')
  · subst h'
    exact absurd (Option.some.inj (he'.unique (create_looksUp hw hl))) (hnew h he)
  · exact ha _ _ _ ((looksUp_create hw hl h).1 he) ((looksUp_create hw hl h').1 he')

end Lies

end FileTree

end NamedMutex
