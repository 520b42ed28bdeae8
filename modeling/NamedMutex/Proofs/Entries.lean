/-
  What a path to an entry of a directory comes to.

  Where a path leads to a directory (`Finds`), the lock path of a name leads on to one
  entry of it.  All that the operations on the lock file find is then a matter of that
  entry and of the rights to the directory: that is the `Slot` of the name.

  * `Walks.walkWith_snoc`: the last step of a walk is a step from where the steps before it
    lead, also if it fails;
  * `Finds.resolve`, `Finds.openPath`, `Finds.readPath`, `Finds.unlink`: what becomes of a
    lock path is read off its slot, errors included;
  * `Finds.makeDirs`: the directory need not be made;
  * `Finds.mono`, `Finds.remove`: a directory is found still while lock files come and go.
-/
import NamedMutex.Proofs.LockDirs

namespace NamedMutex

/-- Whether a node is a directory. -/
def Node.isDirectory (n : Node) : Bool :=
  match n.content with
  | .directory _ _ => true
  | _ => false

/-- What reading a node gives. -/
def Node.bytes (n : Node) : Bytes :=
  match n.content with
  | .file bytes => bytes
  | _ => []

namespace FileTree

variable {t t' : FileTree} {aim : Aim} {dir path : Path} {D i : Inode} {e : Bytes} {name : String}

/-! ## Entries and slots -/

/-- The node that a directory has under a name. -/
def child? (t : FileTree) (D : Inode) (e : Bytes) : Option Inode :=
  (t.directory? D).bind fun d => d.2.get? e

theorem child?_eq {parent : Inode} {entries : Table Bytes Inode}
    (hd : t.directory? D = some (parent, entries)) : t.child? D e = entries.get? e := by
  simp only [child?, hd, Option.bind_some]

theorem LooksUp.child_eq {found : Option Inode} (h : t.LooksUp D e found) : t.child? D e = found := by
  obtain ⟨-, -, _, _, hd, he⟩ := h
  exact (child?_eq hd).trans he

theorem may_eq (t : FileTree) (i : Inode) (a : Access) :
    t.may i a = (t.node? i).any (Node.allows · a) := by
  unfold may
  cases t.node? i <;> rfl

theorem isDirectory_eq (t : FileTree) (i : Inode) :
    t.isDirectory i = (t.node? i).any Node.isDirectory := by
  unfold isDirectory directory?
  rcases t.node? i with _ | ⟨content, mode, owned⟩
  · rfl
  · cases content <;> rfl

theorem bytesOf_eq (t : FileTree) (i : Inode) : t.bytesOf i = (t.node? i).elim [] Node.bytes := by
  unfold bytesOf
  rcases t.node? i with _ | ⟨content, mode, owned⟩
  · rfl
  · cases content <;> rfl

/-- What there is of a name in a directory: what the user may do there, and the node that
    the name has. -/
structure Slot where
  search : Bool
  change : Bool
  found : Option (Inode × Option Node)

/-- The slot of a name in a directory. -/
def slot (t : FileTree) (D : Inode) (e : Bytes) : Slot :=
  ⟨t.may D .search, t.mayChange D, (t.child? D e).map fun i => (i, t.node? i)⟩

theorem slot_found (h : (t.slot D e).found = some (i, n)) : t.child? D e = some i ∧ t.node? i = n := by
  simp only [slot, Option.map_eq_some_iff, Prod.mk.injEq] at h
  obtain ⟨j, hj, rfl, hn⟩ := h
  exact ⟨hj, hn⟩

/-- What looking a name up in a directory comes to. -/
def Slot.lookUp (s : Slot) (e : Bytes) : Except Errno (Option (Inode × Option Node)) :=
  if s.search = false then .error .accessDenied
  else if nameLimit < e.length then .error .nameTooLong
  else .ok s.found

/-- What following a path to a name comes to. -/
def Slot.follow (s : Slot) (path : Path) (e : Bytes) : Except IoError (Option (Inode × Option Node)) :=
  match refusal? path with
  | some err => .error err
  | none =>
    match s.lookUp e with
    | .error err => .error (.os err)
    | .ok found => .ok found

/-- Which node opening a name comes to, if `next` is the number of a new one. -/
def Slot.opens (s : Slot) (path : Path) (e : Bytes) (next : Inode) :
    Except IoError (Inode × Option Node) :=
  match s.follow path e with
  | .error err => .error err
  | .ok none =>
    if s.change then .ok (next, some ⟨.file [], fileMode, true⟩) else failure .accessDenied
  | .ok (some (i, n)) =>
    if n.any Node.isDirectory then failure .isDirectory
    else if [Access.read, Access.write].all fun a => n.any (Node.allows · a) then .ok (i, n)
    else failure .accessDenied

/-- What reading a name comes to. -/
def Slot.reads (s : Slot) (path : Path) (e : Bytes) : Except IoError Bytes :=
  match s.follow path e with
  | .error err => .error err
  | .ok none => failure .noEntry
  | .ok (some (_, n)) =>
    if ¬ n.any (Node.allows · .read) then failure .accessDenied
    else if n.any Node.isDirectory then failure .isDirectory
    else .ok (n.elim [] Node.bytes)

/-- Whether a name can be removed. -/
def Slot.removable (s : Slot) (path : Path) (e : Bytes) : Bool :=
  match s.follow path e with
  | .ok (some (_, n)) => s.change && !n.any Node.isDirectory
  | _ => false

/-- The tree with a file under a name. -/
def withFile (t : FileTree) (D : Inode) (e : Bytes) : FileTree :=
  match t.child? D e with
  | none => (t.create D e (.file []) fileMode).1
  | some _ => t

theorem Slot.follow_eq_ok_iff {s : Slot} {found : Option (Inode × Option Node)} :
    s.follow path e = .ok found ↔
      refusal? path = none ∧ s.search = true ∧ e.length ≤ nameLimit ∧ s.found = found := by
  unfold Slot.follow Slot.lookUp
  cases refusal? path with
  | some err => simp
  | none =>
    cases hsearch : s.search with
    | false => simp
    | true =>
      by_cases hlong : nameLimit < e.length
      · simp [hlong, Nat.not_le.2 hlong]
      · simp [hlong, Nat.not_lt.1 hlong]

/-- What opening a name comes to: a matter of what there is, or a new file. -/
theorem Slot.opens_cases (s : Slot) (path : Path) (e : Bytes) :
    (∃ opened, (∀ next, s.opens path e next = opened) ∧
      ∀ i n, opened = .ok (i, n) → s.follow path e = .ok (some (i, n))) ∨
    s.follow path e = .ok none ∧
      ∀ next, s.opens path e next = .ok (next, some ⟨.file [], fileMode, true⟩) := by
  unfold opens
  cases hfollow : s.follow path e with
  | error err => exact Or.inl ⟨.error err, fun _ => rfl, fun _ _ h => by cases h⟩
  | ok found =>
    rcases found with _ | ⟨i, n⟩
    · cases s.change with
      | false => exact Or.inl ⟨failure .accessDenied, fun _ => rfl, fun _ _ h => by cases h⟩
      | true => exact Or.inr ⟨rfl, fun _ => rfl⟩
    · refine Or.inl ⟨if n.any Node.isDirectory then failure .isDirectory
        else if [Access.read, Access.write].all fun a => n.any (Node.allows · a) then .ok (i, n)
        else failure .accessDenied, fun _ => rfl, fun j k h => ?_⟩
      by_cases hdir : n.any Node.isDirectory = true
      · rw [if_pos hdir] at h
        cases h
      rw [if_neg hdir] at h
      split at h
      · cases h
        rfl
      · cases h

/-- The place that a name of a directory is. -/
def place (D : Inode) (e : Bytes) : Option (Inode × Option Node) → Place
  | none => .vacant D e
  | some (i, _) => .found i (some (D, e))

/-- A path leads to a directory.  The empty path is that of the working directory. -/
structure Finds (t : FileTree) (dir : Path) (D : Inode) : Prop where
  walk : ∃ e, Walks t .node linkLimit (t.origin t.cwd dir) none (bareSteps dir) (.found D e)
  isDirectory : t.isDirectory D = true

/-- A name of a directory is not that of a symbolic link. -/
def NoLink (t : FileTree) (D : Inode) (e : Bytes) : Prop :=
  ∀ i, t.child? D e = some i → t.link? i = none

theorem NoLink.of_slot_eq (h : t.NoLink D e) (heq : t'.slot D e = t.slot D e) : t'.NoLink D e := by
  intro i hchild
  have hfound : (t'.slot D e).found = some (i, t'.node? i) := by
    rw [slot, hchild]
    rfl
  rw [heq] at hfound
  obtain ⟨hchild', hnode⟩ := slot_found hfound
  rw [link?, ← hnode]
  exact h i hchild'

/-! ## The last step of a walk -/

/-- A name that a directory lists: it is neither empty nor one of the dots. -/
def IsEntryName (e : Bytes) : Prop := e ≠ [] ∧ e ≠ [Path.dot] ∧ e ≠ [Path.dot, Path.dot]

theorem isEntryName_lockEntry (name : String) : IsEntryName (lockEntry name) := by
  have hlen := five_le_length_lockEntry name
  refine ⟨lockEntry_ne_nil name, ?_, ?_⟩ <;>
  · intro heq
    rw [heq] at hlen
    exact absurd hlen (by decide)

theorem walkWith_entry (hd : t.isDirectory D = true) (he : IsEntryName e) (hlink : t.NoLink D e)
    (jump : Inode → List Bytes → Except Errno Place) (e₀ : Option (Inode × Bytes)) :
    t.walkWith aim jump D e₀ [e] = ((t.slot D e).lookUp e).map (place D e) := by
  obtain ⟨hempty, hdot, hup⟩ := he
  obtain ⟨parent, entries, hentries⟩ := isDirectory_iff.1 hd
  have hentry : t.child? D e = entries.get? e := child?_eq hentries
  have hfile : ¬ (aim = .file ∧ ([] : List Bytes) = [[]]) := fun h => by cases h.2
  simp only [walkWith, hentries, if_neg hempty, if_neg hdot, if_neg hup, if_neg hfile, Slot.lookUp,
    slot, Bool.not_eq_true, hentry]
  split
  · rfl
  split
  · rfl
  cases hget : entries.get? e with
  | none => rfl
  | some i =>
    simp only [hlink i (hentry.trans hget)]
    rfl

/-- **A walk with one step more** goes on from where the steps before it lead, whether it
    finds anything there or not. -/
theorem Walks.walkWith_snoc {b : Nat} {at_ : Inode} {e₀ e₁ : Option (Inode × Bytes)}
    {names : List Bytes} {p : Place} (h : Walks t .node b at_ e₀ names p) (hp : p = .found D e₁)
    (hd : t.isDirectory D = true) (he : IsEntryName e) (hlink : t.NoLink D e) :
    t.walkWith aim (t.jump aim b) at_ e₀ (names ++ [e]) =
      ((t.slot D e).lookUp e).map (place D e) := by
  have hfile : ∀ rest, ¬ (aim = .file ∧ rest ++ [e] = [[]]) := by
    rintro rest ⟨-, h⟩
    cases rest with
    | nil => exact he.1 (List.singleton_inj.1 h)
    | cons x xs => cases xs <;> cases h
  induction h with
  | here =>
    cases hp
    exact walkWith_entry hd he hlink _ _
  | slash hdir _ ih =>
    obtain ⟨_, _, hdir⟩ := isDirectory_iff.1 hdir
    simpa [walkWith, hdir] using ih hp
  | stay hdir hmay _ ih =>
    obtain ⟨_, _, hdir⟩ := isDirectory_iff.1 hdir
    simpa [walkWith, hdir, hmay] using ih hp
  | up hdir hmay _ ih => simpa [walkWith, hdir, hmay, Path.dot] using ih hp
  | vacant => cases hp
  | entry hlook _ hlink' _ ih =>
    obtain ⟨hmay, ⟨h1, h2, h3, h4⟩, _, _, hdir, hget⟩ := hlook
    simpa [walkWith, hdir, hmay, h1, h2, h3, Nat.not_lt.2 h4, hget, hlink', hfile] using ih hp
  | linkItself _ haim => cases haim
  | link hlook _ hlink' _ htarget _ ih =>
    obtain ⟨hmay, ⟨h1, h2, h3, h4⟩, _, _, hdir, hget⟩ := hlook
    rw [List.append_assoc, ← walk_eq] at ih
    simpa [walkWith, hdir, hmay, h1, h2, h3, Nat.not_lt.2 h4, hget, hlink', hfile, htarget, jump]
      using ih hp

/-! ## Lock paths -/

/-- Why the directory of a lock file is not looked at. -/
def refusalAbove? (path : Path) : Option IoError :=
  path.parent?.bind fun q => if q.bytes = [] then none else refusal? q

section Finds
variable (hf : t.Finds dir D) (hname : IsValidName name) (hlink : t.NoLink D (lockEntry name))
include hf hname hlink

theorem Finds.follow : t.follow aim (lockPath dir name) (bareSteps dir ++ [lockEntry name]) =
    ((t.slot D (lockEntry name)).follow (lockPath dir name) (lockEntry name)).map
      (place D (lockEntry name)) := by
  obtain ⟨e, hwalk⟩ := hf.walk
  have hlast : t.walkWith aim _ _ _ _ = _ :=
    hwalk.walkWith_snoc rfl hf.isDirectory (isEntryName_lockEntry name) hlink
  simp only [FileTree.follow, Slot.follow, origin_lockPath t hname, walk_eq, hlast]
  cases refusal? (lockPath dir name) with
  | some err => rfl
  | none => cases (t.slot D (lockEntry name)).lookUp (lockEntry name) <;> rfl

/-- **Where a lock path leads is read off the slot of the name**, whatever it is followed for. -/
theorem Finds.resolve : t.resolve aim (lockPath dir name) =
    ((t.slot D (lockEntry name)).follow (lockPath dir name) (lockEntry name)).map
      (place D (lockEntry name)) := by
  rw [FileTree.resolve, steps_lockPath hname]
  exact hf.follow hname hlink

theorem Finds.resolveBare : t.resolveBare (lockPath dir name) =
    ((t.slot D (lockEntry name)).follow (lockPath dir name) (lockEntry name)).map
      (place D (lockEntry name)) := by
  rw [FileTree.resolveBare, bareSteps_lockPath hname]
  exact hf.follow hname hlink

/-! ### Opening, reading and removing -/

theorem Finds.openPath : t.openPath [.read, .write] (lockPath dir name) =
    ((t.slot D (lockEntry name)).opens (lockPath dir name) (lockEntry name) t.next).map
      fun x => (t.withFile D (lockEntry name), x.1) := by
  rw [FileTree.openPath, hf.resolve hname hlink, Slot.opens]
  cases hfollow : (t.slot D (lockEntry name)).follow (lockPath dir name) (lockEntry name) with
  | error err => rfl
  | ok found =>
    have hfound := (Slot.follow_eq_ok_iff.1 hfollow).2.2.2
    rcases found with _ | ⟨i, n⟩
    · have hentry : t.child? D (lockEntry name) = none := Option.map_eq_none_iff.1 hfound
      have hchange : (t.slot D (lockEntry name)).change = t.mayChange D := rfl
      simp only [Except.map, place, withFile, hentry, hchange]
      cases t.mayChange D <;> rfl
    · obtain ⟨hentry, rfl⟩ := slot_found hfound
      have hmay : t.may i = fun a => (t.node? i).any (Node.allows · a) := funext (may_eq t i)
      simp only [Except.map, place, withFile, hentry, isDirectory_eq, hmay]
      split
      · rfl
      · split <;> rfl

theorem Finds.readPath : t.readPath (lockPath dir name) =
    (t.slot D (lockEntry name)).reads (lockPath dir name) (lockEntry name) := by
  rw [FileTree.readPath, find, hf.resolve hname hlink, Slot.reads]
  cases hfollow : (t.slot D (lockEntry name)).follow (lockPath dir name) (lockEntry name) with
  | error err => rfl
  | ok found =>
    rcases found with _ | ⟨i, n⟩
    · rfl
    · obtain ⟨-, rfl⟩ := slot_found ((Slot.follow_eq_ok_iff.1 hfollow).2.2.2)
      simp only [Except.map, place, isDirectory_eq, may_eq, bytesOf_eq]

theorem Finds.unlinked : Machine.unlinked t (lockPath dir name) =
    if (t.slot D (lockEntry name)).removable (lockPath dir name) (lockEntry name)
    then t.remove D (lockEntry name) else t := by
  have hslash : asksDirectory (lockPath dir name) = false := asksDirectory_lockPath hname
  rw [Machine.unlinked, FileTree.unlink, hf.resolveBare hname hlink, Slot.removable]
  cases hfollow : (t.slot D (lockEntry name)).follow (lockPath dir name) (lockEntry name) with
  | error err => rfl
  | ok found =>
    rcases found with _ | ⟨i, n⟩
    · rfl
    · obtain ⟨-, rfl⟩ := slot_found ((Slot.follow_eq_ok_iff.1 hfollow).2.2.2)
      have hchange : (t.slot D (lockEntry name)).change = t.mayChange D := rfl
      simp only [Except.map, place, hslash, hchange, ← isDirectory_eq]
      cases t.mayChange D <;> cases t.isDirectory i <;> rfl

omit hlink in
/-- **Where the directory is there, attempts need not make it**; if they cannot ask for it,
    this is so on all trees. -/
theorem Finds.makeDirs {q : Path} (hq : (lockPath dir name).parent? = some q) :
    t.makeDirs q = (t, match refusalAbove? (lockPath dir name) with
      | none => .ok ()
      | some err => .error err) := by
  obtain ⟨e, hwalk⟩ := hf.walk
  have hwalks : ∀ names, names <+: bareSteps dir → ∃ i e,
      Walks t .node linkLimit (t.origin t.cwd dir) none names (.found i e) ∧
        t.isDirectory i = true := fun names hnames =>
    hwalk.of_prefix rfl hnames fun _ => hf.isDirectory
  have habove : refusalAbove? (lockPath dir name) =
      if q.bytes = [] then none else refusal? q := by
    rw [refusalAbove?, hq, Option.bind_some]
  rw [habove]
  by_cases hempty : q.bytes = []
  · rw [if_pos hempty]
    exact makeDirs_of_isThere (Or.inl hempty)
  rw [if_neg hempty]
  cases hrefusal : refusal? q with
  | none => exact makeDirs_of_isThere (isThere_of_walks hname hq (fun _ => hrefusal) hwalks)
  | some err => exact makeDirs_of_refusal hempty hrefusal

end Finds

theorem exists_of_removable (hd : t.isDirectory D = true) (he : IsEntryName e)
    (hlink : t.NoLink D e) (h : (t.slot D e).removable path e = true) :
    ∃ i, t.LooksUp D e (some i) ∧ t.link? i = none ∧ t.isDirectory i = false := by
  unfold Slot.removable at h
  split at h
  · rename_i i n hfollow
    obtain ⟨-, hsearch, hlen, hfound⟩ := Slot.follow_eq_ok_iff.1 hfollow
    obtain ⟨hchild, rfl⟩ := slot_found hfound
    obtain ⟨parent, entries, hentries⟩ := isDirectory_iff.1 hd
    refine ⟨i, ⟨hsearch, ⟨he.1, he.2.1, he.2.2, hlen⟩, parent, entries, hentries, ?_⟩,
      hlink i hchild, ?_⟩
    · rw [← child?_eq hentries, hchild]
    · rw [isDirectory_eq]
      simpa using And.right (Bool.and_eq_true_iff.1 h)
  · cases h

/-! ## Directories that change -/

theorem Finds.mono (hf : t.Finds dir D) (h : t.Within t') (hw : t.WellFormed) : t'.Finds dir D := by
  obtain ⟨e, hwalk⟩ := hf.walk
  refine ⟨⟨e, ?_⟩, h.isDirectory_of hf.isDirectory⟩
  rw [h.origin, h.cwd]
  exact hwalk.mono h hw rfl

/-- A directory is found still after an entry was removed from another one, or from itself. -/
theorem Finds.remove (hf : t.Finds dir D) (hw : t.WellFormed) {D' : Inode}
    (hl : t.LooksUp D' e (some i)) (hlink : t.link? i = none) (hi : t.isDirectory i = false) :
    (t.remove D' e).Finds dir D := by
  obtain ⟨e₀, hwalk⟩ := hf.walk
  obtain ⟨-, hdir, -⟩ := keeps_remove (t := t) D' e D (isDirectory_node hf.isDirectory)
  refine ⟨⟨e₀, ?_⟩, hdir.trans hf.isDirectory⟩
  rw [← remove_within.origin, ← remove_within.cwd]
  exact (hl.walks hlink).remove hi hwalk hw rfl hf.isDirectory

end FileTree

end NamedMutex
