/-
  What an operation on a mutex does, as data.

  In the end an operation on the lock file of a name does one of three things: nothing, or
  it takes the file, or it gives it up.  A `Deed` says which, and with which file.

  * `Machine.Does` says that between two machines lies one deed, and nothing else;
  * `Renumbered` says of two machines that they are one but for the numbers of files and
    openings, and for the time; `WellFormed.renumbered`: what is there keeps its numbers;
  * `Does.renumbered`: two deeds that have nothing in common may be done in either order.
-/
import Mathlib.Logic.Equiv.Basic
import NamedMutex.Proofs.Entries
import NamedMutex.Proofs.LockStates

namespace NamedMutex

/-! ## Functions with another value at one point -/

/-- A function with another value at one point, or at none. -/
def amend {α β : Type} [DecidableEq α] (f : α → β) (change : Option (α × β)) (a : α) : β :=
  match change with
  | none => f a
  | some (b, value) => if a = b then value else f a

section Amend
variable {α β : Type} [DecidableEq α] {f f' : α → β} {x y : Option (α × β)} {a : α}

theorem amend_congr (h : f a = f' a) (x : Option (α × β)) : amend f x a = amend f' x a := by
  cases x with
  | none => exact h
  | some p => simp only [amend, h]

theorem amend_of_ne (h : ∀ p, x = some p → a ≠ p.1) : amend f x a = f a := by
  cases x with
  | none => rfl
  | some p => exact if_neg (h p rfl)

/-- Two changes at different points may be made in either order, also if points and values
    go by other names in the other order. -/
theorem amend_amend_map {κ : α → α} (hκ : Function.Injective κ) {g : β → β}
    (hf : f (κ a) = g (f a)) (hne : ∀ p q, x = some p → y = some q → p.1 ≠ q.1) :
    amend (amend f (y.map (Prod.map κ g))) (x.map (Prod.map κ g)) (κ a) =
      g (amend (amend f x) y a) := by
  rcases x with _ | ⟨b, v⟩ <;> rcases y with _ | ⟨c, w⟩
  · exact hf
  · by_cases hc : a = c <;> simp [amend, hκ.eq_iff, hc, hf]
  · by_cases hb : a = b <;> simp [amend, hκ.eq_iff, hb, hf]
  · have hbc : b ≠ c := hne _ _ rfl rfl
    by_cases hb : a = b
    · subst hb
      simp [amend, hbc]
    · by_cases hc : a = c
      · subst hc
        simp [amend, hκ.eq_iff, hb]
      · simp [amend, hκ.eq_iff, hb, hc, hf]

end Amend

/-! ## Deeds -/

/-- What an operation on the lock file of a name does. -/
inductive Deed where
  | nothing
  /-- A process opens the file `i` as `d`, locks it and puts its stamp into it. -/
  | take (me : Pid) (i : Inode) (d : Descriptor) (mode : Nat) (owned : Bool)
  /-- The opening `d` of the file `i` is closed; before that the entry is removed or not. -/
  | giveUp (i : Inode) (d : Descriptor) (removes : Bool)
  deriving DecidableEq

namespace Deed

/-- What becomes of the entry of the name. -/
def entry (e : Bytes) : Deed → Option (Bytes × Option Inode)
  | take _ i _ _ _ => some (e, some i)
  | giveUp _ _ true => some (e, none)
  | _ => none

/-- What becomes of the node of a file. -/
def node : Deed → Option (Inode × Option Node)
  | take me i _ mode owned => some (i, some ⟨.file (Stamp.text me), mode, owned⟩)
  | _ => none

/-- What becomes of an opening. -/
def opening : Deed → Option (Descriptor × Option OpenFile)
  | nothing => none
  | take me i d _ _ => some (d, some ⟨i, (Stamp.text me).length, me⟩)
  | giveUp _ d _ => some (d, none)

/-- What becomes of the lock of a file. -/
def lock : Deed → Option (Inode × Option Descriptor)
  | nothing => none
  | take _ i d _ _ => some (i, some d)
  | giveUp i _ _ => some (i, none)

/-- The file with which something is done. -/
def inode? : Deed → Option Inode
  | nothing => none
  | take _ i _ _ _ | giveUp i _ _ => some i

/-- The file that gets a stamp. -/
def stamps? : Deed → Option Inode
  | take _ i _ _ _ => some i
  | _ => none

/-- The opening with which something is done. -/
def file? : Deed → Option Descriptor
  | nothing => none
  | take _ _ d _ _ | giveUp _ d _ => some d

/-- The opening that is new. -/
def opens? : Deed → Option Descriptor
  | take _ _ d _ _ => some d
  | _ => none

/-- The same deed with other numbers. -/
def renumber (ι : Inode → Inode) (τ : Descriptor → Descriptor) : Deed → Deed
  | nothing => nothing
  | take me i d mode owned => take me (ι i) (τ d) mode owned
  | giveUp i d removes => giveUp (ι i) (τ d) removes

/-- Two deeds are done with different files. -/
def Disjoint (a b : Deed) : Prop :=
  (∀ i, a.inode? = some i → b.inode? ≠ some i) ∧ ∀ d, a.file? = some d → b.file? ≠ some d

variable {a b : Deed} {e e' : Bytes}

theorem entry_key {p : Bytes × Option Inode} (h : a.entry e = some p) : p.1 = e := by
  cases a with
  | nothing => cases h
  | take => cases h; rfl
  | giveUp i d removes =>
    cases removes with
    | true => cases h; rfl
    | false => cases h

theorem node_key {p : Inode × Option Node} (h : a.node = some p) : a.stamps? = some p.1 := by
  cases a <;> cases h
  rfl

theorem inode?_of_stamps? {i : Inode} (h : a.stamps? = some i) : a.inode? = some i := by
  cases a <;> cases h
  rfl

theorem opening_key {p : Descriptor × Option OpenFile} (h : a.opening = some p) :
    a.file? = some p.1 := by
  cases a <;> cases h <;> rfl

theorem lock_key {p : Inode × Option Descriptor} (h : a.lock = some p) : a.inode? = some p.1 := by
  cases a <;> cases h <;> rfl

variable (ι : Inode → Inode) (τ : Descriptor → Descriptor)

theorem entry_renumber (a : Deed) :
    (a.renumber ι τ).entry e = (a.entry e).map (Prod.map id (Option.map ι)) := by
  cases a with
  | nothing | take => rfl
  | giveUp i d removes => cases removes <;> rfl

theorem node_renumber (a : Deed) : (a.renumber ι τ).node = a.node.map (Prod.map ι id) := by
  cases a <;> rfl

theorem opening_renumber (a : Deed) : (a.renumber ι τ).opening =
    a.opening.map (Prod.map τ (Option.map fun f => { f with inode := ι f.inode })) := by
  cases a <;> rfl

theorem lock_renumber (a : Deed) :
    (a.renumber ι τ).lock = a.lock.map (Prod.map ι (Option.map τ)) := by
  cases a <;> rfl

theorem stamps?_renumber (a : Deed) : (a.renumber ι τ).stamps? = a.stamps?.map ι := by
  cases a <;> rfl

theorem opens?_renumber (a : Deed) : (a.renumber ι τ).opens? = a.opens?.map τ := by
  cases a <;> rfl

end Deed

/-! ## Machines before and after a deed -/

/-- A directory is the same but for its entries. -/
def FileTree.KeepsDirectory (t t' : FileTree) (D : Inode) : Prop :=
  ∀ parent entries mode owned, t.node? D = some ⟨.directory parent entries, mode, owned⟩ →
    ∃ entries', t'.node? D = some ⟨.directory parent entries', mode, owned⟩

/-- What a deed at the name `e` of the directory `D` makes of a tree. -/
structure FileTree.Does (D : Inode) (e : Bytes) (deed : Deed) (t t' : FileTree) : Prop where
  entries : ∀ x, t'.child? D x = amend (t.child? D) (deed.entry e) x
  nodes : ∀ j ≠ D, t'.node? j = amend t.node? deed.node j
  directory : t.KeepsDirectory t' D
  root : t'.root = t.root
  cwd : t'.cwd = t.cwd
  devices : t'.devices = t.devices
  /-- A new file gets the next number. -/
  next : t'.next = if deed.stamps? = some t.next then t.next + 1 else t.next
  finds : ∀ dir, t.Finds dir D → t'.Finds dir D

/-- What a deed makes of a machine; registries are left aside. -/
structure Machine.Does (D : Inode) (e : Bytes) (deed : Deed) (m m' : Machine) : Prop where
  tree : FileTree.Does D e deed m.tree m'.tree
  opened : ∀ d, m'.opened.get? d = amend m.opened.get? deed.opening d
  locks : ∀ i, m'.locks.get? i = amend m.locks.get? deed.lock i
  processes : m'.processes = m.processes
  nextDescriptor : m.nextDescriptor ≤ m'.nextDescriptor
  opens : ∀ d, deed.opens? = some d → d = m.nextDescriptor ∧ m'.nextDescriptor = d + 1

/-- Two machines are one but for the numbers of files and openings: those of the files
    are exchanged by `ι`, those of openings by `τ`.  Left out are what does not belong to
    any file, opening or registry: the time, what was said, and which numbers come next. -/
structure Machine.Renumbered (D : Inode) (ι : Equiv.Perm Inode) (τ : Equiv.Perm Descriptor)
    (m m' : Machine) : Prop where
  entries : ∀ e, m'.tree.child? D e = (m.tree.child? D e).map ι
  nodes : ∀ j ≠ D, m'.tree.node? (ι j) = m.tree.node? j
  directory : m.tree.KeepsDirectory m'.tree D
  root : m'.tree.root = m.tree.root
  cwd : m'.tree.cwd = m.tree.cwd
  devices : m'.tree.devices = m.tree.devices
  opened : ∀ d, m'.opened.get? (τ d) =
    (m.opened.get? d).map fun f => { f with inode := ι f.inode }
  locks : ∀ i, m'.locks.get? (ι i) = (m.locks.get? i).map τ
  processes : m'.processes = m.processes
  counts : ∀ pid path, (m'.registry pid).count path = (m.registry pid).count path

/-! ## What is there already -/

namespace FileTree

variable {t t' : FileTree} {D : Inode} {e : Bytes}

theorem WellFormed.lt_next (hw : t.WellFormed) {i : Inode} (h : (t.node? i).isSome = true) :
    i < t.next := by
  obtain ⟨n, hn⟩ := Option.isSome_iff_exists.1 h
  exact hw.below i n hn

theorem WellFormed.node?_eq_none (hw : t.WellFormed) {i : Inode} (h : t.next ≤ i) :
    t.node? i = none :=
  Option.eq_none_iff_forall_ne_some.2 fun n hn => Nat.not_lt.2 h (hw.below i n hn)

theorem WellFormed.entry (hw : t.WellFormed) {i : Inode} (h : t.child? D e = some i) :
    (t.node? i).isSome = true := by
  simp only [child?, Option.bind_eq_some_iff] at h
  obtain ⟨d, hd, he⟩ := h
  exact hw.listed hd he

theorem KeepsDirectory.trans {t'' : FileTree} (h : t.KeepsDirectory t' D)
    (h' : t'.KeepsDirectory t'' D) : t.KeepsDirectory t'' D := by
  intro parent entries mode owned hn
  obtain ⟨_, hn'⟩ := h _ _ _ _ hn
  exact h' _ _ _ _ hn'

/-- Two trees in which a directory is what it was in a third are alike in it. -/
theorem KeepsDirectory.euclidean {t'' : FileTree} (hd : t.isDirectory D = true)
    (h : t.KeepsDirectory t' D) (h' : t.KeepsDirectory t'' D) : t'.KeepsDirectory t'' D := by
  intro parent' entries' mode' owned' hn'
  obtain ⟨parent, entries, hentries⟩ := isDirectory_iff.1 hd
  obtain ⟨mode, owned, hn⟩ := directory?_eq_some.1 hentries
  obtain ⟨_, hkept⟩ := h _ _ _ _ hn
  rw [hkept] at hn'
  cases hn'
  exact h' _ _ _ _ hn

end FileTree

/-! ## What is done to a tree -/

namespace FileTree

variable {t : FileTree} {D i parent : Inode} {e : Bytes} {entries : Table Bytes Inode} {c : Content}
  {mode : Nat} {owned : Bool}

theorem update_devices (i : Inode) (f : Node → Node) : (t.update i f).devices = t.devices := by
  unfold update
  split <;> rfl

section SetEntries
variable (hn : t.node? D = some ⟨.directory parent entries, mode, owned⟩)
  (f : Table Bytes Inode → Table Bytes Inode)
include hn

theorem setEntries_of_node : t.setEntries D f = t.setContent D (.directory parent (f entries)) :=
  setEntries_eq (directory?_eq_some.2 ⟨_, _, hn⟩) f

theorem node?_setEntries (j : Inode) : (t.setEntries D f).node? j =
    if j = D then some ⟨.directory parent (f entries), mode, owned⟩ else t.node? j := by
  rw [setEntries_of_node hn, setContent, node?_update, hn]
  rfl

theorem child?_setEntries (x : Bytes) : (t.setEntries D f).child? D x = (f entries).get? x := by
  have hdir : (t.setEntries D f).directory? D = some (parent, f entries) :=
    directory?_eq_some.2 ⟨mode, owned, by rw [node?_setEntries hn, if_pos rfl]⟩
  exact child?_eq hdir

theorem keepsDirectory_setEntries : t.KeepsDirectory (t.setEntries D f) D := by
  intro parent' entries' mode' owned' hn'
  rw [hn] at hn'
  cases hn'
  exact ⟨_, by rw [node?_setEntries hn, if_pos rfl]⟩

end SetEntries

theorem does_nothing (t : FileTree) (D : Inode) (e : Bytes) : FileTree.Does D e .nothing t t where
  entries _ := rfl
  nodes _ _ := rfl
  directory _ entries _ _ hn := ⟨entries, hn⟩
  root := rfl
  cwd := rfl
  devices := rfl
  next := rfl
  finds _ hf := hf

theorem does_stamp {old : Bytes} (hw : t.WellFormed) (hd : t.isDirectory D = true)
    (hentry : t.child? D e = some i) (hn : t.node? i = some ⟨.file old, mode, owned⟩) (me : Pid)
    (d : Descriptor) : FileTree.Does D e (.take me i d mode owned) t
      (t.setContent i (.file (Stamp.text me))) := by
  have hne : D ≠ i := by
    rintro rfl
    simp only [isDirectory, directory?, hn, Option.isSome_none] at hd
    cases hd
  have hnode : ∀ j, (t.setContent i (.file (Stamp.text me))).node? j =
      if j = i then some ⟨.file (Stamp.text me), mode, owned⟩ else t.node? j := by
    intro j
    rw [setContent, node?_update, hn]
    rfl
  constructor
  case entries =>
    intro x
    have hsame : (t.setContent i (.file (Stamp.text me))).child? D x = t.child? D x := by
      simp only [child?, directory?_setContent_ne hne]
    rw [hsame]
    by_cases hx : x = e
    · subst hx
      simp only [amend, Deed.entry, if_true, hentry]
    · simp only [amend, Deed.entry, if_neg hx]
  case nodes => exact fun j _ => hnode j
  case directory =>
    intro parent entries mode' owned' hn'
    exact ⟨entries, by rw [hnode, if_neg hne, hn']⟩
  case root => exact update_root i _
  case cwd => exact update_cwd i _
  case devices => exact update_devices i _
  case next =>
    have hlt : i ≠ t.next := Nat.ne_of_lt (hw.below i _ hn)
    have hold : ¬ some i = some t.next := fun h => hlt (Option.some.inj h)
    rw [setContent, update_next]
    exact (if_neg hold).symm
  case finds => exact fun dir hf => hf.mono (rewrite_within hn) hw

section Create
variable (hw : t.WellFormed) (hl : t.LooksUp D e none)
include hw hl

/-- The directory of a new node, once the node is there and before it has its entry. -/
theorem exists_withNode : ∃ parent entries mode' owned,
    t.directory? D = some (parent, entries) ∧
    (t.withNode c mode).node? D = some ⟨.directory parent entries, mode', owned⟩ := by
  obtain ⟨parent, entries, hentries⟩ := isDirectory_iff.1 hl.isDirectory
  obtain ⟨mode, owned, hn⟩ := directory?_eq_some.1 hentries
  exact ⟨parent, entries, mode, owned, hentries, by
    rw [node?_withNode, if_neg (hl.ne_next hw), hn]⟩

theorem child?_create (x : Bytes) : (t.create D e c mode).1.child? D x =
    if x = e then some t.next else t.child? D x := by
  obtain ⟨parent, entries, mode', owned, hentries, hn⟩ := exists_withNode hw hl
  rw [create_eq, enter, child?_setEntries hn, Table.get?_insert, child?_eq hentries]

theorem node?_create {j : Inode} (hj : j ≠ D) :
    (t.create D e c mode).1.node? j =
      if j = t.next then some ⟨c, mode, true⟩ else t.node? j := by
  obtain ⟨parent, entries, mode', owned, -, hn⟩ := exists_withNode hw hl
  rw [create_eq, enter, node?_setEntries hn, if_neg hj, node?_withNode]

theorem keepsDirectory_create :
    t.KeepsDirectory (t.create D e (.file []) fileMode).1 D := by
  intro parent entries mode owned hn
  have hn' : (t.withNode (.file []) fileMode).node? D =
      some ⟨.directory parent entries, mode, owned⟩ := by
    rw [node?_withNode, if_neg (hl.ne_next hw), hn]
  exact ⟨_, by rw [create_eq, enter, node?_setEntries hn', if_pos rfl]⟩

theorem create_devices : (t.create D e (.file []) fileMode).1.devices = t.devices := by
  obtain ⟨parent, entries, mode, owned, -, hn⟩ := exists_withNode hw hl
  rw [create_eq, enter, setEntries_of_node hn]
  exact update_devices D _

theorem create_next : (t.create D e (.file []) fileMode).1.next = t.next + 1 := by
  obtain ⟨parent, entries, mode, owned, -, hn⟩ := exists_withNode hw hl
  rw [create_eq, enter, setEntries_of_node hn]
  exact update_next D _

theorem does_create (me : Pid) (d : Descriptor) :
    FileTree.Does D e (.take me t.next d fileMode true) t
      ((t.create D e (.file []) fileMode).1.setContent t.next (.file (Stamp.text me))) := by
  have hgrows : t.Grows (t.create D e (.file []) fileMode).1 :=
    create_grows hw hl fun _ _ _ _ h => by cases h
  have hstamp : FileTree.Does D e (.take me t.next d fileMode true)
      (t.create D e (.file []) fileMode).1 _ :=
    does_stamp hgrows.wellFormed (hgrows.isDirectory_of hl.isDirectory)
      (by rw [child?_create hw hl, if_pos rfl]) (create_node hw hl) me d
  constructor
  case entries =>
    intro x
    rw [hstamp.entries]
    by_cases hx : x = e
    · simp only [amend, Deed.entry, if_pos hx]
    · simp only [amend, Deed.entry, if_neg hx, child?_create hw hl]
  case nodes =>
    intro j hj
    rw [hstamp.nodes j hj]
    by_cases hnew : j = t.next
    · simp only [amend, Deed.node, if_pos hnew]
    · simp only [amend, Deed.node, if_neg hnew, node?_create hw hl hj]
  case directory => exact (keepsDirectory_create hw hl).trans hstamp.directory
  case root => exact hstamp.root.trans hgrows.root
  case cwd => exact hstamp.cwd.trans hgrows.cwd
  case devices => exact hstamp.devices.trans (create_devices hw hl)
  case next =>
    rw [setContent, update_next, create_next hw hl]
    exact (if_pos rfl).symm
  case finds => exact fun dir hf => hstamp.finds dir (hf.mono hgrows.toWithin hw)

end Create

theorem does_remove (hw : t.WellFormed) (hd : t.isDirectory D = true) (i : Inode) (d : Descriptor)
    {removes : Bool} (hl : removes = true → ∃ j, t.LooksUp D e (some j) ∧ t.link? j = none ∧
      t.isDirectory j = false) :
    FileTree.Does D e (.giveUp i d removes) t (if removes then t.remove D e else t) := by
  cases removes with
  | false => exact { does_nothing t D e with }
  | true =>
    obtain ⟨j, hlook, hlink, hj⟩ := hl rfl
    obtain ⟨parent, entries, hentries⟩ := isDirectory_iff.1 hd
    obtain ⟨mode, owned, hn⟩ := directory?_eq_some.1 hentries
    rw [if_pos rfl]
    constructor
    case entries =>
      intro x
      rw [remove, child?_setEntries hn, Table.get?_erase]
      simp only [amend, Deed.entry, child?_eq hentries]
    case nodes =>
      intro k hk
      rw [remove, node?_setEntries hn, if_neg hk]
      rfl
    case directory => exact keepsDirectory_setEntries hn _
    case root => exact (remove_within (t := t)).root.symm
    case cwd => exact (remove_within (t := t)).cwd.symm
    case devices =>
      rw [remove, setEntries_of_node hn]
      exact update_devices D _
    case next =>
      rw [remove, setEntries_of_node hn]
      exact update_next D _
    case finds => exact fun dir hf => hf.remove hw hlook hlink hj

end FileTree

namespace Machine

variable {m : Machine} {me : Pid} {D i : Inode} {e : Bytes} {t : FileTree} {d : Descriptor}
  {f : OpenFile} {mode : Nat} {owned : Bool}

theorem does_skip (m : Machine) (D : Inode) (e : Bytes) (n : Nat) : m.Does D e .nothing (m.skip n) where
  tree := FileTree.does_nothing m.tree D e
  opened _ := rfl
  locks _ := rfl
  processes := rfl
  nextDescriptor := Nat.le_add_right _ n
  opens _ h := by cases h

theorem does_taken (h : FileTree.Does D e (.take me i m.nextDescriptor mode owned) m.tree
    (t.setContent i (.file (Stamp.text me)))) :
    m.Does D e (.take me i m.nextDescriptor mode owned) (m.taken me i t) where
  tree := h
  opened _ := Table.get?_insert _ _ _ _
  locks _ := Table.get?_insert _ _ _ _
  processes := rfl
  nextDescriptor := Nat.le_succ _
  opens _ h := by
    cases h
    exact ⟨rfl, rfl⟩

theorem does_close (hw : m.WellFormed) (hlock : m.locks.get? f.inode = some d)
    (hopened : m.opened.get? d = some f) {removes : Bool}
    (h : FileTree.Does D e (.giveUp f.inode d removes) m.tree t) :
    m.Does D e (.giveUp f.inode d removes) ((m.setTree t).close d) where
  tree := h
  opened _ := opened_close
  locks i := by
    -- the lock of the opening is that of its file, and it has no other
    have hafter : ∀ d', ((m.setTree t).close d).locks.get? i = some d' ↔
        m.locks.get? i = some d' ∧ d' ≠ d := by
      intro d'
      simp only [close, dropLock, setTree, Table.get?_filter hw.lockKeys, decide_eq_true_eq]
    simp only [amend, Deed.lock]
    split
    · rename_i hi
      subst hi
      refine Option.eq_none_iff_forall_ne_some.2 fun d' hd' => ?_
      obtain ⟨hbefore, hne⟩ := (hafter d').1 hd'
      rw [hlock] at hbefore
      exact hne (Option.some.inj hbefore).symm
    · rename_i hi
      refine Option.ext fun d' => (hafter d').trans ⟨And.left, fun hbefore => ⟨hbefore, ?_⟩⟩
      rintro rfl
      obtain ⟨f', hf', rfl⟩ := hw.locked hbefore
      rw [hopened] at hf'
      cases hf'
      exact hi rfl
  processes := rfl
  nextDescriptor := Nat.le_refl _
  opens _ h := by cases h

theorem Does.registered {m' : Machine} {deed : Deed} (h : m.Does D e deed m') (r : Registry) :
    m.Does D e deed (m'.setRegistry me r) :=
  { h with }

end Machine

/-! ## Deeds in either order -/

/-- An exchange of numbers that leaves those below `n` alone. -/
def FixesBelow (n : Nat) (κ : Equiv.Perm Nat) : Prop := ∀ k < n, κ k = k

theorem FixesBelow.le {n k : Nat} {κ : Equiv.Perm Nat} (h : FixesBelow n κ) (hk : n ≤ k) :
    n ≤ κ k := by
  refine Nat.not_lt.1 fun hlt => ?_
  have heq : κ k = k := κ.injective (h _ hlt)
  exact Nat.not_lt.2 hk (heq ▸ hlt)

/-- A number that the first of two things gets, or the second one, is exchanged for the
    number that it gets if they come in the other order. -/
theorem exists_fixesBelow {n k k' : Nat} {a b : Prop} (ha : a → k = n + 1) (hb : b → k' = n + 1)
    (hk : n ≤ k) (hk' : n ≤ k') :
    ∃ κ : Equiv.Perm Nat, FixesBelow n κ ∧ (a → κ n = k') ∧ (b → κ k = n) := by
  have hfix : ∀ x y, n ≤ x → n ≤ y → FixesBelow n (Equiv.swap x y) := by
    intro x y hx hy j hj
    exact Equiv.swap_apply_of_ne_of_ne (by omega) (by omega)
  by_cases hboth : b
  · refine ⟨Equiv.swap n k, hfix _ _ (Nat.le_refl n) hk, fun h => ?_, fun _ =>
      Equiv.swap_apply_right n k⟩
    rw [Equiv.swap_apply_left, ha h, hb hboth]
  · exact ⟨Equiv.swap n k', hfix _ _ (Nat.le_refl n) hk', fun _ => Equiv.swap_apply_left n k',
      fun h => absurd h hboth⟩

namespace Machine

variable {m ma mb mab mba : Machine} {D : Inode} {ea eb : Bytes} {a b : Deed}
  {ι : Equiv.Perm Inode} {τ : Equiv.Perm Descriptor}

theorem WellFormed.opened_eq_none (hw : m.WellFormed) {d : Descriptor} (h : m.nextDescriptor ≤ d) :
    m.opened.get? d = none :=
  Option.eq_none_iff_forall_ne_some.2 fun _ hf => Nat.not_lt.2 h (hw.opened hf).1

theorem WellFormed.renumbered (hw : m.WellFormed) (D : Inode) (hι : FixesBelow m.tree.next ι)
    (hτ : FixesBelow m.nextDescriptor τ) : m.Renumbered D ι τ m where
  entries e := by
    cases hentry : m.tree.child? D e with
    | none => rfl
    | some i => rw [Option.map_some, hι i (hw.tree.lt_next (hw.tree.entry hentry))]
  nodes j _ := by
    by_cases hj : j < m.tree.next
    · rw [hι j hj]
    · have hle := Nat.not_lt.1 hj
      rw [hw.tree.node?_eq_none hle, hw.tree.node?_eq_none (hι.le hle)]
  directory _ entries _ _ hn := ⟨entries, hn⟩
  root := rfl
  cwd := rfl
  devices := rfl
  opened d := by
    by_cases hlt : d < m.nextDescriptor
    · rw [hτ d hlt]
      cases hf : m.opened.get? d with
      | none => rfl
      | some f => rw [Option.map_some, hι _ (hw.tree.lt_next (hw.opened hf).2)]
    · have hle := Nat.not_lt.1 hlt
      rw [hw.opened_eq_none hle, hw.opened_eq_none (hτ.le hle), Option.map_none]
  locks i := by
    by_cases hlt : i < m.tree.next
    · rw [hι i hlt]
      cases hd : m.locks.get? i with
      | none => rfl
      | some d =>
        obtain ⟨f, hf, -⟩ := hw.locked hd
        rw [Option.map_some, hτ d (hw.opened hf).1]
    · have hle := Nat.not_lt.1 hlt
      rw [hw.lock_eq_none hle, hw.lock_eq_none (hι.le hle), Option.map_none]
  processes := rfl
  counts _ _ := rfl

/-- **Deeds that have nothing in common may be done in either order.**  New files and
    openings then get other numbers. -/
theorem Does.renumbered (hw : m.WellFormed) (hd : m.tree.isDirectory D = true)
    (ha : m.Does D ea a ma) (hab : ma.Does D eb b mab)
    (hb : m.Does D eb (b.renumber ι τ) mb) (hba : mb.Does D ea (a.renumber ι τ) mba)
    (he : ea ≠ eb) (hdisjoint : a.Disjoint b) (hι : FixesBelow m.tree.next ι)
    (hτ : FixesBelow m.nextDescriptor τ)
    (hcounts : ∀ pid path, (mba.registry pid).count path = (mab.registry pid).count path) :
    mab.Renumbered D ι τ mba := by
  have hold : m.Renumbered D ι τ m := hw.renumbered D hι hτ
  have hD : ι D = D := hι D (hw.tree.lt_next (FileTree.isDirectory_node hd))
  constructor
  case entries =>
    intro e
    rw [hba.tree.entries, amend_congr (hb.tree.entries e), hab.tree.entries,
      amend_congr (ha.tree.entries e), Deed.entry_renumber, Deed.entry_renumber]
    exact amend_amend_map Function.injective_id (hold.entries e) fun p q hp hq => by
      rw [Deed.entry_key hp, Deed.entry_key hq]
      exact he
  case nodes =>
    intro j hj
    have hj' : ι j ≠ D := fun h => hj (ι.injective (h.trans hD.symm))
    rw [hba.tree.nodes _ hj', amend_congr (hb.tree.nodes _ hj'), hab.tree.nodes j hj,
      amend_congr (ha.tree.nodes j hj), Deed.node_renumber, Deed.node_renumber]
    exact amend_amend_map ι.injective (hold.nodes j hj) fun p q hp hq heq =>
      hdisjoint.1 _ (Deed.inode?_of_stamps? (Deed.node_key hp))
        (heq ▸ Deed.inode?_of_stamps? (Deed.node_key hq))
  case directory =>
    exact (ha.tree.directory.trans hab.tree.directory).euclidean hd
      (hb.tree.directory.trans hba.tree.directory)
  case root => rw [hba.tree.root, hb.tree.root, hab.tree.root, ha.tree.root]
  case cwd => rw [hba.tree.cwd, hb.tree.cwd, hab.tree.cwd, ha.tree.cwd]
  case devices => rw [hba.tree.devices, hb.tree.devices, hab.tree.devices, ha.tree.devices]
  case opened =>
    intro d
    rw [hba.opened, amend_congr (hb.opened _), hab.opened, amend_congr (ha.opened d),
      Deed.opening_renumber, Deed.opening_renumber]
    exact amend_amend_map τ.injective (hold.opened d) fun p q hp hq heq =>
      hdisjoint.2 _ (Deed.opening_key hp) (heq ▸ Deed.opening_key hq)
  case locks =>
    intro i
    rw [hba.locks, amend_congr (hb.locks _), hab.locks, amend_congr (ha.locks i),
      Deed.lock_renumber, Deed.lock_renumber]
    exact amend_amend_map ι.injective (hold.locks i) fun p q hp hq heq =>
      hdisjoint.1 _ (Deed.lock_key hp) (heq ▸ Deed.lock_key hq)
  case processes => rw [hba.processes, hb.processes, hab.processes, ha.processes]
  case counts => exact hcounts

end Machine

end NamedMutex
