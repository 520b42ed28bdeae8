/-
  What becomes of a tree, and of the ways through it, when it changes.

  A tree lies within another if the other has all its nodes, and its directories
  list there what they list here, and perhaps more.  Making directories and
  files makes a tree grow; removing an entry makes it shrink.

  * `Leads.mono`: where a path leads, it leads in every tree that has grown;
  * `Walks.create`: a path to a free name leads to the node that is made there;
  * `Walks.remove`: the removal of an entry that leads to no directory is not
    noticed on the way to a directory.
-/
import NamedMutex.Proofs.Walks

namespace NamedMutex

/-- What a node holds is there in another one, and perhaps more entries. -/
inductive Content.Within : Content → Content → Prop
  | file {old new} : Within (.file old) (.file new)
  | directory {parent} {entries entries' : Table Bytes Inode} :
      (∀ name i, entries.get? name = some i → entries'.get? name = some i) →
      Within (.directory parent entries) (.directory parent entries')
  | link {target} : Within (.link target) (.link target)
  | null : Within .null .null

theorem Content.Within.refl : ∀ c : Content, c.Within c
  | .file _ => .file
  | .directory _ _ => .directory fun _ _ h => h
  | .link _ => .link
  | .null => .null

theorem Content.Within.trans {a b c : Content} (h : a.Within b) (h' : b.Within c) : a.Within c := by
  cases h with
  | file => cases h'; exact .file
  | directory h =>
    cases h' with
    | directory h' => exact .directory fun name i hi => h' name i (h name i hi)
  | link => cases h'; exact .link
  | null => cases h'; exact .null

namespace FileTree

/-- The nodes of a tree are there in another one, with the same rights. -/
structure Within (t t' : FileTree) : Prop where
  root : t'.root = t.root
  cwd : t'.cwd = t.cwd
  nodes : ∀ i n, t.node? i = some n → ∃ n', t'.node? i = some n' ∧
    n'.mode = n.mode ∧ n'.owned = n.owned ∧ n.content.Within n'.content

/-- The numbers of the nodes lie below the next one, and what directories list
    is there. -/
structure WellFormed (t : FileTree) : Prop where
  below : ∀ i n, t.node? i = some n → i < t.next
  listed : ∀ {dir parent entries name i}, t.directory? dir = some (parent, entries) →
    entries.get? name = some i → (t.node? i).isSome = true

/-- The bytes of a file. -/
def file? (t : FileTree) (i : Inode) : Option Bytes :=
  match t.node? i with
  | some ⟨.file bytes, _, _⟩ => some bytes
  | _ => none

variable {t t' t'' : FileTree}

theorem Within.refl (t : FileTree) : t.Within t :=
  ⟨rfl, rfl, fun _ n h => ⟨n, h, rfl, rfl, .refl _⟩⟩

theorem Within.trans (h : t.Within t') (h' : t'.Within t'') : t.Within t'' where
  root := h'.root.trans h.root
  cwd := h'.cwd.trans h.cwd
  nodes i n hn := by
    obtain ⟨n', hn', hm, ho, hc⟩ := h.nodes i n hn
    obtain ⟨n'', hn'', hm', ho', hc'⟩ := h'.nodes i n' hn'
    exact ⟨n'', hn'', hm'.trans hm, ho'.trans ho, hc.trans hc'⟩

theorem directory?_eq_some {i parent : Inode} {entries : Table Bytes Inode} :
    t.directory? i = some (parent, entries) ↔
      ∃ mode owned, t.node? i = some ⟨.directory parent entries, mode, owned⟩ := by
  unfold directory?
  constructor
  · intro h
    split at h <;> cases h
    rename_i hn
    exact ⟨_, _, hn⟩
  · rintro ⟨_, _, hn⟩
    simp only [hn]

theorem file?_eq_some {i : Inode} {bytes : Bytes} :
    t.file? i = some bytes ↔ ∃ mode owned, t.node? i = some ⟨.file bytes, mode, owned⟩ := by
  unfold file?
  constructor
  · intro h
    split at h <;> cases h
    rename_i hn
    exact ⟨_, _, hn⟩
  · rintro ⟨_, _, hn⟩
    simp only [hn]

theorem LooksUp.node {dir i : Inode} {name : Bytes} (hw : t.WellFormed)
    (h : t.LooksUp dir name (some i)) : (t.node? i).isSome = true := by
  obtain ⟨-, -, _, _, hd, he⟩ := h
  exact hw.listed hd he

section Within
variable (h : t.Within t')
include h

theorem Within.node {i : Inode} (hi : (t.node? i).isSome = true) : (t'.node? i).isSome = true := by
  obtain ⟨n, hn⟩ := Option.isSome_iff_exists.1 hi
  obtain ⟨n', hn', -⟩ := h.nodes i n hn
  simp [hn']

theorem Within.may {i : Inode} (hi : (t.node? i).isSome = true) (a : Access) :
    t'.may i a = t.may i a := by
  obtain ⟨n, hn⟩ := Option.isSome_iff_exists.1 hi
  obtain ⟨n', hn', hm, ho, -⟩ := h.nodes i n hn
  have hbits : n'.bits = n.bits := by simp only [Node.bits, hm, ho]
  simp only [FileTree.may, hn, hn']
  exact decide_eq_decide.2 (by rw [hbits])

theorem Within.directory {i parent : Inode} {entries : Table Bytes Inode}
    (hd : t.directory? i = some (parent, entries)) :
    ∃ entries', t'.directory? i = some (parent, entries') ∧
      ∀ name j, entries.get? name = some j → entries'.get? name = some j := by
  obtain ⟨mode, owned, hn⟩ := directory?_eq_some.1 hd
  obtain ⟨⟨c, mode', owned'⟩, hn', -, -, hc⟩ := h.nodes i _ hn
  cases hc with
  | directory he => exact ⟨_, directory?_eq_some.2 ⟨_, _, hn'⟩, he⟩

theorem Within.isDirectory {i : Inode} (hi : (t.node? i).isSome = true) :
    t'.isDirectory i = t.isDirectory i := by
  obtain ⟨⟨c, mode, owned⟩, hn⟩ := Option.isSome_iff_exists.1 hi
  obtain ⟨⟨c', mode', owned'⟩, hn', -, -, hc⟩ := h.nodes i _ hn
  cases hc <;> simp [FileTree.isDirectory, directory?, hn, hn']

theorem Within.link {i : Inode} (hi : (t.node? i).isSome = true) : t'.link? i = t.link? i := by
  obtain ⟨⟨c, mode, owned⟩, hn⟩ := Option.isSome_iff_exists.1 hi
  obtain ⟨⟨c', mode', owned'⟩, hn', -, -, hc⟩ := h.nodes i _ hn
  cases hc <;> simp [link?, hn, hn']

theorem Within.isDirectory_of {i : Inode} (hi : t.isDirectory i = true) :
    t'.isDirectory i = true := by
  obtain ⟨_, _, hd⟩ := isDirectory_iff.1 hi
  obtain ⟨_, hd', -⟩ := h.directory hd
  exact isDirectory_iff.2 ⟨_, _, hd'⟩

theorem Within.mayDirectory {i : Inode} (hi : t.isDirectory i = true) (a : Access) :
    t'.may i a = t.may i a := by
  obtain ⟨_, _, hd⟩ := isDirectory_iff.1 hi
  obtain ⟨_, _, hn⟩ := directory?_eq_some.1 hd
  exact h.may (by simp [hn]) a

theorem Within.origin (i : Inode) (p : Path) : t'.origin i p = t.origin i p := by
  simp only [FileTree.origin, h.root]

theorem Within.looksUp {dir i : Inode} {name : Bytes} (hl : t.LooksUp dir name (some i)) :
    t'.LooksUp dir name (some i) := by
  have hdir := hl.isDirectory
  obtain ⟨hmay, hname, parent, entries, hd, he⟩ := hl
  obtain ⟨entries', hd', hsub⟩ := h.directory hd
  exact ⟨(h.mayDirectory hdir _).trans hmay, hname, parent, entries', hd', hsub _ _ he⟩

theorem Walks.mono (hw : t.WellFormed) {aim : Aim} {b : Nat} {at_ i : Inode}
    {e e' : Option (Inode × Bytes)} {names : List Bytes} {p : Place}
    (hwalk : Walks t aim b at_ e names p) (hp : p = .found i e') :
    Walks t' aim b at_ e names p := by
  induction hwalk with
  | here => exact .here
  | slash hd _ ih => exact .slash (h.isDirectory_of hd) (ih hp)
  | stay hd hmay _ ih =>
    exact .stay (h.isDirectory_of hd) ((h.mayDirectory hd _).trans hmay) (ih hp)
  | up hd hmay _ ih =>
    have hdir := isDirectory_iff.2 ⟨_, _, hd⟩
    obtain ⟨_, hd', -⟩ := h.directory hd
    exact .up hd' ((h.mayDirectory hdir _).trans hmay) (ih hp)
  | vacant => cases hp
  | entry hl hfile hlink _ ih =>
    exact .entry (h.looksUp hl) hfile ((h.link (hl.node hw)).trans hlink) (ih hp)
  | linkItself hl haim hlink =>
    exact .linkItself (h.looksUp hl) haim ((h.link (hl.node hw)).trans hlink)
  | link hl hfile hlink hlast ht _ ih =>
    refine .link (h.looksUp hl) hfile ((h.link (hl.node hw)).trans hlink) hlast ht ?_
    rw [h.origin]
    exact ih hp

/-- **Where a path leads, it leads in every tree that has grown.** -/
theorem Leads.mono (hw : t.WellFormed) {p : Path} {i : Inode} (hl : t.Leads p i) : t'.Leads p i := by
  obtain ⟨hr, e, hwalk⟩ := leads_iff.1 hl
  refine leads_iff.2 ⟨hr, e, ?_⟩
  rw [h.origin, h.cwd]
  exact hwalk.mono h hw rfl

end Within

/-! ## Changes of single nodes -/

theorem node?_update (i j : Inode) (f : Node → Node) :
    (t.update i f).node? j = if j = i then (t.node? i).map f else t.node? j := by
  unfold update
  cases hn : t.node? i with
  | none =>
    by_cases hj : j = i
    · subst hj; simp [hn]
    · simp [hj]
  | some n => simp only [node?, Table.get?_insert, Option.map_some]

theorem update_next (i : Inode) (f : Node → Node) : (t.update i f).next = t.next := by
  unfold update; split <;> rfl

theorem update_root (i : Inode) (f : Node → Node) : (t.update i f).root = t.root := by
  unfold update; split <;> rfl

theorem update_cwd (i : Inode) (f : Node → Node) : (t.update i f).cwd = t.cwd := by
  unfold update; split <;> rfl

theorem within_setContent {i : Inode} {c : Content}
    (h : ∀ n, t.node? i = some n → n.content.Within c) : t.Within (t.setContent i c) where
  root := update_root i _
  cwd := update_cwd i _
  nodes j n hn := by
    simp only [setContent, node?_update]
    by_cases hj : j = i
    · subst hj
      exact ⟨{ n with content := c }, by simp [hn], rfl, rfl, h n hn⟩
    · exact ⟨n, by simp [hj, hn], rfl, rfl, .refl _⟩

theorem setContent_within {i : Inode} {c : Content}
    (h : ∀ n, t.node? i = some n → c.Within n.content) : (t.setContent i c).Within t where
  root := (update_root i _).symm
  cwd := (update_cwd i _).symm
  nodes j n hn := by
    simp only [setContent, node?_update] at hn
    by_cases hj : j = i
    · subst hj
      simp only [if_true, Option.map_eq_some_iff] at hn
      obtain ⟨n', hn', rfl⟩ := hn
      exact ⟨n', hn', rfl, rfl, h n' hn'⟩
    · rw [if_neg hj] at hn
      exact ⟨n, hn, rfl, rfl, .refl _⟩

theorem node?_setContent {i j : Inode} {c : Content} :
    ((t.setContent i c).node? j).isSome = (t.node? j).isSome := by
  simp only [setContent, node?_update]
  by_cases hj : j = i
  · subst hj; simp
  · simp [hj]

theorem file?_setContent_ne {i j : Inode} {c : Content} (h : j ≠ i) :
    (t.setContent i c).file? j = t.file? j := by
  simp only [file?, setContent, node?_update, if_neg h]

theorem directory?_setContent_ne {i j : Inode} {c : Content} (h : j ≠ i) :
    (t.setContent i c).directory? j = t.directory? j := by
  simp only [directory?, setContent, node?_update, if_neg h]

theorem directory?_setContent {i parent : Inode} {entries : Table Bytes Inode}
    (h : (t.node? i).isSome = true) :
    (t.setContent i (.directory parent entries)).directory? i = some (parent, entries) := by
  obtain ⟨n, hn⟩ := Option.isSome_iff_exists.1 h
  simp [directory?, setContent, node?_update, hn]

theorem file?_directory {i : Inode} (h : t.isDirectory i = true) : t.file? i = none := by
  obtain ⟨_, _, hd⟩ := isDirectory_iff.1 h
  obtain ⟨_, _, hn⟩ := directory?_eq_some.1 hd
  simp [file?, hn]

theorem isDirectory_of_file? {i : Inode} {bytes : Bytes} (h : t.file? i = some bytes) :
    t.isDirectory i = false := by
  refine Bool.eq_false_iff.2 fun hi => ?_
  rw [file?_directory hi] at h
  cases h

theorem WellFormed.setContent (hw : t.WellFormed) {i : Inode} {c : Content}
    (hc : ∀ parent entries name j, c = .directory parent entries →
      entries.get? name = some j → (t.node? j).isSome = true) : (t.setContent i c).WellFormed where
  below j n hn := by
    have hsome : ((t.setContent i c).node? j).isSome = true := by simp [hn]
    rw [node?_setContent] at hsome
    obtain ⟨n', hn'⟩ := Option.isSome_iff_exists.1 hsome
    rw [FileTree.setContent, update_next]
    exact hw.below j n' hn'
  listed {dir parent entries name j} hd he := by
    rw [node?_setContent]
    by_cases hdir : dir = i
    · subst hdir
      obtain ⟨_, _, hn⟩ := directory?_eq_some.1 hd
      simp only [FileTree.setContent, node?_update, if_true, Option.map_eq_some_iff] at hn
      obtain ⟨n, -, hn⟩ := hn
      cases hn
      exact hc _ _ _ _ rfl he
    · rw [directory?_setContent_ne hdir] at hd
      exact hw.listed hd he

/-! ## Entries -/

section Entries
variable {dir i parent : Inode} {name : Bytes} {entries : Table Bytes Inode}

theorem setEntries_eq (hd : t.directory? dir = some (parent, entries))
    (f : Table Bytes Inode → Table Bytes Inode) :
    t.setEntries dir f = t.setContent dir (.directory parent (f entries)) := by
  simp only [setEntries, hd]

theorem file?_setEntries (f : Table Bytes Inode → Table Bytes Inode) (j : Inode) :
    (t.setEntries dir f).file? j = t.file? j := by
  cases hd : t.directory? dir with
  | none => simp only [setEntries, hd]
  | some d =>
    obtain ⟨parent, entries⟩ := d
    rw [setEntries_eq hd]
    by_cases hj : j = dir
    · subst hj
      have hnode : (t.node? j).isSome = true := by
        obtain ⟨_, _, hn⟩ := directory?_eq_some.1 hd
        simp [hn]
      rw [file?_directory (isDirectory_iff.2 ⟨_, _, hd⟩),
        file?_directory (isDirectory_iff.2 ⟨_, _, directory?_setContent hnode⟩)]
    · exact file?_setContent_ne hj

theorem within_enter (hd : t.directory? dir = some (parent, entries))
    (hfree : entries.get? name = none) : t.Within (t.enter dir name i) := by
  rw [enter, setEntries_eq hd]
  refine within_setContent fun n hn => ?_
  obtain ⟨_, _, hn'⟩ := directory?_eq_some.1 hd
  rw [hn] at hn'
  cases hn'
  refine .directory fun name' j hj => ?_
  rw [Table.get?_insert]
  split
  · rename_i heq
    subst heq
    rw [hfree] at hj
    cases hj
  · exact hj

theorem remove_within : (t.remove dir name).Within t := by
  cases hd : t.directory? dir with
  | none =>
    simp only [remove, setEntries, hd]
    exact .refl t
  | some d =>
    obtain ⟨parent, entries⟩ := d
    rw [remove, setEntries_eq hd]
    refine setContent_within fun n hn => ?_
    obtain ⟨_, _, hn'⟩ := directory?_eq_some.1 hd
    rw [hn] at hn'
    cases hn'
    refine .directory fun name' j hj => ?_
    rw [Table.get?_erase] at hj
    split at hj
    · cases hj
    · exact hj

theorem WellFormed.enter (hw : t.WellFormed) (hi : (t.node? i).isSome = true) :
    (t.enter dir name i).WellFormed := by
  cases hd : t.directory? dir with
  | none => simpa only [FileTree.enter, setEntries, hd] using hw
  | some d =>
    obtain ⟨parent, entries⟩ := d
    rw [FileTree.enter, setEntries_eq hd]
    refine hw.setContent fun parent' entries' name' j hc he => ?_
    cases hc
    rw [Table.get?_insert] at he
    split at he
    · cases he
      exact hi
    · exact hw.listed hd he

theorem WellFormed.remove (hw : t.WellFormed) : (t.remove dir name).WellFormed := by
  cases hd : t.directory? dir with
  | none => simpa only [FileTree.remove, setEntries, hd] using hw
  | some d =>
    obtain ⟨parent, entries⟩ := d
    rw [FileTree.remove, setEntries_eq hd]
    refine hw.setContent fun parent' entries' name' j hc he => ?_
    cases hc
    rw [Table.get?_erase] at he
    split at he
    · cases he
    · exact hw.listed hd he

theorem not_looksUp_remove : ¬ (t.remove dir name).LooksUp dir name (some i) := by
  rintro ⟨-, -, parent', entries', hd', he⟩
  cases hd : t.directory? dir with
  | none =>
    simp only [remove, setEntries, hd] at hd'
    cases hd'
  | some d =>
    obtain ⟨parent, entries⟩ := d
    have hnode : (t.node? dir).isSome = true := by
      obtain ⟨_, _, hn⟩ := directory?_eq_some.1 hd
      simp [hn]
    rw [remove, setEntries_eq hd, directory?_setContent hnode] at hd'
    cases hd'
    rw [Table.get?_erase, if_pos rfl] at he
    cases he

theorem LooksUp.remove {dir' : Inode} {name' : Bytes} {found : Option Inode}
    (hl : t.LooksUp dir' name' found) (hne : ¬ (dir' = dir ∧ name' = name)) :
    (t.remove dir name).LooksUp dir' name' found := by
  obtain ⟨hmay, hname, parent', entries', hd', he⟩ := hl
  have hdir' : (t.node? dir').isSome = true := by
    obtain ⟨_, _, hn⟩ := directory?_eq_some.1 hd'
    simp [hn]
  cases hd : t.directory? dir with
  | none =>
    simp only [FileTree.remove, setEntries, hd]
    exact ⟨hmay, hname, parent', entries', hd', he⟩
  | some d =>
    obtain ⟨parent, entries⟩ := d
    have hback : (t.remove dir name).Within t := remove_within
    have hmay' : (t.remove dir name).may dir' .search = true := by
      rw [← hback.may (by
        rwa [FileTree.remove, setEntries_eq hd, node?_setContent]) .search]
      exact hmay
    refine ⟨hmay', hname, ?_⟩
    rw [FileTree.remove, setEntries_eq hd]
    by_cases hdd : dir' = dir
    · subst hdd
      rw [hd] at hd'
      cases hd'
      refine ⟨_, _, directory?_setContent hdir', ?_⟩
      rw [Table.get?_erase, if_neg fun hn => hne ⟨rfl, hn⟩]
      exact he
    · refine ⟨_, _, (directory?_setContent_ne hdd).trans hd', he⟩

end Entries

/-! ## New nodes -/

/-- A tree has grown: it holds more nodes and entries, and the files as before. -/
structure Grows (t t' : FileTree) : Prop extends t.Within t' where
  files : ∀ i, (t.node? i).isSome = true → t'.file? i = t.file? i
  wellFormed : t'.WellFormed

theorem Grows.refl (h : t.WellFormed) : t.Grows t := ⟨.refl t, fun _ _ => rfl, h⟩

theorem Grows.trans (h : t.Grows t') (h' : t'.Grows t'') : t.Grows t'' :=
  ⟨h.toWithin.trans h'.toWithin,
    fun i hi => (h'.files i (h.node hi)).trans (h.files i hi), h'.wellFormed⟩

/-- A tree with one node more, which nothing lists. -/
def withNode (t : FileTree) (c : Content) (mode : Nat) : FileTree :=
  { t with nodes := t.nodes.insert t.next ⟨c, mode, true⟩, next := t.next + 1 }

theorem create_eq (dir : Inode) (name : Bytes) (c : Content) (mode : Nat) :
    t.create dir name c mode = ((t.withNode c mode).enter dir name t.next, t.next) := rfl

section Create
variable {dir : Inode} {name : Bytes} {c : Content} {mode : Nat}

theorem node?_withNode (j : Inode) :
    (t.withNode c mode).node? j = if j = t.next then some ⟨c, mode, true⟩ else t.node? j := by
  simp only [withNode, node?, Table.get?_insert]

theorem WellFormed.node?_next (hw : t.WellFormed) : t.node? t.next = none := by
  cases hn : t.node? t.next with
  | none => rfl
  | some n => exact absurd (hw.below _ n hn) (Nat.lt_irrefl _)

/-- A content that lists nothing. -/
def ListsNothing (c : Content) : Prop :=
  ∀ parent entries name i, c = .directory parent entries → entries.get? name ≠ some i

theorem withNode_grows (hw : t.WellFormed) (hc : ListsNothing c) : t.Grows (t.withNode c mode) := by
  have hold : ∀ i, (t.node? i).isSome = true → (t.withNode c mode).node? i = t.node? i := by
    intro i hi
    rw [node?_withNode, if_neg]
    rintro rfl
    simp [hw.node?_next] at hi
  refine ⟨⟨rfl, rfl, fun i n hn => ⟨n, ?_, rfl, rfl, .refl _⟩⟩, fun i hi => ?_, ⟨fun i n hn => ?_, ?_⟩⟩
  · rw [hold i (by simp [hn]), hn]
  · simp only [file?, hold i hi]
  · rw [node?_withNode] at hn
    split at hn
    · rename_i heq
      exact heq ▸ Nat.lt_succ_self _
    · exact Nat.lt_succ_of_lt (hw.below i n hn)
  · intro d parent entries n i hd he
    rw [node?_withNode]
    split
    · rfl
    obtain ⟨_, _, hn⟩ := directory?_eq_some.1 hd
    rw [node?_withNode] at hn
    split at hn
    · cases hn
      exact absurd he (hc _ _ _ _ rfl)
    · exact hw.listed (directory?_eq_some.2 ⟨_, _, hn⟩) he

variable (hw : t.WellFormed) (hl : t.LooksUp dir name none)
include hw hl

theorem LooksUp.ne_next : dir ≠ t.next := by
  obtain ⟨_, _, hd⟩ := isDirectory_iff.1 hl.isDirectory
  obtain ⟨_, _, hn⟩ := directory?_eq_some.1 hd
  exact Nat.ne_of_lt (hw.below _ _ hn)

/-- The directory of a free name, in the tree with a node more. -/
theorem LooksUp.withNode : (t.withNode c mode).LooksUp dir name none := by
  have hne := hl.ne_next hw
  obtain ⟨hmay, hname, parent, entries, hd, he⟩ := hl
  refine ⟨?_, hname, parent, entries, ?_, he⟩
  · simpa only [may, node?_withNode, if_neg hne] using hmay
  · simpa only [directory?, node?_withNode, if_neg hne] using hd

theorem create_grows (hc : ListsNothing c) : t.Grows (t.create dir name c mode).1 := by
  have hgrows : t.Grows (t.withNode c mode) := withNode_grows hw hc
  have hl' : (t.withNode c mode).LooksUp dir name none := hl.withNode hw
  obtain ⟨-, -, parent, entries, hd, he⟩ := hl'
  rw [create_eq]
  refine ⟨hgrows.toWithin.trans (within_enter hd he), fun i hi => ?_, ?_⟩
  · rw [← hgrows.files i hi]
    exact file?_setEntries _ i
  · exact hgrows.wellFormed.enter (by simp [node?_withNode])

theorem create_node : (t.create dir name c mode).1.node? t.next = some ⟨c, mode, true⟩ := by
  have hne := hl.ne_next hw
  have hl' : (t.withNode c mode).LooksUp dir name none := hl.withNode hw
  obtain ⟨-, -, parent, entries, hd, he⟩ := hl'
  rw [create_eq, enter, setEntries_eq hd]
  simp only [setContent, node?_update, if_neg (Ne.symm hne), node?_withNode, if_true]

theorem create_looksUp : (t.create dir name c mode).1.LooksUp dir name (some t.next) := by
  have hl' : (t.withNode c mode).LooksUp dir name none := hl.withNode hw
  have hdir := hl'.isDirectory
  obtain ⟨hmay, hname, parent, entries, hd, he⟩ := hl'
  have hin : (t.withNode c mode).Within (t.create dir name c mode).1 := within_enter hd he
  refine ⟨(hin.mayDirectory hdir _).trans hmay, hname, parent, entries.insert name t.next, ?_, ?_⟩
  · rw [create_eq, enter, setEntries_eq hd]
    refine directory?_setContent ?_
    obtain ⟨_, _, hn⟩ := directory?_eq_some.1 hd
    simp [hn]
  · rw [Table.get?_insert, if_pos rfl]

end Create

/-- A walk to a free name leads to the node that is made there. -/
theorem Walks.create (h : t.Within t') (hw : t.WellFormed) {aim : Aim} {b : Nat}
    {at_ dir i : Inode} {e : Option (Inode × Bytes)} {name : Bytes} {names : List Bytes}
    {p : Place} (hwalk : Walks t aim b at_ e names p) (hp : p = .vacant dir name)
    (hl : t'.LooksUp dir name (some i)) (hlink : t'.link? i = none) :
    Walks t' .node b at_ e names (.found i (some (dir, name))) := by
  have hfile : ∀ rest, ¬ AsksFile .node rest := fun _ h => by cases h.1
  induction hwalk with
  | here => cases hp
  | slash hd _ ih => exact .slash (h.isDirectory_of hd) (ih hp)
  | stay hd hmay _ ih =>
    exact .stay (h.isDirectory_of hd) ((h.mayDirectory hd _).trans hmay) (ih hp)
  | up hd hmay _ ih =>
    have hdir := isDirectory_iff.2 ⟨_, _, hd⟩
    obtain ⟨_, hd', -⟩ := h.directory hd
    exact .up hd' ((h.mayDirectory hdir _).trans hmay) (ih hp)
  | vacant =>
    cases hp
    exact .entry hl (hfile _) hlink .here
  | entry hl' _ hlink' _ ih =>
    exact .entry (h.looksUp hl') (hfile _) ((h.link (hl'.node hw)).trans hlink') (ih hp)
  | linkItself => cases hp
  | link hl' _ hlink' _ ht _ ih =>
    refine .link (h.looksUp hl') (hfile _) ((h.link (hl'.node hw)).trans hlink')
      (fun h => by cases h.2) ht ?_
    rw [h.origin]
    exact ih hp

theorem Walks.vacant_looksUp {aim : Aim} {b : Nat} {at_ dir : Inode}
    {e : Option (Inode × Bytes)} {name : Bytes} {names : List Bytes} {p : Place}
    (hwalk : Walks t aim b at_ e names p) (hp : p = .vacant dir name) :
    t.LooksUp dir name none := by
  induction hwalk with
  | here | linkItself => cases hp
  | slash _ _ ih | stay _ _ _ ih | up _ _ _ ih | entry _ _ _ _ ih | link _ _ _ _ _ _ ih =>
    exact ih hp
  | vacant hl =>
    cases hp
    exact hl

/-! ## Removed entries -/

/-- **The removal of an entry that leads to no directory is not noticed on the
    way to another node.** -/
theorem Walks.remove_of_ne {dir i j : Inode} {name : Bytes} {b₀ : Nat}
    {e₀ e₁ : Option (Inode × Bytes)} (hlast : Walks t .node b₀ dir e₀ [name] (.found i e₁))
    (hi : t.isDirectory i = false) {b : Nat} {at_ : Inode} {e e' : Option (Inode × Bytes)}
    {names : List Bytes} {p : Place} (hwalk : Walks t .node b at_ e names p)
    (hw : t.WellFormed) (hp : p = .found j e') (hj : j ≠ i) :
    Walks (t.remove dir name) .node b at_ e names p := by
  have hback : (t.remove dir name).Within t := remove_within
  have hsome : ∀ {k}, (t.node? k).isSome = true → ((t.remove dir name).node? k).isSome = true := by
    intro k hk
    cases hd : t.directory? dir with
    | none => simpa only [FileTree.remove, setEntries, hd] using hk
    | some d =>
      obtain ⟨_, _⟩ := d
      rwa [FileTree.remove, setEntries_eq hd, node?_setContent]
  have hdirNode : ∀ {k}, t.isDirectory k = true → (t.node? k).isSome = true := by
    intro k hk
    obtain ⟨_, _, hd⟩ := isDirectory_iff.1 hk
    obtain ⟨_, _, hn⟩ := directory?_eq_some.1 hd
    simp [hn]
  -- a walk to another node does not pass by the entry
  have hpass : ∀ {b e rest}, Walks t .node b dir e (name :: rest) (.found j e') → False := by
    intro b e rest h
    obtain ⟨_, _, h'⟩ := hlast.trans_of_prefix rfl h
    cases rest with
    | nil =>
      cases h'
      exact hj rfl
    | cons n ns =>
      have := h'.isDirectory_of_cons
      rw [hi] at this
      cases this
  have hfile : ∀ rest, ¬ AsksFile .node rest := fun _ h => by cases h.1
  induction hwalk with
  | here => exact .here
  | slash hd _ ih =>
    exact .slash ((hback.isDirectory (hsome (hdirNode hd))).symm.trans hd) (ih hp)
  | stay hd hmay _ ih =>
    exact .stay ((hback.isDirectory (hsome (hdirNode hd))).symm.trans hd)
      ((hback.may (hsome (hdirNode hd)) _).symm.trans hmay) (ih hp)
  | up hd hmay _ ih =>
    have hdir := isDirectory_iff.2 ⟨_, _, hd⟩
    have hdir' := (hback.isDirectory (hsome (hdirNode hdir))).symm.trans hdir
    obtain ⟨parent', _, hd'⟩ := isDirectory_iff.1 hdir'
    obtain ⟨_, hd'', -⟩ := hback.directory hd'
    rw [hd] at hd''
    cases hd''
    exact .up hd' ((hback.may (hsome (hdirNode hdir)) _).symm.trans hmay) (ih hp)
  | vacant => cases hp
  | @entry b at_ e n rest p k hl _ hlink hrest ih =>
    have hne : ¬ (at_ = dir ∧ n = name) := by
      rintro ⟨rfl, rfl⟩
      cases hp
      exact hpass (show Walks t .node b _ e _ _ from .entry hl (hfile rest) hlink hrest)
    exact .entry (hl.remove hne) (hfile _)
      ((hback.link (hsome (hl.node hw))).symm.trans hlink) (ih hp)
  | linkItself _ haim => cases haim
  | @link b at_ e n rest p k target hl hf hlink hlast' ht hrest ih =>
    have hne : ¬ (at_ = dir ∧ n = name) := by
      rintro ⟨rfl, rfl⟩
      cases hp
      exact hpass (show Walks t .node (b + 1) _ e _ _ from .link hl hf hlink hlast' ht hrest)
    refine .link (hl.remove hne) (hfile _)
      ((hback.link (hsome (hl.node hw))).symm.trans hlink) hlast' ht ?_
    rw [← hback.origin]
    exact ih hp

/-- So it is not noticed on the way to a directory. -/
theorem Walks.remove {dir i j : Inode} {name : Bytes} {b₀ : Nat}
    {e₀ e₁ : Option (Inode × Bytes)} (hlast : Walks t .node b₀ dir e₀ [name] (.found i e₁))
    (hi : t.isDirectory i = false) {b : Nat} {at_ : Inode} {e e' : Option (Inode × Bytes)}
    {names : List Bytes} {p : Place} (hwalk : Walks t .node b at_ e names p)
    (hw : t.WellFormed) (hp : p = .found j e') (hj : t.isDirectory j = true) :
    Walks (t.remove dir name) .node b at_ e names p := by
  refine hlast.remove_of_ne hi hwalk hw hp ?_
  rintro rfl
  rw [hi] at hj
  cases hj

end FileTree

end NamedMutex
