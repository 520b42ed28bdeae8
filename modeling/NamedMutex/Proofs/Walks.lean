/-
  Walks: where a path leads, step by step.

  A walk takes the names of a path one after the other.  Every symbolic link
  on the way costs one of the links that the walk may follow.

  * `Walks` lists what a step of a walk can do; `walk_eq_ok_iff` says that it
    describes exactly the walks of `FileTree.walk`;
  * `Walks.looksUp` and `Walks.last_step` are about the entry by which a walk
    found its end;
  * `Walks.trans_of_prefix` cuts a walk where another walk along the same names
    ends, `Walks.entry_of_node`, `Walks.node_of_file` and `Walks.file_of_node` compare
    the aims;
  * `Leads` says where a path leads, in terms of walks (`leads_iff`).
-/
import NamedMutex.Machine.Files

namespace NamedMutex

namespace FileTree

/-- A name that is looked up in a directory. -/
def IsLookedUp (name : Bytes) : Prop :=
  name ≠ [] ∧ name ≠ [Path.dot] ∧ name ≠ [Path.dot, Path.dot] ∧ name.length ≤ nameLimit

/-- What the user finds under a name in a directory. -/
def LooksUp (t : FileTree) (dir : Inode) (name : Bytes) (found : Option Inode) : Prop :=
  t.may dir .search = true ∧ IsLookedUp name ∧
    ∃ parent entries, t.directory? dir = some (parent, entries) ∧ entries.get? name = found

/-- Whether a slash behind the name of a file ends the walk. -/
def AsksFile (aim : Aim) (rest : List Bytes) : Prop := aim = .file ∧ rest = [[]]

/-- The walks from a node, which an entry names, along some names to a place,
    through at most so many links. -/
inductive Walks (t : FileTree) (aim : Aim) :
    Nat → Inode → Option (Inode × Bytes) → List Bytes → Place → Prop
  | here {b at_ e} : Walks t aim b at_ e [] (.found at_ e)
  | slash {b at_ e rest p} : t.isDirectory at_ = true →
      Walks t aim b at_ none rest p → Walks t aim b at_ e ([] :: rest) p
  | stay {b at_ e rest p} : t.isDirectory at_ = true → t.may at_ .search = true →
      Walks t aim b at_ none rest p → Walks t aim b at_ e ([Path.dot] :: rest) p
  | up {b at_ e rest p parent entries} : t.directory? at_ = some (parent, entries) →
      t.may at_ .search = true → Walks t aim b parent none rest p →
      Walks t aim b at_ e ([Path.dot, Path.dot] :: rest) p
  | vacant {b at_ e name} : t.LooksUp at_ name none →
      Walks t aim b at_ e [name] (.vacant at_ name)
  | entry {b at_ e name rest p i} : t.LooksUp at_ name (some i) → ¬ AsksFile aim rest →
      t.link? i = none → Walks t aim b i (some (at_, name)) rest p →
      Walks t aim b at_ e (name :: rest) p
  | linkItself {b at_ e name i target} : t.LooksUp at_ name (some i) → aim = .entry →
      t.link? i = some target → Walks t aim b at_ e [name] (.found i (some (at_, name)))
  | link {b at_ e name rest p i target} : t.LooksUp at_ name (some i) → ¬ AsksFile aim rest →
      t.link? i = some target → ¬ (rest = [] ∧ aim = .entry) → target.bytes ≠ [] →
      Walks t aim b (t.origin at_ target) none (steps target ++ rest) p →
      Walks t aim (b + 1) at_ e (name :: rest) p

/-- How a walk goes on behind a link when it may still follow so many. -/
def jump (t : FileTree) (aim : Aim) : Nat → Inode → List Bytes → Except Errno Place
  | 0 => fun _ _ => .error .tooManyLinks
  | b + 1 => t.walk aim b

variable {t : FileTree} {aim : Aim}

theorem walk_eq (b : Nat) (at_ : Inode) (names : List Bytes) :
    t.walk aim b at_ names = t.walkWith aim (t.jump aim b) at_ none names := by
  cases b <;> rfl

theorem isDirectory_iff {i : Inode} :
    t.isDirectory i = true ↔ ∃ parent entries, t.directory? i = some (parent, entries) := by
  simp only [isDirectory, Option.isSome_iff_exists, Prod.exists]

theorem LooksUp.isDirectory {dir : Inode} {name : Bytes} {found : Option Inode}
    (h : t.LooksUp dir name found) : t.isDirectory dir = true := by
  obtain ⟨-, -, parent, entries, hd, -⟩ := h
  exact isDirectory_iff.2 ⟨parent, entries, hd⟩

theorem LooksUp.unique {dir : Inode} {name : Bytes} {found found' : Option Inode}
    (h : t.LooksUp dir name found) (h' : t.LooksUp dir name found') : found = found' := by
  obtain ⟨-, -, parent, entries, hd, he⟩ := h
  obtain ⟨-, -, parent', entries', hd', he'⟩ := h'
  rw [hd] at hd'
  cases hd'
  exact he.symm.trans he'

/-- What a step of the function finds is a step of a walk, if that holds behind
    links. -/
theorem walks_of_walkWith {b : Nat}
    (hjump : ∀ i names p, t.jump aim b i names = .ok p →
      ∃ b', b = b' + 1 ∧ Walks t aim b' i none names p) :
    ∀ {names : List Bytes} {at_ : Inode} {e : Option (Inode × Bytes)} {p : Place},
      t.walkWith aim (t.jump aim b) at_ e names = .ok p → Walks t aim b at_ e names p
  | [], at_, e, p, h => by
    simp only [walkWith, Except.ok.injEq] at h
    exact h ▸ .here
  | name :: rest, at_, e, p, h => by
    simp only [walkWith] at h
    split at h
    · cases h
    rename_i parent entries hd
    have hdir : t.isDirectory at_ = true := isDirectory_iff.2 ⟨_, _, hd⟩
    -- the names that no directory lists
    split at h
    · rename_i hname; subst hname
      exact .slash hdir (walks_of_walkWith hjump h)
    rename_i hempty
    split at h
    · cases h
    rename_i hmay
    rw [Decidable.not_not] at hmay
    split at h
    · rename_i hname; subst hname
      exact .stay hdir hmay (walks_of_walkWith hjump h)
    rename_i hdot
    split at h
    · rename_i hname; subst hname
      exact .up hd hmay (walks_of_walkWith hjump h)
    rename_i hup
    split at h
    · cases h
    rename_i hfile
    split at h
    · cases h
    rename_i hlong
    -- a name that is looked up, and what it may turn out to be
    have hname : IsLookedUp name := ⟨hempty, hdot, hup, by omega⟩
    split at h
    · rename_i hget
      split at h
      · rename_i hrest; subst hrest
        cases h
        exact .vacant ⟨hmay, hname, _, _, hd, hget⟩
      · cases h
    rename_i i hget
    have hlook : t.LooksUp at_ name (some i) := ⟨hmay, hname, _, _, hd, hget⟩
    split at h
    · rename_i hlink
      exact .entry hlook hfile hlink (walks_of_walkWith hjump h)
    rename_i target hlink
    split at h
    · rename_i hlast
      obtain ⟨hrest, haim⟩ := hlast; subst hrest
      cases h
      exact .linkItself hlook haim hlink
    rename_i hlast
    split at h
    · cases h
    rename_i htarget
    obtain ⟨b', hb, hw⟩ := hjump _ _ _ h; subst hb
    exact .link hlook hfile hlink hlast htarget hw

theorem walks_of_walk {b : Nat} {at_ : Inode} {names : List Bytes} {p : Place}
    (h : t.walk aim b at_ names = .ok p) : Walks t aim b at_ none names p := by
  induction b generalizing at_ names p with
  | zero =>
    rw [walk_eq] at h
    exact walks_of_walkWith (fun i names p h => by cases h) h
  | succ b ih =>
    rw [walk_eq] at h
    exact walks_of_walkWith (fun i names p h => ⟨b, rfl, ih h⟩) h

theorem Walks.walkWith_eq {b : Nat} {at_ : Inode} {e : Option (Inode × Bytes)}
    {names : List Bytes} {p : Place} (h : Walks t aim b at_ e names p) :
    t.walkWith aim (t.jump aim b) at_ e names = .ok p := by
  induction h with
  | here => simp [walkWith]
  | slash hdir _ ih =>
    obtain ⟨_, _, hd⟩ := isDirectory_iff.1 hdir
    simpa [walkWith, hd] using ih
  | stay hdir hmay _ ih =>
    obtain ⟨_, _, hd⟩ := isDirectory_iff.1 hdir
    simpa [walkWith, hd, hmay] using ih
  | up hd hmay _ ih => simpa [walkWith, hd, hmay, Path.dot] using ih
  | vacant hlook =>
    obtain ⟨hmay, ⟨h1, h2, h3, h4⟩, _, _, hd, he⟩ := hlook
    simp [walkWith, hd, hmay, h1, h2, h3, Nat.not_lt.2 h4, he]
  | entry hlook hfile hlink _ ih =>
    obtain ⟨hmay, ⟨h1, h2, h3, h4⟩, _, _, hd, he⟩ := hlook
    simp only [AsksFile] at hfile
    simpa [walkWith, hd, hmay, h1, h2, h3, Nat.not_lt.2 h4, he, hlink, hfile] using ih
  | linkItself hlook haim hlink =>
    obtain ⟨hmay, ⟨h1, h2, h3, h4⟩, _, _, hd, he⟩ := hlook
    simp [walkWith, hd, hmay, h1, h2, h3, Nat.not_lt.2 h4, he, hlink, haim]
  | link hlook hfile hlink hlast htarget _ ih =>
    obtain ⟨hmay, ⟨h1, h2, h3, h4⟩, _, _, hd, he⟩ := hlook
    simp only [AsksFile] at hfile
    rw [← walk_eq] at ih
    simpa [walkWith, hd, hmay, h1, h2, h3, Nat.not_lt.2 h4, he, hlink, hfile, hlast, htarget, jump]
      using ih

/-- **The function finds what the walks find.** -/
theorem walk_eq_ok_iff {b : Nat} {at_ : Inode} {names : List Bytes} {p : Place} :
    t.walk aim b at_ names = .ok p ↔ Walks t aim b at_ none names p :=
  ⟨walks_of_walk, fun h => walk_eq b at_ names ▸ h.walkWith_eq⟩

/-! ## What a walk does next -/

theorem not_isLookedUp_nil : ¬ IsLookedUp [] := fun h => h.1 rfl

theorem not_isLookedUp_dot : ¬ IsLookedUp [Path.dot] := fun h => h.2.1 rfl

theorem not_isLookedUp_up : ¬ IsLookedUp [Path.dot, Path.dot] := fun h => h.2.2.1 rfl

section
variable {b : Nat} {at_ i : Inode} {e : Option (Inode × Bytes)} {name : Bytes}
  {rest : List Bytes} {p : Place}

theorem Walks.of_slash (h : Walks t aim b at_ e ([] :: rest) p) : Walks t aim b at_ none rest p := by
  cases h with
  | slash _ h => exact h
  | vacant hl | entry hl | linkItself hl | link hl => exact absurd hl.2.1 not_isLookedUp_nil

theorem Walks.of_stay (h : Walks t aim b at_ e ([Path.dot] :: rest) p) :
    Walks t aim b at_ none rest p := by
  cases h with
  | stay _ _ h => exact h
  | vacant hl | entry hl | linkItself hl | link hl => exact absurd hl.2.1 not_isLookedUp_dot

theorem Walks.of_up {parent : Inode} {entries : Table Bytes Inode}
    (hd : t.directory? at_ = some (parent, entries))
    (h : Walks t aim b at_ e ([Path.dot, Path.dot] :: rest) p) : Walks t aim b parent none rest p := by
  cases h with
  | up hd' _ h => rw [hd] at hd'; cases hd'; exact h
  | vacant hl | entry hl | linkItself hl | link hl => exact absurd hl.2.1 not_isLookedUp_up

/-- A walk to a node goes through an entry that is there, or on behind a link. -/
theorem Walks.of_looksUp (hl : t.LooksUp at_ name (some i))
    (h : Walks t .node b at_ e (name :: rest) p) :
    (t.link? i = none ∧ Walks t .node b i (some (at_, name)) rest p) ∨
      ∃ b' target, b = b' + 1 ∧ t.link? i = some target ∧
        Walks t .node b' (t.origin at_ target) none (steps target ++ rest) p := by
  cases h with
  | slash => exact absurd hl.2.1 not_isLookedUp_nil
  | stay => exact absurd hl.2.1 not_isLookedUp_dot
  | up => exact absurd hl.2.1 not_isLookedUp_up
  | vacant hl' => cases hl.unique hl'
  | entry hl' _ hlink h =>
    cases hl.unique hl'
    exact Or.inl ⟨hlink, h⟩
  | linkItself _ haim => cases haim
  | link hl' _ hlink _ _ h =>
    cases hl.unique hl'
    exact Or.inr ⟨_, _, rfl, hlink, h⟩

theorem Walks.isDirectory_of_cons (h : Walks t aim b at_ e (name :: rest) p) :
    t.isDirectory at_ = true := by
  cases h with
  | slash hd | stay hd => exact hd
  | up hd => exact isDirectory_iff.2 ⟨_, _, hd⟩
  | vacant hl | entry hl | linkItself hl | link hl => exact hl.isDirectory

end

/-- **A walk cut in two**: along some names and more behind them it comes by the
    node to which the first names lead. -/
theorem Walks.trans_of_prefix {b₀ : Nat} {at_ i : Inode} {e₀ e₁ : Option (Inode × Bytes)}
    {xs : List Bytes} {q : Place} (h₀ : Walks t .node b₀ at_ e₀ xs q) (hq : q = .found i e₁)
    {ys : List Bytes} {p : Place} :
    ∀ {b : Nat} {e : Option (Inode × Bytes)}, Walks t .node b at_ e (xs ++ ys) p →
      ∃ b' e', Walks t .node b' i e' ys p := by
  induction h₀ with
  | here =>
    cases hq
    exact fun h => ⟨_, _, h⟩
  | slash _ _ ih => exact fun h => ih hq h.of_slash
  | stay _ _ _ ih => exact fun h => ih hq h.of_stay
  | up hd _ _ ih => exact fun h => ih hq (h.of_up hd)
  | vacant => cases hq
  | entry hl _ hlink _ ih =>
    intro b e h
    rcases h.of_looksUp hl with ⟨-, h⟩ | ⟨_, _, _, hlink', -⟩
    · exact ih hq h
    · rw [hlink] at hlink'; cases hlink'
  | linkItself _ haim => cases haim
  | link hl _ hlink _ _ _ ih =>
    intro b e h
    rcases h.of_looksUp hl with ⟨hlink', -⟩ | ⟨b', target', -, hlink', h⟩
    · rw [hlink] at hlink'; cases hlink'
    · obtain rfl := Option.some.inj (hlink.symm.trans hlink')
      exact ih hq ((List.append_assoc (steps _) _ ys).symm ▸ h)

/-! ## Walks with different aims -/

theorem Walks.node_of_file {b : Nat} {at_ : Inode} {e : Option (Inode × Bytes)}
    {names : List Bytes} {p : Place} (h : Walks t .file b at_ e names p) :
    Walks t .node b at_ e names p := by
  have hfile : ∀ rest, ¬ AsksFile .node rest := fun _ h => by cases h.1
  induction h with
  | here => exact .here
  | slash hd _ ih => exact .slash hd ih
  | stay hd hmay _ ih => exact .stay hd hmay ih
  | up hd hmay _ ih => exact .up hd hmay ih
  | vacant hl => exact .vacant hl
  | entry hl _ hlink _ ih => exact .entry hl (hfile _) hlink ih
  | linkItself _ haim => cases haim
  | link hl _ hlink _ ht _ ih => exact .link hl (hfile _) hlink (fun h => by cases h.2) ht ih

theorem Walks.isDirectory_of_slash {b : Nat} {at_ : Inode} {e : Option (Inode × Bytes)}
    {names all : List Bytes} {p : Place} (h : Walks t aim b at_ e all p)
    (hall : all = names ++ [[]]) : ∃ i e', p = .found i e' ∧ t.isDirectory i = true := by
  induction h generalizing names with
  | here => exact absurd hall (by simp)
  | slash hd hrest ih =>
    cases names with
    | nil =>
      cases hall
      cases hrest
      exact ⟨_, _, rfl, hd⟩
    | cons n ns =>
      cases hall
      exact ih rfl
  | stay _ _ _ ih | up _ _ _ ih =>
    cases names with
    | nil => cases hall
    | cons n ns =>
      cases hall
      exact ih rfl
  | vacant hl | linkItself hl =>
    cases names with
    | nil =>
      cases hall
      exact absurd hl.2.1 not_isLookedUp_nil
    | cons n ns => cases ns <;> cases hall
  | entry hl _ _ _ ih =>
    cases names with
    | nil =>
      cases hall
      exact absurd hl.2.1 not_isLookedUp_nil
    | cons n ns =>
      cases hall
      exact ih rfl
  | link hl _ _ _ _ _ ih =>
    cases names with
    | nil =>
      cases hall
      exact absurd hl.2.1 not_isLookedUp_nil
    | cons n ns =>
      cases hall
      exact ih (List.append_assoc _ _ _).symm

theorem Walks.file_of_node {b : Nat} {at_ : Inode} {e : Option (Inode × Bytes)}
    {names : List Bytes} {p : Place} (h : Walks t .node b at_ e names p)
    (hp : ∀ i e', p = .found i e' → t.isDirectory i = false) :
    Walks t .file b at_ e names p := by
  induction h with
  | here => exact .here
  | slash hd _ ih => exact .slash hd (ih hp)
  | stay hd hmay _ ih => exact .stay hd hmay (ih hp)
  | up hd hmay _ ih => exact .up hd hmay (ih hp)
  | vacant hl => exact .vacant hl
  | linkItself _ haim => cases haim
  | entry hl _ hlink hrest ih =>
    refine .entry hl ?_ hlink (ih hp)
    rintro ⟨-, rfl⟩
    obtain ⟨i, e', rfl, hi⟩ := hrest.isDirectory_of_slash (List.nil_append [[]]).symm
    exact Bool.false_ne_true ((hp i e' rfl).symm.trans hi)
  | link hl _ hlink _ ht hrest ih =>
    refine .link hl ?_ hlink (fun h => by cases h.2) ht (ih hp)
    rintro ⟨-, rfl⟩
    obtain ⟨i, e', rfl, hi⟩ := hrest.isDirectory_of_slash rfl
    exact Bool.false_ne_true ((hp i e' rfl).symm.trans hi)

/-- Where something is found behind an entry, the entry is found, whether or not
    a slash follows. -/
theorem Walks.entry_of_node {b : Nat} {at_ : Inode} {e : Option (Inode × Bytes)}
    {names all tail : List Bytes} {p : Place} (h : Walks t .node b at_ e all p)
    (hall : all = names ++ tail) (htail : tail = [] ∨ tail = [[]]) (hp : ∃ i e', p = .found i e') :
    ∃ i e', Walks t .entry b at_ e names (.found i e') := by
  have hfile : ∀ rest, ¬ AsksFile .entry rest := fun _ h => by cases h.1
  induction h generalizing names with
  | here =>
    obtain ⟨rfl, -⟩ := List.append_eq_nil_iff.1 hall.symm
    exact ⟨_, _, .here⟩
  | slash hd _ ih =>
    cases names with
    | nil => exact ⟨_, _, .here⟩
    | cons n ns =>
      cases hall
      obtain ⟨i, e', h⟩ := ih rfl hp
      exact ⟨i, e', .slash hd h⟩
  | stay hd hmay _ ih =>
    cases names with
    | nil => rcases htail with rfl | rfl <;> cases hall
    | cons n ns =>
      cases hall
      obtain ⟨i, e', h⟩ := ih rfl hp
      exact ⟨i, e', .stay hd hmay h⟩
  | up hd hmay _ ih =>
    cases names with
    | nil => rcases htail with rfl | rfl <;> cases hall
    | cons n ns =>
      cases hall
      obtain ⟨i, e', h⟩ := ih rfl hp
      exact ⟨i, e', .up hd hmay h⟩
  | vacant => obtain ⟨_, _, hp⟩ := hp; cases hp
  | entry hl _ hlink _ ih =>
    cases names with
    | nil =>
      rcases htail with rfl | rfl <;> cases hall
      exact absurd hl.2.1 not_isLookedUp_nil
    | cons n ns =>
      cases hall
      obtain ⟨i, e', h⟩ := ih rfl hp
      exact ⟨i, e', .entry hl (hfile _) hlink h⟩
  | linkItself _ haim => cases haim
  | link hl _ hlink _ ht _ ih =>
    cases names with
    | nil =>
      rcases htail with rfl | rfl <;> cases hall
      exact absurd hl.2.1 not_isLookedUp_nil
    | cons n ns =>
      cases hall
      cases ns with
      | nil => exact ⟨_, _, .linkItself hl rfl hlink⟩
      | cons m ms =>
        obtain ⟨i, e', h⟩ := ih (List.append_assoc _ _ _).symm hp
        exact ⟨i, e', .link hl (hfile _) hlink (fun h => by cases h.1) ht h⟩

theorem Walks.append_slash {b : Nat} {at_ i : Inode} {e e' : Option (Inode × Bytes)}
    {names : List Bytes} {p : Place} (h : Walks t .node b at_ e names p) (hp : p = .found i e')
    (hi : t.isDirectory i = true) : ∃ e'', Walks t .node b at_ e (names ++ [[]]) (.found i e'') := by
  have hfile : ∀ rest, ¬ AsksFile .node rest := fun _ h => by cases h.1
  induction h with
  | here =>
    cases hp
    exact ⟨none, .slash hi .here⟩
  | slash hd _ ih =>
    obtain ⟨e'', h⟩ := ih hp
    exact ⟨e'', .slash hd h⟩
  | stay hd hmay _ ih =>
    obtain ⟨e'', h⟩ := ih hp
    exact ⟨e'', .stay hd hmay h⟩
  | up hd hmay _ ih =>
    obtain ⟨e'', h⟩ := ih hp
    exact ⟨e'', .up hd hmay h⟩
  | vacant => cases hp
  | entry hl _ hlink _ ih =>
    obtain ⟨e'', h⟩ := ih hp
    exact ⟨e'', .entry hl (hfile _) hlink h⟩
  | linkItself _ haim => cases haim
  | link hl _ hlink _ ht _ ih =>
    obtain ⟨e'', h⟩ := ih hp
    rw [List.append_assoc] at h
    exact ⟨e'', .link hl (hfile _) hlink (fun h => by cases h.2) ht h⟩

theorem Walks.looksUp {b : Nat} {at_ i dir : Inode} {e : Option (Inode × Bytes)}
    {name : Bytes} {names : List Bytes} {p : Place} (h : Walks t aim b at_ e names p)
    (hp : p = .found i (some (dir, name)))
    (he : ∀ d n, e = some (d, n) → t.LooksUp d n (some at_)) : t.LooksUp dir name (some i) := by
  have hnone : ∀ {j : Inode} d n, (none : Option (Inode × Bytes)) = some (d, n) →
      t.LooksUp d n (some j) := fun _ _ h => by cases h
  induction h with
  | here =>
    cases hp
    exact he _ _ rfl
  | slash _ _ ih | stay _ _ _ ih | up _ _ _ ih | link _ _ _ _ _ _ ih => exact ih hp hnone
  | vacant => cases hp
  | entry hl _ _ _ ih =>
    refine ih hp fun d n h => ?_
    cases h
    exact hl
  | linkItself hl =>
    cases hp
    exact hl

/-- The last step of a walk that an entry names is taken from the directory of
    that entry, by whatever aim one goes on. -/
theorem Walks.last_step {b : Nat} {at_ j dir : Inode} {e : Option (Inode × Bytes)}
    {name : Bytes} {names : List Bytes} {p : Place} (h : Walks t aim b at_ e names p)
    (hp : p = .found j (some (dir, name))) :
    (names = [] ∧ e = some (dir, name)) ∨
      ∀ {b' : Nat} {e₀ : Option (Inode × Bytes)} {tail : List Bytes} {q : Place},
        Walks t .node b' at_ e₀ (names ++ tail) q →
          ∃ b'' e'', Walks t .node b'' dir e'' (name :: tail) q := by
  induction h with
  | here =>
    cases hp
    exact Or.inl ⟨rfl, rfl⟩
  | slash _ _ ih =>
    rcases ih hp with ⟨-, he⟩ | ih
    · cases he
    · exact Or.inr fun h => ih h.of_slash
  | stay _ _ _ ih =>
    rcases ih hp with ⟨-, he⟩ | ih
    · cases he
    · exact Or.inr fun h => ih h.of_stay
  | up hd _ _ ih =>
    rcases ih hp with ⟨-, he⟩ | ih
    · cases he
    · exact Or.inr fun h => ih (h.of_up hd)
  | vacant => cases hp
  | entry hl _ hlink _ ih =>
    refine Or.inr fun h => ?_
    rcases ih hp with ⟨rfl, he⟩ | ih
    · cases he
      exact ⟨_, _, h⟩
    · rcases h.of_looksUp hl with ⟨-, h⟩ | ⟨_, _, -, hlink', -⟩
      · exact ih h
      · rw [hlink] at hlink'; cases hlink'
  | linkItself =>
    cases hp
    exact Or.inr fun h => ⟨_, _, h⟩
  | link hl _ hlink _ _ _ ih =>
    rcases ih hp with ⟨-, he⟩ | ih
    · cases he
    · refine Or.inr fun h => ?_
      rcases h.of_looksUp hl with ⟨hlink', -⟩ | ⟨_, _, -, hlink', h⟩
      · rw [hlink] at hlink'; cases hlink'
      · obtain rfl := Option.some.inj (hlink.symm.trans hlink')
        exact ih ((List.append_assoc (steps _) _ _).symm ▸ h)

/-! ## Paths -/

/-- A path leads to a node. -/
def Leads (t : FileTree) (p : Path) (i : Inode) : Prop := t.find .node p = .ok i

theorem follow_eq_ok_iff {p : Path} {names : List Bytes} {place : Place} :
    t.follow aim p names = .ok place ↔
      refusal? p = none ∧ Walks t aim linkLimit (t.origin t.cwd p) none names place := by
  rw [← walk_eq_ok_iff]
  unfold follow
  cases hr : refusal? p with
  | some e => simp
  | none => cases hw : t.walk aim linkLimit (t.origin t.cwd p) names <;> simp

theorem resolve_eq_ok_iff {p : Path} {place : Place} :
    t.resolve aim p = .ok place ↔
      refusal? p = none ∧ Walks t aim linkLimit (t.origin t.cwd p) none (steps p) place :=
  follow_eq_ok_iff

theorem resolveBare_eq_ok_iff {p : Path} {place : Place} :
    t.resolveBare p = .ok place ↔
      refusal? p = none ∧ Walks t .entry linkLimit (t.origin t.cwd p) none (bareSteps p) place :=
  follow_eq_ok_iff

theorem leads_iff {p : Path} {i : Inode} :
    t.Leads p i ↔ refusal? p = none ∧
      ∃ e, Walks t .node linkLimit (t.origin t.cwd p) none (steps p) (.found i e) := by
  have hfind : t.Leads p i ↔ ∃ e, t.resolve .node p = .ok (.found i e) := by
    unfold Leads find
    constructor
    · intro h
      split at h <;> cases h
      rename_i e hr
      exact ⟨e, hr⟩
    · rintro ⟨e, hr⟩
      simp only [hr]
  simp only [hfind, resolve_eq_ok_iff, exists_and_left]

theorem Leads.unique {p : Path} {i j : Inode} (hi : t.Leads p i) (hj : t.Leads p j) : i = j :=
  Except.ok.inj (hi.symm.trans hj)

theorem steps_tail (p : Path) : ∃ tail, steps p = bareSteps p ++ tail ∧ (tail = [] ∨ tail = [[]]) := by
  refine ⟨_, rfl, ?_⟩
  cases asksDirectory p
  · exact Or.inl rfl
  · exact Or.inr rfl

theorem Leads.resolveBare {p : Path} {i : Inode} (h : t.Leads p i) :
    ∃ j e, t.resolveBare p = .ok (.found j e) := by
  obtain ⟨hr, e, hw⟩ := leads_iff.1 h
  obtain ⟨tail, hsteps, htail⟩ := steps_tail p
  obtain ⟨j, e', hw⟩ := hw.entry_of_node hsteps htail ⟨_, _, rfl⟩
  exact ⟨j, e', resolveBare_eq_ok_iff.2 ⟨hr, hw⟩⟩

theorem leadsToDirectory_iff {p : Path} :
    t.leadsToDirectory p = true ↔ ∃ i, t.Leads p i ∧ t.isDirectory i = true := by
  unfold leadsToDirectory Leads
  cases t.find .node p <;> simp

end FileTree

end NamedMutex
