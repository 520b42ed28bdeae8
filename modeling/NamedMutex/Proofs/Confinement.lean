/-
  Lock files stay in their directories, and no two mutexes share one.

  The path of a lock file has the components of its directory and one entry more,
  whatever the spelling of the directory and whatever dots the name has.

  * `Path.components_front`: the front of a path has the first of its components;
  * `components_lockPath` and `parent?_lockPath`: a lock path taken apart;
  * `lockPath_same_iff`: two lock paths are one if their names and their directories
    are;
  * `Threads.Counted.held_iff`: whose registration a look-up finds;
  * `lock_paths_confined` is the main statement.
-/
import NamedMutex.Proofs.LockPaths
import NamedMutex.Proofs.Guards

namespace NamedMutex

/-! ## Fronts of paths -/

namespace Path

variable {p q : Path} {ps : List Bytes} {f : Bytes} {n : Nat}

theorem parts_ne_nil (p : Path) : p.parts ≠ [] := List.splitOn_ne_nil _ _

theorem intercalate_parts (p : Path) : [slash].intercalate p.parts = p.bytes :=
  List.intercalate_splitOn _

theorem isAbsolute_iff : p.isAbsolute = true ↔ ∃ x xs, p.parts = [] :: x :: xs := by
  constructor
  · intro h
    obtain ⟨bs, hbs⟩ := List.head?_eq_some_iff.1 (of_decide_eq_true h)
    obtain ⟨x, xs, hrest⟩ := List.exists_cons_of_ne_nil (parts_ne_nil ⟨bs⟩)
    refine ⟨x, xs, ?_⟩
    rw [← hrest, parts, hbs, ← List.nil_append (slash :: bs), List.splitOn_append_cons_self]
    rfl
  · rintro ⟨x, xs, hparts⟩
    refine decide_eq_true ?_
    rw [← intercalate_parts, hparts]
    rfl

theorem isAbsolute_eq_false {first : Bytes} {rest : List Bytes} (hparts : p.parts = first :: rest)
    (h : first = [] → rest = []) : p.isAbsolute = false := by
  refine Bool.eq_false_iff.2 fun habs => ?_
  obtain ⟨x, xs, habs⟩ := isAbsolute_iff.1 habs
  cases hparts.symm.trans habs
  cases h rfl

theorem components_of_root {f : Bytes} (h : p.parts = [] :: f :: ps) :
    p.components = .root :: (f :: ps).filterMap component? := by
  rw [components, if_pos (isAbsolute_iff.2 ⟨f, ps, h⟩), h]
  rfl

theorem components_of_here (h : p.parts = [dot] :: ps) :
    p.components = .here :: ps.filterMap component? := by
  rw [components, isAbsolute_eq_false h (fun h => by cases h), h]
  rfl

theorem components_of_name (h : p.parts = f :: ps) (hdot : f ≠ [dot]) (hroot : f = [] → ps = []) :
    p.components = (f :: ps).filterMap component? := by
  rw [components, isAbsolute_eq_false h hroot, h]
  simp [hdot]

theorem parts_cases (p : Path) : (∃ f ps, p.parts = [] :: f :: ps) ∨ (∃ ps, p.parts = [dot] :: ps) ∨
    ∃ f ps, p.parts = f :: ps ∧ f ≠ [dot] ∧ (f = [] → ps = []) := by
  obtain ⟨f, ps, hparts⟩ := List.exists_cons_of_ne_nil p.parts_ne_nil
  by_cases hdot : f = [dot]
  · exact Or.inr (Or.inl ⟨ps, by rw [hparts, hdot]⟩)
  · by_cases hroot : f = [] → ps = []
    · exact Or.inr (Or.inr ⟨f, ps, hparts, hdot, hroot⟩)
    · obtain ⟨rfl, hps⟩ := Classical.not_imp.1 hroot
      obtain ⟨x, xs, rfl⟩ := List.exists_cons_of_ne_nil hps
      exact Or.inl ⟨x, xs, hparts⟩

@[simp] theorem partsUpTo_nil (n : Nat) : partsUpTo n [] = [] := by cases n <;> simp [partsUpTo]

theorem mem_of_mem_partsUpTo (h : f ∈ partsUpTo n ps) : f ∈ ps := by
  induction ps generalizing n with
  | nil => simp at h
  | cons x xs ih =>
    cases n with
    | zero => simp [partsUpTo] at h
    | succ n =>
      rcases List.mem_cons.1 h with rfl | h
      · exact List.mem_cons_self ..
      · exact List.mem_cons_of_mem _ (ih h)

theorem filterMap_partsUpTo (n : Nat) (ps : List Bytes) :
    (partsUpTo n ps).filterMap component? = (ps.filterMap component?).take n := by
  induction ps generalizing n with
  | nil => cases n <;> rfl
  | cons x xs ih =>
    cases n with
    | zero => rfl
    | succ n =>
      cases hx : component? x with
      | none => simp [partsUpTo, hx, ih]
      | some c => simp [partsUpTo, hx, ih]

/-- Some parts of a path, joined, are the parts of what they make up. -/
theorem parts_intercalate (hps : ps ≠ []) (hmem : ∀ f ∈ ps, f ∈ p.parts) :
    (⟨[slash].intercalate ps⟩ : Path).parts = ps :=
  List.splitOn_intercalate _ (fun f hf => slash_not_mem_parts p f (hmem f hf)) hps

/-- **The front of a path has the first of its components.** -/
theorem components_front (p : Path) (n : Nat) : (p.front n).components = p.components.take n := by
  cases n with
  | zero =>
    rw [List.take_zero, show p.front 0 = ⟨[]⟩ by simp [front]]
    rfl
  | succ n =>
    -- the front is made of the first part and of some of those behind it
    have hkeeps : ∀ {f ps m}, p.parts = f :: ps →
        (⟨[slash].intercalate (f :: partsUpTo m ps)⟩ : Path).parts = f :: partsUpTo m ps :=
      fun hparts => parts_intercalate (p := p) (List.cons_ne_nil _ _) fun g hg => by
        rw [hparts]
        exact List.mem_cons.2 ((List.mem_cons.1 hg).imp_right mem_of_mem_partsUpTo)
    rcases p.parts_cases with ⟨f, ps, hparts⟩ | ⟨ps, hparts⟩ | ⟨f, ps, hparts, hdot, hroot⟩
    · have habs := isAbsolute_iff.2 ⟨f, ps, hparts⟩
      have htail := filterMap_partsUpTo n (f :: ps)
      have hfront := hkeeps (m := n) hparts
      rw [components_of_root hparts, List.take_succ_cons, ← htail]
      simp only [front, hparts, habs, true_or, if_true]
      cases hl : partsUpTo n (f :: ps) with
      | nil => rfl
      | cons x xs =>
        rw [hl] at hfront
        exact components_of_root hfront
    · have habs := isAbsolute_eq_false hparts (fun h => by cases h)
      have htail := filterMap_partsUpTo n ps
      have hfront := hkeeps (m := n) hparts
      rw [components_of_here hparts, List.take_succ_cons, ← htail]
      simp only [front, hparts, habs, Bool.false_eq_true, false_or, if_true, if_false]
      cases hl : partsUpTo n ps with
      | nil => rfl
      | cons x xs =>
        rw [hl] at hfront
        exact components_of_here hfront
    · have habs := isAbsolute_eq_false hparts hroot
      rw [components_of_name hparts hdot hroot, ← filterMap_partsUpTo]
      simp only [front, hparts, habs, hdot, Bool.false_eq_true, or_self, if_false]
      rw [partsUpTo]
      refine components_of_name (hkeeps hparts) hdot fun h => ?_
      rw [hroot h, partsUpTo_nil]

end Path

/-! ## Components of lock paths -/

section Components
variable {dir dir' : Path} {name name' : String}

theorem filterMap_dirParts (dir : Path) :
    dir.dirParts.filterMap Path.component? = dir.parts.filterMap Path.component? := by
  -- an empty part names no component
  have hskip : ∀ ps : List Bytes, (ps.filter (· ≠ [])).filterMap Path.component? =
      ps.filterMap Path.component? := fun ps => by
    rw [List.filterMap_filter]
    refine congrArg (List.filterMap · ps) (funext fun f => ?_)
    by_cases hf : f = []
    · subst hf
      rfl
    · simp [hf]
  rw [← hskip, filter_dirParts, FileTree.bareSteps, hskip]

theorem head?_parts_lockPath (hname : IsValidName name) :
    (lockPath dir name).parts.head? = some [Path.dot] ↔ dir.parts.head? = some [Path.dot] := by
  have hentry : lockEntry name ≠ [Path.dot] := fun h => by
    have := component?_lockEntry name
    rw [h] at this
    cases this
  rw [parts_lockPath hname, Path.dirParts]
  by_cases hempty : dir.bytes = []
  · simp [hempty, hentry, Path.parts]
  rw [if_neg hempty]
  by_cases hslash : dir.bytes.getLast? = some Path.slash
  · obtain ⟨bs, hbs⟩ := List.getLast?_eq_some_iff.1 hslash
    obtain ⟨x, xs, hx⟩ := List.exists_cons_of_ne_nil (Path.parts_ne_nil ⟨bs⟩)
    have hparts : dir.parts = (x :: xs) ++ [[]] := by
      rw [← hx, Path.parts, hbs, List.splitOn_append_cons_self, List.splitOn_nil]
      rfl
    rw [if_pos hslash, hparts, List.dropLast_concat]
    simp
  · obtain ⟨x, xs, hx⟩ := List.exists_cons_of_ne_nil dir.parts_ne_nil
    rw [if_neg hslash, hx]
    simp

/-- **The components of a lock path** are those of its directory, and one entry more. -/
theorem components_lockPath (hname : IsValidName name) :
    (lockPath dir name).components = dir.components ++ [.entry (lockEntry name)] := by
  rw [Path.components_eq, Path.components_eq, isAbsolute_lockPath hname]
  simp only [head?_parts_lockPath hname]
  rw [parts_lockPath hname, List.filterMap_append, filterMap_dirParts, List.append_assoc,
    List.filterMap_cons_some (component?_lockEntry name), List.filterMap_nil]

/-- **The parent of a lock path is its directory.** -/
theorem parent?_lockPath (dir : Path) (hname : IsValidName name) :
    ∃ q, (lockPath dir name).parent? = some q ∧ q.Same dir := by
  have hcomponents : (lockPath dir name).components = _ := components_lockPath hname
  refine ⟨(lockPath dir name).front ((lockPath dir name).components.length - 1), ?_, ?_⟩
  · rw [Path.parent?, getLast?_lockPath dir hname]
  · rw [Path.Same, Path.components_front, hcomponents]
    simp

/-- **Two lock paths are the same** exactly if names and directories are. -/
theorem lockPath_same_iff (hname : IsValidName name) (hname' : IsValidName name') :
    (lockPath dir name).Same (lockPath dir' name') ↔ name = name' ∧ dir.Same dir' := by
  rw [Path.Same, components_lockPath hname, components_lockPath hname']
  constructor
  · intro h
    obtain ⟨hdir, hentry⟩ := List.append_inj' h rfl
    exact ⟨lockEntry_injective (Component.entry.inj (List.singleton_inj.1 hentry)), hdir⟩
  · rintro ⟨rfl, hdir⟩
    rw [show dir.components = dir'.components from hdir]

end Components

/-! ## Who is found in the registry -/

/-- An errand that is to acquire `name` in `dir`. -/
def Errand.Seeks (e : Errand) (dir : Path) (name : String) : Prop :=
  ∃ env options, e.request = .acquire env name options ∧ options.directory env = dir

namespace Threads

variable {me : Pid} {m : Machine} {past : Past} {s s' : Threads} {move : Move} {e : Errand}

/-- An errand to acquire what is no valid name stays as it begins: it has failed. -/
def Rejects (e : Errand) : Prop :=
  ∀ env name options, e.request = .acquire env name options → ¬ IsValidName name →
    e = ⟨e.request, .acquiring (.done (.error (.invalidName name))), none⟩

theorem rejects_start (request : Errand.Request) : Rejects (.start request) := by
  rintro env name options hrequest hname
  cases request with
  | lookUp => cases hrequest
  | acquire =>
    cases hrequest
    simp only [Errand.start, acquireTimed, if_neg hname]
    rfl

theorem Step.rejects (hstep : Step me s move s') (h : ∀ e ∈ s.errands, Rejects e) :
    ∀ e ∈ s'.errands, Rejects e := by
  cases hstep with
  | begin =>
    intro e he
    rcases List.mem_append.1 he with he | he
    · exact h e he
    · rw [List.mem_singleton.1 he]
      exact rejects_start _
  | elsewhere => exact h
  | drop hk hg =>
    intro e' he'
    rcases List.mem_or_eq_of_mem_set he' with he' | rfl
    · exact h e' he'
    · intro env name options hrequest hname
      rw [h _ (List.mem_of_getElem? hk) env name options hrequest hname] at hg
      cases hg
  | reply hk hasks =>
    intro e' he'
    rcases List.mem_or_eq_of_mem_set he' with he' | rfl
    · exact h e' he'
    · intro env name options hrequest hname
      rw [h _ (List.mem_of_getElem? hk) env name options hrequest hname] at hasks
      cases hasks

/-- **An errand whose name is not valid has failed at once**, and registers nothing. -/
theorem Run.rejects (hrun : Run me m past s) : ∀ e ∈ s.errands, Rejects e := by
  induction hrun with
  | start =>
    intro e he
    cases he
  | next _ hstep ih => exact hstep.rejects ih

/-- A registration is that of a mutex that its errand seeks. -/
theorem Run.seeks {path : Path} (hempty : m.registry me = .empty) (hrun : Run me m past s)
    (he : e ∈ s.errands) (hl : e.listed = some path) :
    ∃ dir name, e.Seeks dir name ∧ IsValidName name ∧ path = lockPath dir name := by
  obtain ⟨k, hk⟩ := List.getElem?_of_mem he
  obtain ⟨⟨env, name, options, hrequest, rfl⟩, -⟩ :=
    ((hrun.counted hempty).proper k e hk).listed hl
  refine ⟨_, name, ⟨env, options, hrequest, rfl⟩, Decidable.byContradiction fun hname => ?_, rfl⟩
  rw [hrun.rejects e he env name options hrequest hname] at hl
  cases hl

/-- **A look-up finds exactly the registrations of its mutex**: those under its name,
    in its directory however that is spelt. -/
theorem Run.held_iff {dir : Path} {name : String} (hempty : m.registry me = .empty)
    (hrun : Run me m past s) (hname : IsValidName name) :
    (s.machine.registry me).contains (lockPath dir name) = true ↔
      ∃ e ∈ s.errands, ∃ dir' name', e.Seeks dir' name' ∧ e.listed = some (lockPath dir' name') ∧
        name' = name ∧ dir'.Same dir := by
  have hcounted := hrun.counted hempty
  rw [hcounted.sound.contains_iff, hcounted.count, holders, List.countP_pos_iff]
  constructor
  · rintro ⟨e, he, hholds⟩
    obtain ⟨path, hl, hsame⟩ := (Option.any_eq_true _ _).1 hholds
    obtain ⟨dir', name', hseeks, hname', rfl⟩ := hrun.seeks hempty he hl
    obtain ⟨rfl, hdir⟩ := (lockPath_same_iff hname' hname).1 (of_decide_eq_true hsame)
    exact ⟨e, he, dir', name', hseeks, hl, rfl, hdir⟩
  · rintro ⟨e, he, dir', name', -, hl, rfl, hdir⟩
    refine ⟨e, he, ?_⟩
    have hsame := (lockPath_same_iff hname hname).2 ⟨rfl, hdir⟩
    simp [Errand.holds, hl, hsame]

/-- **Lock paths are confined to their directories, and tell mutexes apart.**

    A lock path has the components of its directory, and one entry more, the name
    followed by `.lock`: neither a slash nor a zero byte is in that, and it is not a
    part that leads upwards or nowhere.  So its parent is the directory, its last
    component is that entry, and the way to it in a file tree is the way to the
    directory and one step more, from the same origin.

    Two lock paths are the same exactly if the names are equal and the directories
    have the same components.

    And in every state of every run of the threads of a process a look-up is answered
    yes exactly if some errand has registered a mutex of the same name in the same
    directory; all guards that were returned and are not dropped are such. -/
theorem lock_paths_confined :
    (∀ dir name, IsValidName name →
      (lockPath dir name).components = dir.components ++ [.entry (Utf8.encode (name ++ ".lock"))] ∧
      Path.slash ∉ lockEntry name ∧ 0 ∉ lockEntry name ∧
      (∃ q, (lockPath dir name).parent? = some q ∧ q.Same dir) ∧
      (lockPath dir name).components.getLast? = some (.entry (Utf8.encode (name ++ ".lock"))) ∧
      FileTree.steps (lockPath dir name) = FileTree.bareSteps dir ++ [lockEntry name] ∧
      ∀ t : FileTree, t.origin t.cwd (lockPath dir name) = t.origin t.cwd dir) ∧
    (∀ dir dir' name name', IsValidName name → IsValidName name' →
      ((lockPath dir name).Same (lockPath dir' name') ↔ name = name' ∧ dir.Same dir')) ∧
    ∀ me m past s, m.registry me = .empty → Run me m past s →
      (∀ dir name, IsValidName name → ∃ b,
        (s.machine.run me (isHeldLocally dir name)).1 = .returned b ∧
        (b = true ↔ ∃ e ∈ s.errands, ∃ dir' name', e.Seeks dir' name' ∧
          e.listed = some (lockPath dir' name') ∧ name' = name ∧ dir'.Same dir)) ∧
      ∀ e ∈ s.errands, ∀ g, e.guard? = some g → ∃ dir name, e.Seeks dir name ∧ IsValidName name ∧
        g.handle.path = lockPath dir name ∧ e.listed = some (lockPath dir name) := by
  refine ⟨fun dir name hname => ⟨components_lockPath hname, not_mem_lockEntry hname (Or.inl rfl),
      not_mem_lockEntry hname (Or.inr rfl), parent?_lockPath dir hname, getLast?_lockPath dir hname,
      steps_lockPath hname, fun t => origin_lockPath t hname⟩,
    fun dir dir' name name' hname hname' => lockPath_same_iff hname hname',
    fun me m past s hempty hrun => ⟨fun dir name hname => ⟨_, rfl, hrun.held_iff hempty hname⟩,
      fun e he g hg => ?_⟩⟩
  obtain ⟨k, hk⟩ := List.getElem?_of_mem he
  obtain ⟨-, -, -, -, -, hl⟩ := (hrun.counted hempty).guard hk hg
  obtain ⟨dir, name, hseeks, hname, hpath⟩ := hrun.seeks hempty he hl
  exact ⟨dir, name, hseeks, hname, hpath, hpath ▸ hl⟩

/-- A mutex named by dots, and one that is looked up in another spelling of its
    directory. -/
theorem lock_paths_confined_in_root :
    (lockPath (.ofString "a//./") "..").components =
      [.entry (Utf8.encode "a"), .entry (Utf8.encode "...lock")] ∧
    (lockPath (.ofString "a") "..").Same (lockPath (.ofString "a//./") "..") ∧
    ∃ past s e g dir, Run 1 (.bare 1) past s ∧ e ∈ s.errands ∧ e.guard? = some g ∧
      e.Seeks dir "a" ∧ dir.Same Contest.root ∧
      (s.machine.run 1 (isHeldLocally (.ofString "/./") "a")).1 = .returned true := by
  obtain ⟨hpaths, hsame, hruns⟩ := lock_paths_confined
  have hdots : IsValidName ".." := by decide
  have hvalid : IsValidName "a" := by decide
  refine ⟨(hpaths _ _ hdots).1, (hsame _ _ _ _ hdots hdots).2 ⟨rfl, by decide⟩, ?_⟩
  have hstart : Run 1 (.bare 1) [] ⟨.bare 1, []⟩ := .start
  let request : Errand.Request := .acquire [] "a" (impatient Contest.root)
  have hbegin : Run 1 (.bare 1) [(⟨.bare 1, []⟩, .begin request)] ⟨.bare 1, [.start request]⟩ :=
    hstart.next .begin
  obtain ⟨past, s, e, hrun, hk, hstage, -⟩ := hbegin.alone (fun _ _ => .acquiring) (k := 0) rfl rfl
  have hend : ((Machine.bare 1).run 1 (acquireTimed [] "a" (impatient Contest.root))).1 =
      .returned (.ok ⟨.ofAttempt "a" (lockPath Contest.root "a") (some 0)⟩) := by rfl
  have hg : e.guard? = some ⟨.ofAttempt "a" (lockPath Contest.root "a") (some 0)⟩ := by
    simp only [Errand.guard?, hstage, hend]
    rfl
  have he := List.mem_of_getElem? hk
  obtain ⟨hlooks, hguards⟩ := hruns 1 (.bare 1) past s rfl hrun
  obtain ⟨dir, name, hseeks, hname, hpath, hl⟩ := hguards e he _ hg
  have hpath : lockPath Contest.root "a" = lockPath dir name := hpath
  obtain ⟨rfl, hdir⟩ := (hsame _ _ _ _ hvalid hname).1 (congrArg Path.components hpath)
  obtain ⟨b, hb, hfound⟩ := hlooks (.ofString "/./") "a" hvalid
  have hspelt : Contest.root.Same (.ofString "/./") := by decide
  have htrue : b = true := hfound.2 ⟨e, he, dir, "a", hseeks, hl, rfl, hdir.symm.trans hspelt⟩
  exact ⟨past, s, e, _, dir, hrun, he, hg, hseeks, hdir.symm, htrue ▸ hb⟩

/-- A name of dots is a name. -/
example : (lockPath (.ofString "d/") "..").parent? = some (.ofString "d") := by decide

end Threads

end NamedMutex
