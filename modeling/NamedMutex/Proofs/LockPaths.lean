/-
  The paths of lock files.

  The lock path of a name ends with an entry that the name determines, and that no
  other name has; before it come the parts of the directory.

  * `lockEntry_injective`, `same_lockPath_iff`: different names have different lock
    files, also by components;
  * `steps_lockPath`: the way to a lock file is the way to its directory, and one step
    more;
  * `parent_lockPath`: the directory that an attempt makes lies on that way.
-/
import NamedMutex.Name
import NamedMutex.Machine.Tree

namespace NamedMutex

/-! ## Bytes of texts -/

namespace Utf8

theorem toNat_of_mem_utf8EncodeChar {c : Char} {b : UInt8} (h : b ∈ String.utf8EncodeChar c)
    (hb : b < 0x80) : c.toNat = b.toNat := by
  have hb : b.toNat < 128 := UInt8.lt_iff_toNat_lt.1 hb
  have hc : c.val.toNat = c.toNat := rfl
  simp only [String.utf8EncodeChar] at h
  split at h
  · rw [List.mem_singleton.1 h, UInt8.toNat_ofNat', Nat.mod_eq_of_lt (by omega), hc]
  -- the bytes of all other characters begin at `80`
  · exfalso
    split at h
    · simp only [List.mem_cons, List.not_mem_nil, or_false] at h
      rcases h with rfl | rfl <;> simp only [UInt8.toNat_ofNat'] at hb <;> omega
    · split at h
      · simp only [List.mem_cons, List.not_mem_nil, or_false] at h
        rcases h with rfl | rfl | rfl <;> simp only [UInt8.toNat_ofNat'] at hb <;> omega
      · simp only [List.mem_cons, List.not_mem_nil, or_false] at h
        rcases h with rfl | rfl | rfl | rfl <;> simp only [UInt8.toNat_ofNat'] at hb <;> omega

theorem encode_append (s t : String) : encode (s ++ t) = encode s ++ encode t := by
  simp [encode]

theorem encode_injective {s t : String} (h : encode s = encode t) : s = t := by
  have hs : ∀ s : String, (encode s).toByteArray = s.toByteArray := fun _ => String.utf8Encode_toList
  rw [← String.toByteArray_inj, ← hs, ← hs, h]

end Utf8

/-! ## Entries of lock directories -/

/-- The name of the lock file of a mutex, as an entry of its directory. -/
def lockEntry (name : String) : Bytes := Utf8.encode (lockFileName name)

variable {name : String}

theorem lockEntry_eq (name : String) :
    lockEntry name = Utf8.encode name ++ [0x2E, 0x6C, 0x6F, 0x63, 0x6B] := by
  rw [lockEntry, lockFileName, Utf8.encode_append]
  rfl

theorem lockEntry_injective {a b : String} (h : lockEntry a = lockEntry b) : a = b := by
  rw [lockEntry_eq, lockEntry_eq] at h
  exact Utf8.encode_injective (List.append_cancel_right h)

theorem five_le_length_lockEntry (name : String) : 5 ≤ (lockEntry name).length := by
  rw [lockEntry_eq, List.length_append]
  exact Nat.le_add_left _ _

/-- No byte of the entry of a valid name is one that has a meaning in paths. -/
theorem not_mem_lockEntry (hname : IsValidName name) {b : UInt8} (hb : b = Path.slash ∨ b = 0) :
    b ∉ lockEntry name := by
  rw [lockEntry_eq, List.mem_append]
  rintro (h | h)
  · obtain ⟨c, hc, hmem⟩ := List.mem_flatMap.1 h
    have hlt : b < 0x80 := by rcases hb with rfl | rfl <;> decide
    have heq := Utf8.toNat_of_mem_utf8EncodeChar hmem hlt
    refine hname.2 c hc ?_
    rcases hb with rfl | rfl
    · rw [show c = '/' from Char.ext (UInt32.toNat_inj.1 heq)]
      decide
    · rw [show c = '\x00' from Char.ext (UInt32.toNat_inj.1 heq)]
      decide
  · rcases hb with rfl | rfl <;> revert h <;> decide

theorem lockEntry_ne_nil (name : String) : lockEntry name ≠ [] := by
  intro h
  have := five_le_length_lockEntry name
  simp [h] at this

theorem component?_lockEntry (name : String) :
    Path.component? (lockEntry name) = some (.entry (lockEntry name)) := by
  have hlen := five_le_length_lockEntry name
  have hne : ∀ l : Bytes, l.length < 5 → lockEntry name ≠ l := fun l hl h => by
    rw [h] at hlen
    omega
  rw [Path.component?, if_neg, if_neg (hne _ (by decide))]
  rintro (h | h)
  · exact hne _ (by decide) h
  · exact hne _ (by decide) h

/-! ## Lock paths and their directories -/

variable {dir : Path}

namespace Path

/-- The parts that a directory has in paths to its entries. -/
def dirParts (dir : Path) : List Bytes :=
  if dir.bytes = [] then []
  else if dir.bytes.getLast? = some slash then dir.parts.dropLast
  else dir.parts

end Path

theorem bytes_lockPath (hname : IsValidName name) : (lockPath dir name).bytes =
    if dir.bytes = [] ∨ dir.bytes.getLast? = some Path.slash then dir.bytes ++ lockEntry name
    else dir.bytes ++ Path.slash :: lockEntry name := by
  have hrelative : (Path.ofString (lockFileName name)).isAbsolute = false := by
    refine decide_eq_false fun h => not_mem_lockEntry hname (Or.inl rfl) ?_
    exact List.mem_of_mem_head? (Option.mem_def.2 h)
  rw [lockPath, Path.join, hrelative]
  simp only [Bool.false_eq_true, if_false]
  split
  · rfl
  · simp [Path.ofString, lockEntry]

/-- **The parts of a lock path.** -/
theorem parts_lockPath (hname : IsValidName name) :
    (lockPath dir name).parts = dir.dirParts ++ [lockEntry name] := by
  have hentry : (lockEntry name).splitOn Path.slash = [lockEntry name] :=
    List.splitOn_eq_singleton (not_mem_lockEntry hname (Or.inl rfl))
  rw [Path.parts, bytes_lockPath hname, Path.dirParts]
  by_cases hempty : dir.bytes = []
  · simp [hempty, hentry]
  by_cases hslash : dir.bytes.getLast? = some Path.slash
  · obtain ⟨bs, hbs⟩ := List.getLast?_eq_some_iff.1 hslash
    rw [if_pos (Or.inr hslash), if_neg hempty, if_pos hslash, Path.parts, hbs, List.append_assoc,
      List.singleton_append, List.splitOn_append_cons_self, List.splitOn_append_cons_self, hentry,
      List.splitOn_nil, List.dropLast_concat]
  · simp only [hempty, hslash, or_self, if_false, Path.parts]
    rw [List.splitOn_append_cons_self, hentry]

theorem filter_dirParts (dir : Path) :
    dir.dirParts.filter (· ≠ []) = FileTree.bareSteps dir := by
  rw [Path.dirParts, FileTree.bareSteps]
  by_cases hempty : dir.bytes = []
  · simp [hempty, Path.parts]
  by_cases hslash : dir.bytes.getLast? = some Path.slash
  · obtain ⟨bs, hbs⟩ := List.getLast?_eq_some_iff.1 hslash
    rw [if_neg hempty, if_pos hslash, Path.parts, hbs, List.splitOn_append_cons_self,
      List.splitOn_nil, List.dropLast_concat, List.filter_append]
    simp
  · rw [if_neg hempty, if_neg hslash, Path.parts]

theorem isAbsolute_lockPath (hname : IsValidName name) :
    (lockPath dir name).isAbsolute = dir.isAbsolute := by
  rw [Path.isAbsolute, Path.isAbsolute, bytes_lockPath hname]
  by_cases hempty : dir.bytes = []
  · have hhead : (lockEntry name).head? ≠ some Path.slash := fun h =>
      not_mem_lockEntry hname (Or.inl rfl) (List.mem_of_mem_head? (Option.mem_def.2 h))
    simp [hempty, hhead]
  · have hhead : ∀ l, (dir.bytes ++ l).head? = dir.bytes.head? := fun l => by
      rw [List.head?_append, List.head?_eq_some_head hempty]
      rfl
    split <;> rw [hhead]

theorem asksDirectory_lockPath (hname : IsValidName name) :
    FileTree.asksDirectory (lockPath dir name) = false := by
  have hends : ∀ l, (l ++ lockEntry name).getLast? = (lockEntry name).getLast? := fun l => by
    rw [List.getLast?_append, List.getLast?_eq_some_getLast (lockEntry_ne_nil name)]
    rfl
  refine decide_eq_false fun h => not_mem_lockEntry hname (Or.inl rfl) ?_
  rw [bytes_lockPath hname] at h
  split at h
  · rw [hends] at h
    exact List.mem_of_getLast? h
  · rw [← List.singleton_append, ← List.append_assoc, hends] at h
    exact List.mem_of_getLast? h

theorem bareSteps_lockPath (hname : IsValidName name) :
    FileTree.bareSteps (lockPath dir name) = FileTree.bareSteps dir ++ [lockEntry name] := by
  rw [FileTree.bareSteps, parts_lockPath hname, List.filter_append, filter_dirParts]
  simp [lockEntry_ne_nil]

/-- **The way to a lock file** is the way to its directory, and one step more. -/
theorem steps_lockPath (hname : IsValidName name) :
    FileTree.steps (lockPath dir name) = FileTree.bareSteps dir ++ [lockEntry name] := by
  rw [FileTree.steps, bareSteps_lockPath hname, asksDirectory_lockPath hname]
  simp

theorem origin_lockPath (t : FileTree) (hname : IsValidName name) :
    t.origin t.cwd (lockPath dir name) = t.origin t.cwd dir := by
  simp only [FileTree.origin, isAbsolute_lockPath hname]

/-! ## Components -/

namespace Path

variable {p q : Path} {ps : List Bytes} {f : Bytes}

theorem components_eq (p : Path) : p.components =
    (if p.isAbsolute then [.root] else if p.parts.head? = some [dot] then [.here] else []) ++
      p.parts.filterMap component? := by
  unfold components
  split
  · rfl
  · split <;> rfl

theorem head?_parts (h : p.isAbsolute = true) : p.parts.head? = some [] := by
  obtain ⟨l, hl⟩ := List.head?_eq_some_iff.1 (of_decide_eq_true h)
  rw [parts, hl, ← List.nil_append (slash :: l),
    List.splitOn_append_cons_self_of_not_mem (by simp)]
  rfl

theorem partsUpTo_prefix (ps : List Bytes) (f : Bytes) :
    partsUpTo (ps.filterMap component?).length (ps ++ [f]) <+: ps := by
  induction ps with
  | nil => exact List.prefix_rfl
  | cons x xs ih =>
    cases hx : component? x with
    | some c =>
      rw [List.filterMap_cons_some hx]
      simpa [partsUpTo, hx] using ih
    | none =>
      rw [List.filterMap_cons_none hx]
      cases hn : (xs.filterMap component?).length with
      | zero => exact List.nil_prefix
      | succ n =>
        rw [hn] at ih
        simpa [partsUpTo, hx] using ih

/-- The directory in which the last part of a path is an entry: it is named by some of
    the parts before it. -/
theorem parent_cases (hparts : p.parts = ps ++ [f]) (hf : component? f = some (.entry f))
    (h : p.parent? = some q) : q.bytes = [] ∨ (p.isAbsolute = true ∧ q = ⟨[slash]⟩) ∨
      ∃ l, l ≠ [] ∧ l <+: ps ∧ q = ⟨[slash].intercalate l⟩ := by
  have hcomponents : p.components =
      (if p.isAbsolute then [.root] else if p.parts.head? = some [dot] then [.here] else []) ++
        ps.filterMap component? ++ [.entry f] := by
    rw [components_eq, hparts, List.filterMap_append, List.append_assoc]
    simp [hf]
  have hq : q = p.front (p.components.length - 1) := by
    unfold parent? at h
    rw [hcomponents, List.getLast?_concat] at h
    rw [hcomponents]
    exact (Option.some.inj h).symm
  rw [hcomponents, List.length_append, List.length_singleton, Nat.add_sub_cancel,
    List.length_append] at hq
  cases ps with
  | nil =>
    -- the path is a single name
    have hdot : f ≠ [dot] := by
      rintro rfl
      cases hf
    have habs : p.isAbsolute = false := by
      refine Bool.eq_false_iff.2 fun h => ?_
      have hhead := head?_parts h
      rw [hparts] at hhead
      cases hhead
      cases hf
    rw [habs, hparts] at hq
    simp only [List.nil_append, List.head?_cons, Option.some.injEq, if_neg hdot] at hq
    exact Or.inl (by rw [hq]; rfl)
  | cons first ps =>
    by_cases hpre : p.isAbsolute = true ∨ first = [dot]
    · -- the first part is a component of its own kind
      have hfirst : component? first = none := by
        rcases hpre with habs | rfl
        · have hhead := head?_parts habs
          rw [hparts] at hhead
          cases hhead
          rfl
        · rfl
      have hlength : (if p.isAbsolute then [Component.root]
          else if p.parts.head? = some [dot] then [.here] else []).length = 1 := by
        rcases hpre with habs | rfl
        · simp [habs]
        · rw [hparts]
          split <;> simp
      rw [hlength, List.filterMap_cons_none hfirst, Nat.add_comm] at hq
      have hprefix := partsUpTo_prefix ps f
      simp only [front, hparts, List.cons_append, if_pos hpre] at hq
      split at hq
      · split at hq
        · rename_i habs
          exact Or.inr (Or.inl ⟨habs, hq⟩)
        · refine Or.inr (Or.inr ⟨[first], by simp, by simp, ?_⟩)
          rw [hq]
          simp [List.intercalate]
      · refine Or.inr (Or.inr ⟨first :: partsUpTo _ (ps ++ [f]), by simp, ?_, hq⟩)
        exact List.cons_prefix_cons.2 ⟨rfl, hprefix⟩
    · -- the first part is a name
      obtain ⟨habs, hdot⟩ := not_or.1 hpre
      have hprefix := partsUpTo_prefix (first :: ps) f
      rw [Bool.not_eq_true] at habs
      rw [habs, hparts] at hq
      simp only [List.cons_append, List.head?_cons, Option.some.injEq, if_neg hdot,
        Bool.false_eq_true, if_false, List.length_nil, Nat.zero_add] at hq
      cases hn : ((first :: ps).filterMap component?).length with
      | zero =>
        rw [hn] at hq
        exact Or.inl (by rw [hq]; rfl)
      | succ n =>
        rw [hn] at hq hprefix
        simp only [front, hparts, List.cons_append, habs, hdot, Bool.false_eq_true, or_self,
          if_false] at hq
        exact Or.inr (Or.inr ⟨partsUpTo (n + 1) (first :: (ps ++ [f])), by simp [partsUpTo],
          hprefix, hq⟩)

theorem slash_not_mem_parts (p : Path) : ∀ part ∈ p.parts, slash ∉ part := by
  unfold parts
  induction p.bytes with
  | nil => simp
  | cons b bs ih =>
    rw [List.splitOn_cons_eq_if_modifyHead]
    split
    · exact List.forall_mem_cons.2 ⟨by simp, ih⟩
    · rename_i hb
      cases h : bs.splitOn slash with
      | nil => simp
      | cons x xs =>
        rw [h] at ih
        obtain ⟨hx, hxs⟩ := List.forall_mem_cons.1 ih
        refine List.forall_mem_cons.2 ⟨fun hmem => ?_, hxs⟩
        rcases List.mem_cons.1 hmem with hslash | hmem
        · exact hb (beq_iff_eq.2 hslash.symm)
        · exact hx hmem

theorem intercalate_prefix {l l' : List Bytes} (hl : l ≠ []) :
    [slash].intercalate l <+: [slash].intercalate (l ++ l') := by
  induction l with
  | nil => exact absurd rfl hl
  | cons x xs ih =>
    cases xs with
    | nil =>
      cases l' with
      | nil => exact List.prefix_rfl
      | cons y ys =>
        rw [List.singleton_append, List.intercalate_cons_cons, List.append_assoc]
        exact ⟨[slash] ++ [slash].intercalate (y :: ys), by simp [List.intercalate]⟩
    | cons y ys =>
      rw [List.cons_append, List.cons_append, List.intercalate_cons_cons,
        List.intercalate_cons_cons]
      exact (List.prefix_append_right_inj _).2 (ih (by simp))

theorem isAbsolute_of_prefix (h : q.bytes <+: p.bytes) (hq : q.bytes ≠ []) :
    q.isAbsolute = p.isAbsolute := by
  obtain ⟨rest, hrest⟩ := h
  rw [isAbsolute, isAbsolute, ← hrest, List.head?_append, List.head?_eq_some_head hq]
  rfl

theorem refusal?_of_prefix (h : q.bytes <+: p.bytes) (hq : q.bytes ≠ [])
    (hp : FileTree.refusal? p = none) : FileTree.refusal? q = none := by
  unfold FileTree.refusal? at hp
  split at hp
  · cases hp
  rename_i hnul
  split at hp
  · cases hp
  split at hp
  · cases hp
  rename_i hlong
  have hlen := h.length_le
  rw [FileTree.refusal?, if_neg fun h' => hnul (h.subset h'), if_neg hq, if_neg (by omega)]

end Path

/-- **The directory that an attempt makes** lies on the way to its lock file. -/
theorem parent_lockPath (hname : IsValidName name) {q : Path}
    (h : (lockPath dir name).parent? = some q) : q.bytes = [] ∨
      (q.bytes <+: (lockPath dir name).bytes ∧
        FileTree.bareSteps q <+: FileTree.bareSteps dir) := by
  have hparts : (lockPath dir name).parts = _ := parts_lockPath hname
  rcases Path.parent_cases hparts (component?_lockEntry name) h with
    hq | ⟨habs, rfl⟩ | ⟨l, hl, hprefix, rfl⟩
  · exact Or.inl hq
  · obtain ⟨bs, hbs⟩ := List.head?_eq_some_iff.1 (of_decide_eq_true habs)
    exact Or.inr ⟨⟨bs, hbs.symm⟩, List.nil_prefix⟩
  · obtain ⟨rest, hrest⟩ := hprefix
    have hslash : ∀ part ∈ l, Path.slash ∉ part := fun part hpart =>
      Path.slash_not_mem_parts (lockPath dir name) part (by
        rw [hparts, ← hrest]
        simp [hpart])
    have hbytes : [Path.slash].intercalate (lockPath dir name).parts = (lockPath dir name).bytes :=
      List.intercalate_splitOn _
    refine Or.inr ⟨?_, ?_⟩
    · rw [← hbytes, hparts, ← hrest, List.append_assoc]
      exact Path.intercalate_prefix hl
    · rw [← filter_dirParts dir, ← hrest, FileTree.bareSteps, Path.parts,
        List.splitOn_intercalate _ hslash hl, List.filter_append]
      exact List.prefix_append _ _

theorem getLast?_lockPath (dir : Path) (hname : IsValidName name) :
    (lockPath dir name).components.getLast? = some (.entry (lockEntry name)) := by
  rw [Path.components_eq, parts_lockPath hname, List.filterMap_append, ← List.append_assoc,
    List.filterMap_cons_some (component?_lockEntry name)]
  simp

theorem exists_parent_lockPath (dir : Path) (hname : IsValidName name) :
    ∃ q, (lockPath dir name).parent? = some q := by
  rw [Path.parent?, getLast?_lockPath dir hname]
  exact ⟨_, rfl⟩

/-- **Different names have different lock files**, also by components, and wherever these
    lie. -/
theorem eq_of_same_lockPath {dir' : Path} {a b : String} (ha : IsValidName a) (hb : IsValidName b)
    (h : (lockPath dir a).Same (lockPath dir' b)) : a = b := by
  have hsame : some (Component.entry (lockEntry a)) = some (.entry (lockEntry b)) := by
    rw [← getLast?_lockPath dir ha, ← getLast?_lockPath dir' hb, show _ = _ from h]
  exact lockEntry_injective (Component.entry.inj (Option.some.inj hsame))

theorem same_lockPath_iff {a b : String} (ha : IsValidName a) (hb : IsValidName b) :
    (lockPath dir a).Same (lockPath dir b) ↔ a = b := by
  constructor
  · exact eq_of_same_lockPath ha hb
  · rintro rfl
    rfl

end NamedMutex
