/-
  What becomes of a tree when the directories on the way to another one are made.

  However far the making of directories comes, and whatever ends it, all that it does is to
  make directories, one after the other, each at a front of the path (`Builds`).

  * `Furnishes` is what that leaves of a tree: all that was there is there as before, what is
    new is a directory on the way, and no directory lists anything else that is new;
  * `makeDir_furnishes` says so for one directory, and `Builds.furnishes` for all of them, by
    induction on the directories that are made;
  * `makeDirs_furnishes` and `makeDirsUpTo_furnishes`: so it is when the making ends, and when it
    stops half-way.
-/
import NamedMutex.Proofs.Deeds

namespace NamedMutex

namespace FileTree

variable {t t' t'' : FileTree} {dir p : Path}

/-- Directories on the way to `dir` were made in a tree, and nothing else was done. -/
structure Furnishes (dir : Path) (t t' : FileTree) : Prop extends t.Grows t' where
  /-- What a directory lists it listed before, or it is new. -/
  listed : ∀ D e i, t'.child? D e = some i → t.child? D e = some i ∨ t.node? i = none
  /-- What is new is a directory, and on the way. -/
  made : ∀ i, t.node? i = none → (t'.node? i).isSome = true →
    t'.isDirectory i = true ∧ ∃ p, OnTheWay dir p ∧ t'.Leads p i

theorem Furnishes.refl (hw : t.WellFormed) (dir : Path) : t.Furnishes dir t where
  toGrows := .refl hw
  listed _ _ _ h := Or.inl h
  made i hnew hi := by
    rw [hnew] at hi
    cases hi

theorem Furnishes.trans (h : t.Furnishes dir t') (h' : t'.Furnishes dir t'') :
    t.Furnishes dir t'' where
  toGrows := h.toGrows.trans h'.toGrows
  listed D e i hi := by
    rcases h'.listed D e i hi with hi | hnew
    · exact h.listed D e i hi
    · -- what is new in the last tree was new before
      refine Or.inr (Option.not_isSome_iff_eq_none.1 fun hold => ?_)
      have hkept := h.toWithin.node hold
      rw [hnew] at hkept
      cases hkept
  made i hnew hi := by
    cases hmid : (t'.node? i).isSome with
    | true =>
      obtain ⟨hdir, p, hp, hl⟩ := h.made i hnew hmid
      exact ⟨h'.toWithin.isDirectory_of hdir, p, hp, hl.mono h'.toWithin h.wellFormed⟩
    | false => exact h'.made i (Option.not_isSome_iff_eq_none.1 (by simp [hmid])) hi

theorem child?_congr {D : Inode} (h : t'.node? D = t.node? D) (e : Bytes) :
    t'.child? D e = t.child? D e := by
  simp only [child?, directory?, h]

/-- **One directory that is made** is all that is new. -/
theorem makeDir_furnishes (hw : t.WellFormed) (hp : OnTheWay dir p) (h : t.makeDir p = .ok t') :
    t.Furnishes dir t' := by
  have hgrows := makeDir_grows hw h
  obtain ⟨hleads, hdir⟩ := makeDir_made hw h
  obtain ⟨D, e, -, hwalk, rfl⟩ := makeDir_cases h
  have hl : t.LooksUp D e none := hwalk.vacant_looksUp rfl
  have hnode : ∀ j, j ≠ D → (t.create D e (.directory D .empty) dirMode).1.node? j =
      if j = t.next then some ⟨.directory D .empty, dirMode, true⟩ else t.node? j :=
    fun j hj => node?_create hw hl hj
  refine ⟨hgrows, fun D' e' i hi => ?_, fun i hnew hi => ?_⟩
  · by_cases hD : D' = D
    · subst hD
      rw [child?_create hw hl] at hi
      split at hi
      · cases hi
        exact Or.inr hw.node?_next
      · exact Or.inl hi
    · have hD' := hnode D' hD
      by_cases hnext : D' = t.next
      · -- the new directory lists nothing
        rw [if_pos hnext] at hD'
        have hentries := child?_eq (directory?_eq_some.2 ⟨_, _, hD'⟩) (e := e')
        rw [hentries, Table.get?_empty] at hi
        cases hi
      · rw [if_neg hnext] at hD'
        rw [child?_congr hD'] at hi
        exact Or.inl hi
  · have hne : i ≠ D := by
      rintro rfl
      have hD := isDirectory_node hl.isDirectory
      rw [hnew] at hD
      cases hD
    rw [hnode i hne] at hi
    split at hi
    · rename_i heq
      subst heq
      exact ⟨hdir, p, hp, hleads⟩
    · rw [hnew] at hi
      cases hi

/-- **Directories that are made one after the other** are all that is new. -/
theorem Builds.furnishes (h : t.Builds (OnTheWay dir) t') (hw : t.WellFormed) :
    t.Furnishes dir t' := by
  induction h with
  | done => exact .refl hw dir
  | make hp hmake _ ih =>
    have hfirst := makeDir_furnishes hw hp hmake
    exact hfirst.trans (ih hfirst.wellFormed)

theorem makeDirs_furnishes (hw : t.WellFormed) (dir : Path) :
    t.Furnishes dir (t.makeDirs dir).1 := (makeDirs_builds t dir).furnishes hw

theorem makeDirsUpTo_furnishes (hw : t.WellFormed) (dir : Path) (n : Nat) :
    t.Furnishes dir (makeDirsUpTo dir n t).1 := (makeDirsUpTo_builds dir n t).furnishes hw

end FileTree

end NamedMutex
