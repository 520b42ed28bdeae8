/-
  The registry of a process: the paths that it holds, with how often.

  A path counts as one key with every path of the same components.

  * `Registry.count` is how often a path is registered, `Registry.contains`
    whether it is;
  * `register` adds one registration (`count_register`), `unregister` takes one
    back (`count_unregister`); a path that is registered no more is forgotten;
  * both keep a registry `Sound`: then exactly the paths with a positive count are
    registered (`Sound.contains_iff`).
-/
import NamedMutex.Path

namespace NamedMutex

/-- Paths that a process holds, each with the number of its holders. -/
structure Registry where
  entries : List (Path × Nat)
  deriving DecidableEq, Repr

namespace Registry

def empty : Registry := ⟨[]⟩

/-- The number stored for a path. -/
def countIn (path : Path) : List (Path × Nat) → Nat
  | [] => 0
  | (p, n) :: rest => if p.Same path then n else countIn path rest

/-- The entries after one more registration of a path. -/
def increment (path : Path) : List (Path × Nat) → List (Path × Nat)
  | [] => [(path, 1)]
  | (p, n) :: rest => if p.Same path then (p, n + 1) :: rest else (p, n) :: increment path rest

/-- The entries after one registration of a path less. -/
def decrement (path : Path) : List (Path × Nat) → List (Path × Nat)
  | [] => []
  | (p, n) :: rest =>
    if p.Same path then if n - 1 = 0 then rest else (p, n - 1) :: rest
    else (p, n) :: decrement path rest

/-- How often a path is registered. -/
def count (r : Registry) (path : Path) : Nat := countIn path r.entries

/-- Whether a path is registered. -/
def contains (r : Registry) (path : Path) : Bool :=
  r.entries.any fun entry => decide (entry.1.Same path)

/-- Registers a path once more. -/
def register (r : Registry) (path : Path) : Registry := ⟨increment path r.entries⟩

/-- Takes one registration of a path back, if there is one. -/
def unregister (r : Registry) (path : Path) : Registry := ⟨decrement path r.entries⟩

/-- No path has two entries. -/
def Distinct (r : Registry) : Prop :=
  r.entries.Pairwise fun a b => ¬ a.1.Same b.1

theorem countIn_increment (p q : Path) (l : List (Path × Nat)) :
    countIn q (increment p l) = countIn q l + if p.Same q then 1 else 0 := by
  induction l with
  | nil => simp [increment, countIn]
  | cons e l ih =>
    obtain ⟨r, n⟩ := e
    simp only [increment]
    by_cases hr : r.Same p
    · have hq : r.Same q ↔ p.Same q := by simp only [Path.Same] at *; rw [hr]
      by_cases h : p.Same q <;> simp [hr, countIn, hq, h]
    · by_cases hq : r.Same q
      · have hp : ¬ p.Same q := fun h => hr (by simp only [Path.Same] at *; rw [hq, h])
        simp [hr, countIn, hq, hp]
      · simp [hr, countIn, hq, ih]

theorem countIn_eq_zero {q : Path} {l : List (Path × Nat)} (h : ∀ e ∈ l, ¬ e.1.Same q) :
    countIn q l = 0 := by
  induction l with
  | nil => rfl
  | cons e l ih =>
    simp only [countIn, if_neg (h e (by simp))]
    exact ih fun e he => h e (by simp [he])

theorem countIn_decrement (p q : Path) {l : List (Path × Nat)}
    (hl : l.Pairwise fun a b => ¬ a.1.Same b.1) :
    countIn q (decrement p l) = countIn q l - if p.Same q then 1 else 0 := by
  induction l with
  | nil => simp [decrement, countIn]
  | cons e l ih =>
    obtain ⟨r, n⟩ := e
    obtain ⟨hfirst, hrest⟩ := List.pairwise_cons.1 hl
    simp only [decrement]
    by_cases hr : r.Same p
    · have hq : r.Same q ↔ p.Same q := by simp only [Path.Same] at *; rw [hr]
      by_cases h : p.Same q
      · by_cases hn : n - 1 = 0
        · have hzero : countIn q l = 0 := countIn_eq_zero fun e he hs =>
            hfirst e he (by simp only [Path.Same] at *; rw [hr, h, hs])
          simp [hr, countIn, hq, h, hn, hzero]
        · simp [hr, countIn, hq, h, hn]
      · by_cases hn : n - 1 = 0 <;> simp [hr, countIn, hq, h, hn]
    · by_cases hq : r.Same q
      · have hp : ¬ p.Same q := fun h => hr (by simp only [Path.Same] at *; rw [hq, h])
        simp [hr, countIn, hq, hp]
      · simp [hr, countIn, hq, ih hrest]

theorem count_register (r : Registry) (p q : Path) :
    (r.register p).count q = r.count q + if p.Same q then 1 else 0 :=
  countIn_increment p q r.entries

/-- A path that somebody holds is registered. -/
theorem contains_of_pos {r : Registry} {p : Path} (h : 0 < r.count p) : r.contains p = true := by
  by_cases hp : r.contains p = true
  · exact hp
  · refine absurd (countIn_eq_zero fun e he hs => hp ?_) (Nat.ne_of_gt h)
    exact List.any_eq_true.2 ⟨e, he, decide_eq_true hs⟩

theorem count_unregister {r : Registry} (h : r.Distinct) (p q : Path) :
    (r.unregister p).count q = r.count q - if p.Same q then 1 else 0 :=
  countIn_decrement p q h

/-! ## Sound registries -/

/-- No path has two entries, and no entry is without a holder. -/
structure Sound (r : Registry) : Prop where
  distinct : r.Distinct
  positive : ∀ e ∈ r.entries, 0 < e.2

theorem sound_empty : Sound empty := ⟨List.Pairwise.nil, fun e he => by cases he⟩

theorem distinct_iff {r : Registry} :
    r.Distinct ↔ (r.entries.map (·.1)).Pairwise fun p q => ¬ p.Same q := by
  rw [List.pairwise_map, Distinct]

theorem keys_increment (p : Path) (l : List (Path × Nat)) :
    (increment p l).map (·.1) = l.map (·.1) ∨
      (increment p l).map (·.1) = l.map (·.1) ++ [p] ∧ ∀ e ∈ l, ¬ e.1.Same p := by
  induction l with
  | nil => exact Or.inr ⟨rfl, fun e he => by cases he⟩
  | cons e l ih =>
    obtain ⟨r, n⟩ := e
    by_cases hr : r.Same p
    · exact Or.inl (by simp [increment, hr])
    · simp only [increment, hr, if_false, List.map_cons]
      rcases ih with ih | ⟨ih, hnone⟩
      · exact Or.inl (by rw [ih])
      · refine Or.inr ⟨by rw [ih]; rfl, fun e he => ?_⟩
        rcases List.mem_cons.1 he with rfl | he
        · exact hr
        · exact hnone e he

theorem keys_decrement (p : Path) (l : List (Path × Nat)) :
    ((decrement p l).map (·.1)).Sublist (l.map (·.1)) := by
  induction l with
  | nil => simp [decrement]
  | cons e l ih =>
    obtain ⟨r, n⟩ := e
    simp only [decrement]
    split
    · split <;> simp
    · simpa using ih

theorem pos_of_mem_increment {p : Path} {l : List (Path × Nat)} (h : ∀ e ∈ l, 0 < e.2) :
    ∀ e ∈ increment p l, 0 < e.2 := by
  induction l with
  | nil => simp [increment]
  | cons e l ih =>
    obtain ⟨he, hl⟩ := List.forall_mem_cons.1 h
    simp only [increment]
    split
    · exact List.forall_mem_cons.2 ⟨Nat.succ_pos _, hl⟩
    · exact List.forall_mem_cons.2 ⟨he, ih hl⟩

theorem pos_of_mem_decrement {p : Path} {l : List (Path × Nat)} (h : ∀ e ∈ l, 0 < e.2) :
    ∀ e ∈ decrement p l, 0 < e.2 := by
  induction l with
  | nil => simp [decrement]
  | cons e l ih =>
    obtain ⟨he, hl⟩ := List.forall_mem_cons.1 h
    simp only [decrement]
    split
    · split
      · exact hl
      · rename_i hn
        exact List.forall_mem_cons.2 ⟨Nat.pos_of_ne_zero hn, hl⟩
    · exact List.forall_mem_cons.2 ⟨he, ih hl⟩

theorem Sound.register {r : Registry} (h : r.Sound) (p : Path) : (r.register p).Sound := by
  refine ⟨distinct_iff.2 ?_, pos_of_mem_increment h.positive⟩
  have hkeys := distinct_iff.1 h.distinct
  rcases keys_increment p r.entries with heq | ⟨heq, hnone⟩
  · exact heq ▸ hkeys
  · rw [Registry.register, heq]
    refine List.pairwise_append.2 ⟨hkeys, List.pairwise_singleton _ _, fun q hq p' hp' => ?_⟩
    obtain ⟨e, he, rfl⟩ := List.mem_map.1 hq
    rw [List.mem_singleton.1 hp']
    exact hnone e he

theorem Sound.unregister {r : Registry} (h : r.Sound) (p : Path) : (r.unregister p).Sound :=
  ⟨distinct_iff.2 ((distinct_iff.1 h.distinct).sublist (keys_decrement p r.entries)),
    pos_of_mem_decrement h.positive⟩

theorem contains_iff_countIn {p : Path} {l : List (Path × Nat)} (h : ∀ e ∈ l, 0 < e.2) :
    l.any (fun e => decide (e.1.Same p)) = true ↔ 0 < countIn p l := by
  induction l with
  | nil => simp [countIn]
  | cons e l ih =>
    obtain ⟨he, hl⟩ := List.forall_mem_cons.1 h
    by_cases hs : e.1.Same p
    · simp [countIn, hs, he]
    · simpa [countIn, hs] using ih hl

/-- Exactly the paths that somebody holds are registered. -/
theorem Sound.contains_iff {r : Registry} (h : r.Sound) (p : Path) :
    r.contains p = true ↔ 0 < r.count p := contains_iff_countIn h.positive

end Registry

end NamedMutex
