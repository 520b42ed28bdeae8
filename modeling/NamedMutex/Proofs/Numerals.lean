/-
  Which texts are read as numerals.

  A numeral between blanks is told from all other texts by what is left of it without the
  blanks at its ends: at most one `+`, and ASCII digits, whose value is that of their places.

  * `trim_eq_iff`: trimming takes away the blanks at both ends and nothing else;
  * `Numeral.value_eq_ofDigits`: the value of digits by their places;
  * `Numeral.parse?_eq_some_iff` and `Numeral.parseTrimmed?_eq_some_iff`: what is read, and as
    which number; `Numeral.Spells` is the grammar.
-/
import Mathlib.Data.List.TakeWhile
import Mathlib.Data.Nat.Digits.Defs
import NamedMutex.Text.Numeral

namespace NamedMutex

/-! ## Trimming -/

/-- A text with no blank at either end. -/
structure IsBare (cs : List Char) : Prop where
  head : ∀ c, cs.head? = some c → isBlank c = false
  last : ∀ c, cs.getLast? = some c → isBlank c = false

/-- What is left of a text without the blanks at its ends. -/
inductive Trims : List Char → List Char → Prop
  | between {front core back : List Char} : (∀ c ∈ front, isBlank c = true) →
      (∀ c ∈ back, isBlank c = true) → IsBare core → Trims (front ++ core ++ back) core

section Trim
variable {cs core : List Char}

theorem isBlank_of_head?_dropWhile {c : Char} (h : (cs.dropWhile isBlank).head? = some c) :
    isBlank c = false := by
  have hnot := List.head?_dropWhile_not isBlank cs
  rw [h] at hnot
  simpa using hnot

theorem dropWhile_isBlank_eq_self (h : ∀ c, cs.head? = some c → isBlank c = false) :
    cs.dropWhile isBlank = cs := by
  cases cs with
  | nil => rfl
  | cons c cs => simp [h c rfl]

theorem trims_trim (cs : List Char) : Trims cs (trim cs) := by
  have hfront := List.takeWhile_append_dropWhile (p := isBlank) (l := cs)
  generalize hds : cs.dropWhile isBlank = ds at hfront
  have hback := List.takeWhile_append_dropWhile (p := isBlank) (l := ds.reverse)
  have hcore : trim cs = (ds.reverse.dropWhile isBlank).reverse := by rw [trim, hds]
  have hsplit : ds = trim cs ++ (ds.reverse.takeWhile isBlank).reverse := by
    rw [hcore, ← List.reverse_append, hback, List.reverse_reverse]
  have hbare : IsBare (trim cs) := by
    refine ⟨fun c hc => ?_, fun c hc => ?_⟩
    · have hhead : ds.head? = some c := by
        rw [hsplit, List.head?_append, hc]
        rfl
      exact isBlank_of_head?_dropWhile (hds ▸ hhead)
    · rw [hcore, List.getLast?_reverse] at hc
      exact isBlank_of_head?_dropWhile hc
  have htrims : Trims (cs.takeWhile isBlank ++ trim cs ++ (ds.reverse.takeWhile isBlank).reverse)
      (trim cs) := by
    refine .between (fun c hc => List.mem_takeWhile_imp hc) (fun c hc => ?_) hbare
    exact List.mem_takeWhile_imp (List.mem_reverse.1 hc)
  rwa [List.append_assoc, ← hsplit, hfront] at htrims

/-- **Trimming takes away the blanks at both ends**, and nothing else. -/
theorem trim_eq_iff : trim cs = core ↔ Trims cs core := by
  constructor
  · rintro rfl
    exact trims_trim cs
  · rintro ⟨hfront, hback, hbare⟩
    by_cases hcore : core = []
    · subst hcore
      rw [List.append_nil, trim_eq_nil]
      intro c hc
      rcases List.mem_append.1 hc with hc | hc
      · exact hfront c hc
      · exact hback c hc
    · obtain ⟨c, rest, rfl⟩ := List.exists_cons_of_ne_nil hcore
      have hlast : ∀ d, (c :: rest).reverse.head? = some d → isBlank d = false := by
        intro d hd
        rw [List.head?_reverse] at hd
        exact hbare.last d hd
      rw [trim, List.append_assoc, List.dropWhile_append_of_pos hfront, List.cons_append,
        List.dropWhile_cons_of_neg (by simp [hbare.head c rfl]), ← List.cons_append,
        List.reverse_append, List.dropWhile_append_of_pos (by simpa using hback),
        dropWhile_isBlank_eq_self hlast, List.reverse_reverse]

end Trim

namespace Numeral

/-! ## Values -/

/-- The number that a digit stands for. -/
def weight (d : Char) : Nat := d.toNat - '0'.toNat

/-- **The value of digits** is that of their places, the last one being that of the units. -/
theorem value_eq_ofDigits (ds : List Char) :
    value ds = Nat.ofDigits 10 (ds.reverse.map weight) := by
  rw [Nat.ofDigits_eq_foldr, List.foldr_map, List.foldr_reverse, value]
  congr 1
  funext n d
  simp [extend, weight]
  omega

/-! ## The grammar -/

/-- The numerals of a number: one or more digits that denote it, with or without a `+`. -/
inductive Spells : List Char → Nat → Prop
  | plain {ds : List Char} : ds ≠ [] → (∀ d ∈ ds, d.isDigit = true) →
      Spells ds (Nat.ofDigits 10 (ds.reverse.map weight))
  | signed {ds : List Char} : ds ≠ [] → (∀ d ∈ ds, d.isDigit = true) →
      Spells ('+' :: ds) (Nat.ofDigits 10 (ds.reverse.map weight))

section Grammar
variable {cs : List Char} {n limit : Nat}

theorem digits?_eq_some_iff : digits? limit cs = some n ↔
    cs ≠ [] ∧ (∀ d ∈ cs, d.isDigit = true) ∧ Nat.ofDigits 10 (cs.reverse.map weight) = n ∧
      n < limit := by
  simp only [digits?_eq, value_eq_ofDigits, List.all_eq_true, Option.ite_none_right_eq_some,
    Option.some.injEq]
  constructor
  · rintro ⟨⟨hne, hall, hlt⟩, rfl⟩
    exact ⟨hne, hall, rfl, hlt⟩
  · rintro ⟨hne, hall, rfl, hlt⟩
    exact ⟨⟨hne, hall, hlt⟩, rfl⟩

/-- **What is read as a numeral**, and as which number. -/
theorem parse?_eq_some_iff : parse? limit cs = some n ↔ Spells cs n ∧ n < limit := by
  rw [parse?, digits?_eq_some_iff]
  constructor
  · rintro ⟨hne, hall, rfl, hlt⟩
    refine ⟨?_, hlt⟩
    revert hne hall
    unfold unsigned
    split
    · exact .signed
    · exact .plain
  · rintro ⟨hspells, hlt⟩
    cases hspells with
    | signed hne hall => exact ⟨hne, hall, rfl, hlt⟩
    | plain hne hall =>
      have hsign : unsigned cs = cs := by
        unfold unsigned
        split
        · exact absurd (hall '+' (List.mem_cons_self ..)) (by decide)
        · rfl
      rw [hsign]
      exact ⟨hne, hall, rfl, hlt⟩

/-- **What is read as a numeral between blanks.** -/
theorem parseTrimmed?_eq_some_iff {s : String} : parseTrimmed? limit s = some n ↔
    ∃ core, Trims s.toList core ∧ Spells core n ∧ n < limit := by
  rw [parseTrimmed?, parse?_eq_some_iff]
  constructor
  · exact fun h => ⟨_, trims_trim _, h⟩
  · rintro ⟨core, htrims, h⟩
    rwa [trim_eq_iff.2 htrims]

end Grammar

end Numeral

end NamedMutex
