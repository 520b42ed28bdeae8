/-
  White space as the Unicode property `White_Space`, and trimming.

  * `Blank.ranges` lists the property;
  * `trim` drops blanks at both ends of a text; `trim_eq_nil` says when
    nothing is left.
-/

namespace NamedMutex

namespace Blank

/-- The code points with the property `White_Space`, as closed ranges. -/
def ranges : List (Nat × Nat) :=
  [(0x9, 0xD), (0x20, 0x20), (0x85, 0x85), (0xA0, 0xA0), (0x1680, 0x1680), (0x2000, 0x200A),
    (0x2028, 0x2029), (0x202F, 0x202F), (0x205F, 0x205F), (0x3000, 0x3000)]

end Blank

/-- Whether a character is white space. -/
def isBlank (c : Char) : Bool :=
  Blank.ranges.any fun (low, high) => low ≤ c.toNat && c.toNat ≤ high

/-- A text without the blanks at its ends. -/
def trim (cs : List Char) : List Char :=
  ((cs.dropWhile isBlank).reverse.dropWhile isBlank).reverse

/-- A text loses all its characters at the front exactly if all are blanks. -/
theorem dropWhile_isBlank_eq_nil {cs : List Char} :
    cs.dropWhile isBlank = [] ↔ ∀ c ∈ cs, isBlank c := by
  induction cs with
  | nil => simp
  | cons c cs ih => cases h : isBlank c <;> simp [h, ih]

/-- Nothing is left exactly of a text of blanks. -/
theorem trim_eq_nil {cs : List Char} : trim cs = [] ↔ ∀ c ∈ cs, isBlank c := by
  have key : (∀ c ∈ cs.dropWhile isBlank, isBlank c) ↔ cs.dropWhile isBlank = [] := by
    induction cs with
    | nil => simp
    | cons c cs ih => cases h : isBlank c <;> simp [h, ih]
  simp only [trim, List.reverse_eq_nil_iff, dropWhile_isBlank_eq_nil, List.mem_reverse]
  exact key.trans dropWhile_isBlank_eq_nil

end NamedMutex
