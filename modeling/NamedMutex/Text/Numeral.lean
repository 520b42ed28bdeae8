/-
  Unsigned decimal numerals.

  A numeral is an optional `+` and one or more ASCII digits; leading zeros are
  allowed in any number.  A reader of numerals has a limit, and refuses values
  at or beyond it.

  * `ofNat` writes the shortest numeral;
  * `parse?` reads a numeral below a limit, `parseTrimmed?` one between blanks;
    `digits?_eq` says which digits are read.
-/
import NamedMutex.Text.Blank

namespace NamedMutex.Numeral

/-- The decimal digits of a number, without leading zeros. -/
def ofNat (n : Nat) : List Char :=
  Nat.toDigits 10 n

/-- A number with one digit more behind it. -/
def extend (n : Nat) (d : Char) : Nat := 10 * n + (d.toNat - '0'.toNat)

/-- The number that a sequence of digits denotes. -/
def value (ds : List Char) : Nat := ds.foldl extend 0

/-- The digits of a numeral: what is left after one `+`. -/
def unsigned : List Char → List Char
  | '+' :: ds => ds
  | ds => ds

/-- The number that digits denote behind a number `n`, if it is below `limit`.
    Nothing more is read once the limit is reached. -/
def valueBelow? (limit : Nat) : (n : Nat) → List Char → Option Nat
  | n, [] => if n < limit then some n else none
  | n, d :: ds =>
    if n < limit then valueBelow? limit (extend n d) ds else none

/-- Reads digits, at least one, of a value below `limit`. -/
def digits? (limit : Nat) (ds : List Char) : Option Nat :=
  if ds ≠ [] ∧ ds.all Char.isDigit then valueBelow? limit 0 ds else none

/-- The first number that does not fit into 64 bits, `2^64`. -/
def wordLimit : Nat := 18446744073709551616

/-- Reads a numeral of a value below `limit`. -/
def parse? (limit : Nat) (cs : List Char) : Option Nat :=
  digits? limit (unsigned cs)

/-- Reads a numeral that may stand between blanks. -/
def parseTrimmed? (limit : Nat) (s : String) : Option Nat :=
  parse? limit (trim s.toList)

/-- Digits never make a number smaller. -/
theorem le_foldl_extend (n : Nat) (ds : List Char) : n ≤ ds.foldl extend n := by
  induction ds generalizing n with
  | nil => exact Nat.le_refl n
  | cons d ds ih =>
    have hd : n ≤ extend n d := by simp only [extend]; omega
    exact Nat.le_trans hd (ih (extend n d))

theorem valueBelow?_eq (limit n : Nat) (ds : List Char) :
    valueBelow? limit n ds =
      if ds.foldl extend n < limit then some (ds.foldl extend n) else none := by
  induction ds generalizing n with
  | nil => rfl
  | cons d ds ih =>
    by_cases h : n < limit
    · rw [valueBelow?, if_pos h, ih, List.foldl_cons]
    · have hle := le_foldl_extend n (d :: ds)
      rw [valueBelow?, if_neg h, if_neg (by omega)]

/-- Digits are read exactly if they denote a value below the limit. -/
theorem digits?_eq (limit : Nat) (ds : List Char) :
    digits? limit ds =
      if ds ≠ [] ∧ ds.all Char.isDigit ∧ value ds < limit then some (value ds) else none := by
  by_cases hd : ds ≠ [] ∧ ds.all Char.isDigit
  · rw [digits?, if_pos hd, valueBelow?_eq]
    simp [value, hd]
  · have hn : ¬ (ds ≠ [] ∧ ds.all Char.isDigit ∧ value ds < limit) := fun h => hd ⟨h.1, h.2.1⟩
    rw [digits?, if_neg hd, if_neg hn]

end NamedMutex.Numeral
