/-
  Rounding, and the numbers that are read.

  * `roundDiv_nearest`: a rounded quotient is nearest to the exact one;
  * `mantissa_ofRatio_le`: a rounded magnitude has a mantissa of at most `2^53`, so each
    number that is read has one (`Binary64.parse?_rounded`);
  * `Duration.ofMagnitude?_eq_none_iff` and `ofMagnitude?_spec`: the magnitudes below `2^64`
    are durations, each the nearest number of nanoseconds; rounding does not lead out of them.
-/
import Mathlib.Algebra.Ring.Nat
import NamedMutex.Time

namespace NamedMutex

/-! ## Quotients -/

section Quotients
variable {num den : Nat}

/-- **A rounded quotient is nearest to the exact one**: twice the error is at most one. -/
theorem roundDiv_nearest (hden : 0 < den) : 2 * (den * roundDiv num den) ≤ 2 * num + den ∧
    2 * num ≤ 2 * (den * roundDiv num den) + den := by
  have hdiv := Nat.div_add_mod num den
  have hlt := Nat.mod_lt num hden
  have hnext : den * (num / den + 1) = den * (num / den) + den := Nat.mul_succ _ _
  unfold roundDiv
  dsimp only
  split
  · omega
  · split
    · omega
    · -- a tie
      rcases Nat.mod_two_eq_zero_or_one (num / den) with h | h
      · rw [h, Nat.add_zero]
        omega
      · rw [h]
        omega

theorem roundDiv_le_div_succ (num den : Nat) : roundDiv num den ≤ num / den + 1 := by
  unfold roundDiv
  dsimp only
  split
  · exact Nat.le_succ _
  · split
    · exact Nat.le_refl _
    · exact Nat.add_le_add_left (Nat.le_of_lt_succ (Nat.mod_lt _ (by decide))) _

@[simp] theorem roundDiv_one (n : Nat) : roundDiv n 1 = n := by
  simp [roundDiv, Nat.mod_one]

/-- A rounded quotient does not pass a bound that the exact one does not reach. -/
theorem roundDiv_le {bound : Nat} (hden : 0 < den) (h : num < bound * den) :
    roundDiv num den ≤ bound := by
  have hdiv : num / den < bound := (Nat.div_lt_iff_lt_mul hden).2 h
  exact Nat.le_trans (roundDiv_le_div_succ num den) hdiv

end Quotients

/-! ## Magnitudes -/

namespace Magnitude

variable {num den : Nat}

/-- The quotient `num / den` is less than `2^i`. -/
def Below (num den : Nat) (i : Int) : Prop :=
  num * 2 ^ (-i).toNat < den * 2 ^ i.toNat

theorem Below.mono {i j : Int} (h : Below num den i) (hij : i ≤ j) : Below num den j := by
  have hleft : 2 ^ (-j).toNat ≤ 2 ^ (-i).toNat := Nat.pow_le_pow_right (by decide) (by omega)
  have hright : 2 ^ i.toNat ≤ 2 ^ j.toNat := Nat.pow_le_pow_right (by decide) (by omega)
  exact Nat.lt_of_le_of_lt (Nat.mul_le_mul_left _ hleft)
    (Nat.lt_of_lt_of_le h (Nat.mul_le_mul_left _ hright))

theorem Below.scale {e : Int} {n : Nat} (h : Below num den (e + n)) :
    num * 2 ^ (-e).toNat < 2 ^ n * (den * 2 ^ e.toNat) := by
  -- both sides are to be multiplied by the power of two that `e + n` puts on the left
  have hexponents : (e + n).toNat + (-e).toNat = n + e.toNat + (-(e + n)).toNat := by omega
  refine Nat.lt_of_mul_lt_mul_right (a := 2 ^ (-(e + n)).toNat) ?_
  calc num * 2 ^ (-e).toNat * 2 ^ (-(e + n)).toNat
      = num * 2 ^ (-(e + n)).toNat * 2 ^ (-e).toNat := Nat.mul_right_comm _ _ _
    _ < den * 2 ^ (e + n).toNat * 2 ^ (-e).toNat :=
        Nat.mul_lt_mul_of_pos_right h (Nat.pow_pos (by decide))
    _ = den * (2 ^ n * 2 ^ e.toNat * 2 ^ (-(e + n)).toNat) := by
        rw [Nat.mul_assoc, ← Nat.pow_add, hexponents, Nat.pow_add, Nat.pow_add]
    _ = 2 ^ n * (den * 2 ^ e.toNat) * 2 ^ (-(e + n)).toNat := by
        rw [← Nat.mul_assoc, ← Nat.mul_assoc, Nat.mul_comm den, Nat.mul_assoc (2 ^ n)]

theorem below_highBit (hden : 0 < den) : Below num den (highBit num den + 1) := by
  unfold highBit
  dsimp only
  split
  · have hnum : num < 2 ^ (num.log2 + 1) := Nat.lt_log2_self
    have hlog : 2 ^ den.log2 ≤ den := Nat.log2_self_le (Nat.ne_of_gt hden)
    have hexponents : num.log2 + 1 + (-((num.log2 : Int) - den.log2 + 1)).toNat =
        den.log2 + ((num.log2 : Int) - den.log2 + 1).toNat := by omega
    calc num * 2 ^ (-((num.log2 : Int) - den.log2 + 1)).toNat
        < 2 ^ (num.log2 + 1) * 2 ^ (-((num.log2 : Int) - den.log2 + 1)).toNat :=
          Nat.mul_lt_mul_of_pos_right hnum (Nat.pow_pos (by decide))
      _ = 2 ^ den.log2 * 2 ^ ((num.log2 : Int) - den.log2 + 1).toNat := by
          rw [← Nat.pow_add, ← Nat.pow_add, hexponents]
      _ ≤ den * 2 ^ ((num.log2 : Int) - den.log2 + 1).toNat := Nat.mul_le_mul_right _ hlog
  · rename_i hlow
    rw [Int.sub_add_cancel]
    exact Nat.lt_of_not_le hlow

/-- **A rounded magnitude has a mantissa of at most `2^53`.** -/
theorem mantissa_ofRatio_le (num den : Nat) : (ofRatio num den).mantissa ≤ 2 ^ 53 := by
  unfold ofRatio
  split
  · exact Nat.zero_le _
  · rename_i hpos
    obtain ⟨hnum, hden⟩ := not_or.1 hpos
    have hden : 0 < den := Nat.pos_of_ne_zero hden
    dsimp only
    refine roundDiv_le (Nat.mul_pos hden (Nat.pow_pos (by decide))) ?_
    refine Below.scale (n := 53) ((below_highBit hden).mono ?_)
    omega

end Magnitude

/-! ## Numbers -/

namespace Binary64

/-- A number whose magnitude, if it is finite, is one that rounding leads to. -/
def Rounded (b : Binary64) : Prop := ∀ negative x, b = finite negative x → x.mantissa ≤ 2 ^ 53

variable {negative : Bool} {cs : List Char} {x : Binary64}

theorem rounded_infinite (negative : Bool) : (infinite negative).Rounded := by
  intro _ _ h
  cases h

theorem rounded_finite (negative : Bool) {x : Magnitude} (hx : x.mantissa ≤ 2 ^ 53) :
    (finite negative x).Rounded := by
  rintro _ _ h
  cases h
  exact hx

theorem ofMagnitude_rounded (negative : Bool) {x : Magnitude} (hx : x.mantissa ≤ 2 ^ 53) :
    (ofMagnitude negative x).Rounded := by
  unfold ofMagnitude
  cases x.reaches 1024 with
  | true => exact rounded_infinite negative
  | false => exact rounded_finite negative hx

theorem ofDecimal_rounded (negative : Bool) (digits : List Char) (exponent : Int) :
    (ofDecimal negative digits exponent).Rounded := by
  unfold ofDecimal
  dsimp only
  split
  · exact rounded_finite negative (Nat.zero_le _)
  · split
    · exact rounded_infinite negative
    · exact ofMagnitude_rounded negative (Magnitude.mantissa_ofRatio_le _ _)

theorem decimal?_rounded (h : decimal? negative cs = some x) : x.Rounded := by
  have hread : ∀ digits rest places, (if digits = [] then none
      else (scale? rest).map fun e => ofDecimal negative digits (e - places)) = some x →
      x.Rounded := by
    intro digits rest places h
    split at h
    · cases h
    · obtain ⟨e, -, rfl⟩ := Option.map_eq_some_iff.1 h
      exact ofDecimal_rounded _ _ _
  unfold decimal? at h
  dsimp only at h
  split at h <;> exact hread _ _ _ h

theorem unsigned?_rounded (h : unsigned? negative cs = some x) : x.Rounded := by
  unfold unsigned? at h
  dsimp only at h
  split at h
  · cases h
    exact rounded_infinite negative
  · split at h
    · cases h
      intro _ _ h
      cases h
    · exact decimal?_rounded h

/-- **Every number that is read is rounded.** -/
theorem parse?_rounded {s : String} (h : parse? s = some x) : x.Rounded := by
  unfold parse? at h
  split at h <;> exact unsigned?_rounded h

end Binary64

/-! ## Durations -/

namespace Duration

variable {x : Magnitude} {d : Duration}

theorem ofMagnitude?_eq_none_iff : ofMagnitude? x = none ↔ x.reaches 64 = true := by
  unfold ofMagnitude?
  split <;> simp_all

/-- **A magnitude below `2^64` is a duration**, the nearest number of nanoseconds; that is
    below `2^64` seconds too. -/
theorem ofMagnitude?_spec (hx : x.mantissa ≤ 2 ^ 53) (h : ofMagnitude? x = some d) :
    d < ofSeconds (2 ^ 64) ∧ 2 * (x.den * d) ≤ 2 * (x.num * nanosPerSecond) + x.den ∧
      2 * (x.num * nanosPerSecond) ≤ 2 * (x.den * d) + x.den := by
  have hden : 0 < x.den := Nat.pow_pos (by decide)
  unfold ofMagnitude? at h
  split at h
  · cases h
  rename_i hreach
  cases h
  refine ⟨?_, roundDiv_nearest hden⟩
  have hbelow : x.num < 2 ^ 64 * x.den := by simpa [Magnitude.reaches] using hreach
  by_cases hexponent : 0 ≤ x.exponent
  · -- a whole number of seconds
    have hone : x.den = 1 := by
      rw [Magnitude.den, Int.toNat_of_nonpos (by omega)]
    rw [hone, Nat.mul_one] at hbelow
    rw [hone, roundDiv_one]
    exact Nat.mul_lt_mul_of_pos_right hbelow (by decide)
  · -- a fraction of some number of at most `2^53`
    have hnum : x.num ≤ 2 ^ 53 := by
      rw [Magnitude.num, Int.toNat_of_nonpos (by omega)]
      simpa using hx
    have hle : roundDiv (x.num * nanosPerSecond) x.den ≤ (2 ^ 53 + 1) * nanosPerSecond := by
      refine roundDiv_le hden ?_
      calc x.num * nanosPerSecond ≤ 2 ^ 53 * nanosPerSecond := Nat.mul_le_mul_right _ hnum
        _ < (2 ^ 53 + 1) * nanosPerSecond := by decide
        _ ≤ (2 ^ 53 + 1) * nanosPerSecond * x.den := Nat.le_mul_of_pos_right _ hden
    exact Nat.lt_of_le_of_lt hle (by decide)

end Duration

end NamedMutex
