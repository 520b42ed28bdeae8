/-
  Numbers of 64-bit binary floating point, computed exactly.

  Time budgets are given as floating-point seconds and elapsed times are
  reported as such.  A finite number is `m · 2^e` with `m ≤ 2^53`; all
  operations round the exact value to the nearest such number, a tie to the
  even `m`.

  * `roundDiv` rounds a quotient of natural numbers;
  * `Magnitude.ofRatio` rounds a quotient to a magnitude;
  * `Binary64.parse?` reads decimal text, `Magnitude.twoPlaces` writes two
    places.
-/
import NamedMutex.Text.Numeral

namespace NamedMutex

/-- The integer nearest to `num / den`; a tie goes to the even one. -/
def roundDiv (num den : Nat) : Nat :=
  let q := num / den
  let r := num % den
  if 2 * r < den then q
  else if den < 2 * r then q + 1
  else q + q % 2

/-- The number `mantissa · 2^exponent`. -/
structure Magnitude where
  mantissa : Nat
  exponent : Int
  deriving DecidableEq, Repr

namespace Magnitude

def zero : Magnitude := ⟨0, 0⟩

/-- The exponent of the highest bit of `num / den`, both positive. -/
def highBit (num den : Nat) : Int :=
  let k : Int := (num.log2 : Int) - (den.log2 : Int)
  if den * Nat.pow 2 k.toNat ≤ num * Nat.pow 2 (-k).toNat then k else k - 1

/-- The magnitude nearest to `num / den`.  Below `2^-1022` the mantissa has
    fewer bits, as the exponent stops at `-1074`. -/
def ofRatio (num den : Nat) : Magnitude :=
  if num = 0 ∨ den = 0 then zero
  else
    let e := max (highBit num den - 52) (-1074)
    ⟨roundDiv (num * Nat.pow 2 (-e).toNat) (den * Nat.pow 2 e.toNat), e⟩

/-- Numerator of the exact value. -/
def num (x : Magnitude) : Nat := x.mantissa * Nat.pow 2 x.exponent.toNat

/-- Denominator of the exact value, a power of two. -/
def den (x : Magnitude) : Nat := Nat.pow 2 (-x.exponent).toNat

def ofNat (n : Nat) : Magnitude := ofRatio n 1

/-- The rounded sum. -/
def add (x y : Magnitude) : Magnitude :=
  ofRatio (x.num * y.den + y.num * x.den) (x.den * y.den)

/-- Whether the magnitude reaches `2^n`. -/
def reaches (x : Magnitude) (n : Nat) : Bool :=
  decide (Nat.pow 2 n * x.den ≤ x.num)

/-- The magnitude with two decimal places, rounded from its exact value; a tie
    goes to the even digit. -/
def twoPlaces (x : Magnitude) : String :=
  let hundredths := roundDiv (100 * x.num) x.den
  let fraction := Nat.toDigits 10 (hundredths % 100)
  String.ofList (Nat.toDigits 10 (hundredths / 100) ++ ['.'] ++
    List.replicate (2 - fraction.length) '0' ++ fraction)

end Magnitude

/-- A number of 64-bit binary floating point. -/
inductive Binary64 where
  | finite (negative : Bool) (magnitude : Magnitude)
  | infinite (negative : Bool)
  | notANumber
  deriving DecidableEq, Repr

namespace Binary64

/-- A magnitude with a sign; from `2^1024` on the number is infinite. -/
def ofMagnitude (negative : Bool) (x : Magnitude) : Binary64 :=
  if x.reaches 1024 then .infinite negative else .finite negative x

/-- The number nearest to `digits · 10^exponent`.  With `d` digits the value
    lies below `10^(d + exponent)` and, unless it is zero, not below
    `10^(d + exponent - 1)`; far outside the range it is infinite or zero
    without further computation. -/
def ofDecimal (negative : Bool) (digits : List Char) (exponent : Int) : Binary64 :=
  let significant := digits.dropWhile (· = '0')
  let top : Int := significant.length + exponent
  if significant = [] ∨ top < -330 then .finite negative .zero
  else if 310 < top then .infinite negative
  else
    let n := Numeral.value significant
    ofMagnitude negative
      (.ofRatio (n * Nat.pow 10 exponent.toNat) (Nat.pow 10 (-exponent).toNat))

/-- Reads an exponent, digits with an optional sign. -/
def exponent? : List Char → Option Int
  | '-' :: ds => if ds ≠ [] ∧ ds.all Char.isDigit then some (-(Numeral.value ds : Int)) else none
  | ds =>
    let ds := Numeral.unsigned ds
    if ds ≠ [] ∧ ds.all Char.isDigit then some (Numeral.value ds : Int) else none

/-- Reads what follows the mantissa: nothing, or `e` and an exponent. -/
def scale? : List Char → Option Int
  | [] => some 0
  | c :: cs => if c = 'e' ∨ c = 'E' then exponent? cs else none

/-- Reads digits with an optional point and an optional exponent; the mantissa
    has at least one digit. -/
def decimal? (negative : Bool) (cs : List Char) : Option Binary64 :=
  let whole := cs.takeWhile Char.isDigit
  let (fraction, rest) := match cs.dropWhile Char.isDigit with
    | '.' :: rest => (rest.takeWhile Char.isDigit, rest.dropWhile Char.isDigit)
    | rest => ([], rest)
  if whole ++ fraction = [] then none
  else (scale? rest).map fun e => ofDecimal negative (whole ++ fraction) (e - fraction.length)

/-- Reads a number without its sign.  The names of the infinite number and of
    the missing number may be written in any case. -/
def unsigned? (negative : Bool) (cs : List Char) : Option Binary64 :=
  let word := String.ofList (cs.map Char.toLower)
  if word = "inf" ∨ word = "infinity" then some (.infinite negative)
  else if word = "nan" then some .notANumber
  else decimal? negative cs

/-- Reads decimal text with an optional sign. -/
def parse? (s : String) : Option Binary64 :=
  match s.toList with
  | '-' :: cs => unsigned? true cs
  | '+' :: cs => unsigned? false cs
  | cs => unsigned? false cs

end Binary64

end NamedMutex
