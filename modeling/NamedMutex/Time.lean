/-
  Durations.

  A duration is a number of nanoseconds.  `Duration.inSeconds` is its length in
  floating-point seconds, rounded as often as the computation rounds: whole
  seconds, fraction and sum; `Duration.ofMagnitude?` goes the other way.
-/
import NamedMutex.Binary64

namespace NamedMutex

/-- A length of time in nanoseconds. -/
abbrev Duration := Nat

namespace Duration

def nanosPerSecond : Nat := 1000000000

def nanosPerMilli : Nat := 1000000

def ofSeconds (n : Nat) : Duration := n * nanosPerSecond

def ofMillis (n : Nat) : Duration := n * nanosPerMilli

/-- The whole seconds of a duration. -/
def seconds (d : Duration) : Nat := d / nanosPerSecond

/-- The whole milliseconds of a duration. -/
def millis (d : Duration) : Nat := d / nanosPerMilli

/-- The nanoseconds beyond the whole seconds. -/
def subsecNanos (d : Duration) : Nat := d % nanosPerSecond

/-- A duration in floating-point seconds. -/
def inSeconds (d : Duration) : Magnitude :=
  (Magnitude.ofNat d.seconds).add (Magnitude.ofRatio d.subsecNanos nanosPerSecond)

/-- The duration nearest to a number of seconds, a tie to the even nanosecond.
    A duration is shorter than `2^64` seconds. -/
def ofMagnitude? (x : Magnitude) : Option Duration :=
  if x.reaches 64 then none else some (roundDiv (x.num * nanosPerSecond) x.den)

end Duration

end NamedMutex
