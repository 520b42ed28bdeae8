/-
  What the environment configures.

  A variable may hold any bytes.  It counts if these are text, and if that is, without the
  blanks at its ends, a numeral of a 64-bit number; a directory counts as it stands, if there is
  more than blanks in it.  Everything else is as good as unset.

  * `Environment.Counts`, `Environment.Shows` say what variables hold;
    `number?_eq_some_iff`: that is what is read;
  * `Duration.Words` is a duration as a machine keeps it; `length_ofSeconds`, `length_ofMillis`:
    the conversions to it never overflow;
  * `environment_settings` is the main statement.
-/
import NamedMutex.Proofs.Decoding
import NamedMutex.Proofs.Numerals
import NamedMutex.Timed

namespace NamedMutex

/-! ## Durations in words -/

namespace Duration

/-- A duration as a machine keeps it: the seconds in a word, and what is left of a second in half
    a word. -/
structure Words where
  seconds : UInt64
  nanos : UInt32
  nanos_lt : nanos.toNat < nanosPerSecond

namespace Words

def length (w : Words) : Duration := w.seconds.toNat * nanosPerSecond + w.nanos.toNat

def ofSeconds (n : UInt64) : Words := ⟨n, 0, by decide⟩

/-- The nanoseconds of the milliseconds beyond the last second, in half a word. -/
def restOfMillis (n : UInt64) : UInt32 := (n % 1000).toUInt32 * 1000000

theorem toNat_restOfMillis (n : UInt64) :
    (restOfMillis n).toNat = n.toNat % 1000 * nanosPerMilli := by
  have hrest : (n % 1000).toUInt32.toNat = n.toNat % 1000 := by
    rw [UInt64.toNat_toUInt32, UInt64.toNat_mod]
    exact Nat.mod_eq_of_lt (Nat.lt_trans (Nat.mod_lt _ (by decide)) (by decide))
  rw [restOfMillis, UInt32.toNat_mul, hrest]
  exact Nat.mod_eq_of_lt (by simp only [UInt32.reduceToNat]; omega)

def ofMillis (n : UInt64) : Words where
  seconds := n / 1000
  nanos := restOfMillis n
  nanos_lt := by
    rw [toNat_restOfMillis]
    simp only [nanosPerMilli, nanosPerSecond]
    omega

theorem length_ofSeconds (n : UInt64) : (ofSeconds n).length = Duration.ofSeconds n.toNat :=
  Nat.add_zero _

theorem length_ofMillis (n : UInt64) : (ofMillis n).length = Duration.ofMillis n.toNat := by
  have hseconds : (n / 1000).toNat = n.toNat / 1000 := UInt64.toNat_div n 1000
  have hsum : n.toNat / 1000 * nanosPerSecond + n.toNat % 1000 * nanosPerMilli =
      n.toNat * nanosPerMilli := by
    simp only [nanosPerMilli, nanosPerSecond]
    omega
  simp only [length, ofMillis, toNat_restOfMillis, hseconds, Duration.ofMillis, hsum]

end Words

end Duration

namespace Environment

variable {env : Environment} {key : String} {s : String} {bytes : Bytes} {n : Nat}

/-! ## What variables hold -/

/-- A variable holds the numeral of a 64-bit number, between blanks. -/
def Counts (env : Environment) (key : String) (n : Nat) : Prop :=
  ∃ s core, env.get? key = some (Utf8.encode s) ∧ Trims s.toList core ∧ Numeral.Spells core n ∧
    n < 2 ^ 64

/-- A variable holds a text that is more than blanks. -/
def Shows (env : Environment) (key : String) (bytes : Bytes) : Prop :=
  env.get? key = some bytes ∧ ∃ s, bytes = Utf8.encode s ∧ ∃ c ∈ s.toList, isBlank c = false

theorem text?_eq_some_iff : env.text? key = some s ↔ env.get? key = some (Utf8.encode s) := by
  simp only [text?, Option.bind_eq_some_iff, Utf8.decode?_eq_some_iff, exists_eq_right]

/-- **The number that a variable holds** is that whose numeral it holds. -/
theorem number?_eq_some_iff : env.number? key = some n ↔ env.Counts key n := by
  simp only [number?, Option.bind_eq_some_iff, text?_eq_some_iff,
    Numeral.parseTrimmed?_eq_some_iff, Counts, exists_and_left]
  rfl

theorem number?_eq_none_iff : env.number? key = none ↔ ∀ n, ¬ env.Counts key n := by
  simp only [← number?_eq_some_iff, Option.eq_none_iff_forall_ne_some, ne_eq]

theorem Counts.exists_word (h : env.Counts key n) : ∃ w : UInt64, w.toNat = n := by
  obtain ⟨-, -, -, -, -, hlt⟩ := h
  exact ⟨UInt64.ofNat n, UInt64.toNat_ofNat_of_lt hlt⟩

/-! ## What is configured -/

theorem timeout_of_counts (h : env.Counts "SYSMUTEX_TIMEOUT_SECS" n) :
    env.timeout = .ofSeconds n := by
  simp only [timeout, number?_eq_some_iff.2 h]

theorem timeout_of_not_counts (h : ∀ n, ¬ env.Counts "SYSMUTEX_TIMEOUT_SECS" n) :
    env.timeout = defaultTimeout := by
  simp only [timeout, number?_eq_none_iff.2 h]

theorem pollInterval_of_counts (h : env.Counts "SYSMUTEX_POLL_MS" n) (hn : 1 ≤ n) :
    env.pollInterval = .ofMillis n := by
  simp only [pollInterval, number?_eq_some_iff.2 h, if_neg (Nat.one_le_iff_ne_zero.1 hn)]

/-- Zero is no pause, however it is written. -/
theorem pollInterval_of_zero (h : ∀ n, env.Counts "SYSMUTEX_POLL_MS" n → n = 0) :
    env.pollInterval = defaultPollInterval := by
  cases hn : env.number? "SYSMUTEX_POLL_MS" with
  | none => simp only [pollInterval, hn]
  | some n =>
    obtain rfl := h n (number?_eq_some_iff.1 hn)
    simp only [pollInterval, hn, if_pos]

theorem lockDir_of_shows (h : env.Shows "SYSMUTEX_DIR" bytes) : env.lockDir = ⟨bytes⟩ := by
  obtain ⟨hget, s, rfl, c, hc, hblank⟩ := h
  have hleft : trim s.toList ≠ [] := fun hnil => by
    rw [trim_eq_nil.1 hnil c hc] at hblank
    cases hblank
  simp only [lockDir, text?_eq_some_iff.2 hget, if_neg hleft]
  rfl

theorem lockDir_of_not_shows (h : ∀ bytes, ¬ env.Shows "SYSMUTEX_DIR" bytes) :
    env.lockDir = env.tempDir := by
  cases htext : env.text? "SYSMUTEX_DIR" with
  | none => simp only [lockDir, htext]
  | some s =>
    have hget := text?_eq_some_iff.1 htext
    have hblank : trim s.toList = [] := by
      rw [trim_eq_nil]
      intro c hc
      by_contra hnot
      exact h _ ⟨hget, s, rfl, c, hc, by simpa using hnot⟩
    simp only [lockDir, htext, if_pos hblank]

/-! ## All settings -/

/-- **What the environment configures.**  The time budget is `n` seconds if its variable holds,
    between blanks, a numeral of `n`, which is below `2^64`, and 20 seconds else.  The pause is
    `n` milliseconds if its variable does so and `n` is not zero, and 150 milliseconds else, so
    it is never zero.  Neither number is too large for a duration.  The lock directory is the
    value of its variable as it stands, if that is a text that is more than blanks, and the
    directory for temporary files else. -/
theorem environment_settings (env : Environment) :
    (∀ n, env.Counts "SYSMUTEX_TIMEOUT_SECS" n →
      (AcquireOptions.ofEnvironment env).timeout = .ofSeconds n ∧
      ∃ w : UInt64, w.toNat = n ∧ (Duration.Words.ofSeconds w).length = .ofSeconds n) ∧
    ((∀ n, ¬ env.Counts "SYSMUTEX_TIMEOUT_SECS" n) →
      (AcquireOptions.ofEnvironment env).timeout = .ofSeconds 20) ∧
    (∀ n, env.Counts "SYSMUTEX_POLL_MS" n → 1 ≤ n →
      (AcquireOptions.ofEnvironment env).pollInterval = .ofMillis n ∧
      ∃ w : UInt64, w.toNat = n ∧ (Duration.Words.ofMillis w).length = .ofMillis n) ∧
    ((∀ n, env.Counts "SYSMUTEX_POLL_MS" n → n = 0) →
      (AcquireOptions.ofEnvironment env).pollInterval = .ofMillis 150) ∧
    0 < (AcquireOptions.ofEnvironment env).pollInterval ∧
    (AcquireOptions.ofEnvironment env).checkReentrant = true ∧
    (AcquireOptions.ofEnvironment env).lockDir = none ∧
    (∀ bytes, env.Shows "SYSMUTEX_DIR" bytes → env.lockDir = ⟨bytes⟩) ∧
    ((∀ bytes, ¬ env.Shows "SYSMUTEX_DIR" bytes) → env.lockDir = env.tempDir) := by
  refine ⟨fun n h => ⟨timeout_of_counts h, ?_⟩, timeout_of_not_counts,
    fun n h hn => ⟨pollInterval_of_counts h hn, ?_⟩, pollInterval_of_zero, env.pollInterval_pos,
    rfl, rfl, fun _ => lockDir_of_shows, lockDir_of_not_shows⟩
  · obtain ⟨w, rfl⟩ := h.exists_word
    exact ⟨w, rfl, Duration.Words.length_ofSeconds w⟩
  · obtain ⟨w, rfl⟩ := h.exists_word
    exact ⟨w, rfl, Duration.Words.length_ofMillis w⟩

/-- A budget with a sign, zeros and blanks; a pause of zero in disguise; a directory between
    blanks. -/
def disguised : Environment :=
  [("SYSMUTEX_TIMEOUT_SECS", Utf8.encode "\t+007 "), ("SYSMUTEX_POLL_MS", Utf8.encode " +000"),
    ("SYSMUTEX_DIR", Utf8.encode " d ")]

/-- A budget just too large, the greatest pause, and a directory that is no text. -/
def extreme : Environment :=
  [("SYSMUTEX_TIMEOUT_SECS", Utf8.encode "18446744073709551616"),
    ("SYSMUTEX_POLL_MS", Utf8.encode "18446744073709551615"), ("SYSMUTEX_DIR", [0xFF])]

/-- Every way in which a variable counts, or does not. -/
theorem environment_settings_at_limits :
    (AcquireOptions.ofEnvironment disguised).timeout = .ofSeconds 7 ∧
    (AcquireOptions.ofEnvironment disguised).pollInterval = .ofMillis 150 ∧
    disguised.lockDir = ⟨Utf8.encode " d "⟩ ∧
    (AcquireOptions.ofEnvironment extreme).timeout = .ofSeconds 20 ∧
    (AcquireOptions.ofEnvironment extreme).pollInterval = .ofMillis 18446744073709551615 ∧
    extreme.lockDir = extreme.tempDir := by
  obtain ⟨hbudget, -, -, hzero, -, -, -, hdir, -⟩ := environment_settings disguised
  obtain ⟨-, hlarge, hpause, -, -, -, -, -, hnone⟩ := environment_settings extreme
  refine ⟨(hbudget 7 ?_).1, hzero fun n hn => ?_, hdir _ ?_, hlarge ?_, (hpause _ ?_ ?_).1,
    hnone fun bytes hshows => ?_⟩
  · exact number?_eq_some_iff.1 (by decide +kernel)
  · have hread : disguised.number? "SYSMUTEX_POLL_MS" = some 0 := by decide +kernel
    exact Option.some.inj ((number?_eq_some_iff.2 hn).symm.trans hread)
  · exact ⟨rfl, " d ", rfl, 'd', by decide, by decide⟩
  · exact number?_eq_none_iff.1 (by decide +kernel)
  · exact number?_eq_some_iff.1 (by decide +kernel)
  · decide
  · obtain ⟨hget, s, rfl, -⟩ := hshows
    have hnot : extreme.text? "SYSMUTEX_DIR" = none := by decide +kernel
    cases hnot.symm.trans (text?_eq_some_iff.2 hget)

end Environment

end NamedMutex
