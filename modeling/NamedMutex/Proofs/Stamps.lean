/-
  Stamps are read back as they were written.

  * `Utf8.decode?_encode_ascii`: a text of ASCII characters is decoded from its
    bytes;
  * `Stamp.parse?_ofNat`: the number of a process is parsed from its digits, with
    or without blanks behind them;
  * `Stamp.isSome_decode?_prefix`: what a torn write leaves of a stamp is text.
-/
import NamedMutex.Stamp

namespace NamedMutex

/-- The numbers that processes have. -/
def Pid.IsProper (pid : Pid) : Prop := 0 < pid ∧ pid < Pid.limit

instance (pid : Pid) : Decidable pid.IsProper := inferInstanceAs (Decidable (_ ∧ _))

theorem trim_append {cs bs : List Char} (hne : cs ≠ []) (hc : ∀ c ∈ cs, isBlank c = false)
    (hb : ∀ c ∈ bs, isBlank c = true) : trim (cs ++ bs) = cs := by
  have hfront : ∀ {ds es : List Char}, ds ≠ [] → (∀ c ∈ ds, isBlank c = false) →
      (ds ++ es).dropWhile isBlank = ds ++ es := by
    intro ds es hne hds
    cases ds with
    | nil => exact absurd rfl hne
    | cons d ds => simp [hds d (by simp)]
  have hback : ∀ {ds es : List Char}, (∀ c ∈ ds, isBlank c = true) →
      (ds ++ es).dropWhile isBlank = es.dropWhile isBlank := by
    intro ds es hds
    induction ds with
    | nil => rfl
    | cons d ds ih =>
      rw [List.cons_append, List.dropWhile_cons_of_pos (hds d (by simp))]
      exact ih fun c hc => hds c (by simp [hc])
  unfold trim
  rw [hfront hne hc, List.reverse_append, hback (by simpa using hb),
    ← List.append_nil cs.reverse, hfront (by simpa using hne) (by simpa using hc),
    List.append_nil, List.reverse_reverse]

theorem isBlank_of_isDigit {c : Char} (h : c.isDigit = true) : isBlank c = false := by
  have hc : 48 ≤ c.toNat ∧ c.toNat ≤ 57 := by
    simpa [Char.isDigit, UInt32.le_iff_toNat_le] using h
  simp [isBlank, Blank.ranges]
  omega

namespace Utf8

/-- The characters that one byte below `80` spells. -/
def IsAscii (c : Char) : Prop := c.toNat < 128

theorem isAscii_of_isDigit {c : Char} (h : c.isDigit = true) : IsAscii c := by
  have hc : 48 ≤ c.toNat ∧ c.toNat ≤ 57 := by
    simpa [Char.isDigit, UInt32.le_iff_toNat_le] using h
  unfold IsAscii
  omega

theorem IsAscii.utf8Size {c : Char} (h : IsAscii c) : c.utf8Size = 1 := by
  have hval : c.val.toNat = c.toNat := rfl
  rw [Char.utf8Size_eq_one_iff, UInt32.le_iff_toNat_le, hval]
  exact Nat.le_of_lt_succ h

section Ascii
variable {cs : List Char} (h : ∀ c ∈ cs, IsAscii c)
include h

theorem encode_ascii : encode (String.ofList cs) = cs.map fun c => UInt8.ofNat c.toNat := by
  simp only [encode, String.toList_ofList]
  induction cs with
  | nil => rfl
  | cons c cs ih =>
    have hsize : c.utf8Size = 1 := (h c (by simp)).utf8Size
    rw [List.flatMap_cons, String.utf8EncodeChar_eq_singleton hsize, ih fun d hd => h d (by simp [hd])]
    rfl

theorem encode_lt : ∀ b ∈ encode (String.ofList cs), b < 0x80 := by
  intro b hb
  rw [encode_ascii h] at hb
  obtain ⟨c, hc, rfl⟩ := List.mem_map.1 hb
  have hlt : c.toNat < 128 := h c hc
  rw [UInt8.lt_iff_toNat_lt, UInt8.toNat_ofNat']
  exact Nat.lt_of_le_of_lt (Nat.mod_le _ _) hlt

end Ascii

theorem decode?_ascii {bs : Bytes} (h : ∀ b ∈ bs, b < 0x80) :
    decode? bs = some (String.ofList (bs.map fun b => Char.ofNat b.toNat)) := by
  have hmap : ∀ l : Bytes, (l.map fun b => some (Char.ofNat b.toNat)).mapM id =
      some (l.map fun b => Char.ofNat b.toNat) := by
    intro l
    induction l with
    | nil => rfl
    | cons b l ih => simp [ih]
  simp only [decode?, pieces_ascii h, hmap, Option.map_some]

/-- **A text of ASCII characters is decoded from its bytes.** -/
theorem decode?_encode_ascii {cs : List Char} (h : ∀ c ∈ cs, IsAscii c) :
    decode? (encode (String.ofList cs)) = some (String.ofList cs) := by
  rw [decode?_ascii (encode_lt h), encode_ascii h, List.map_map]
  congr 2
  refine (List.map_congr_left fun c hc => ?_).trans (List.map_id cs)
  have hlt : c.toNat < 128 := h c hc
  show Char.ofNat (UInt8.ofNat c.toNat).toNat = c
  rw [UInt8.toNat_ofNat', Nat.mod_eq_of_lt (by omega), Char.ofNat_toNat]

end Utf8

namespace Numeral

theorem isDigit_ofNat (n : Nat) : ∀ c ∈ ofNat n, c.isDigit = true :=
  fun _ hc => Nat.isDigit_of_mem_toDigits (by decide) (by decide) hc

theorem value_ofNat (n : Nat) : value (ofNat n) = n := Nat.ofDigitChars_ten_toDigits

theorem parse?_ofNat {limit n : Nat} (h : n < limit) : parse? limit (ofNat n) = some n := by
  have hsign : unsigned (ofNat n) = ofNat n := by
    unfold unsigned
    split
    · rename_i ds hds
      have hplus := isDigit_ofNat n '+' (by simp [hds])
      exact absurd hplus (by decide)
    · rfl
  rw [parse?, hsign, digits?_eq, value_ofNat, if_pos]
  exact ⟨Nat.toDigits_ne_nil, List.all_eq_true.2 (isDigit_ofNat n), h⟩

end Numeral

namespace Stamp

variable {pid : Pid}

/-- **The number of a process is read from its digits**, whatever blanks follow. -/
theorem parse?_ofNat (hpos : 0 < pid) (hlt : pid < limit) {bs : List Char}
    (hb : ∀ c ∈ bs, isBlank c = true) :
    parse? (String.ofList (Numeral.ofNat pid ++ bs)) = some pid := by
  have htrim : trim (Numeral.ofNat pid ++ bs) = Numeral.ofNat pid :=
    trim_append Nat.toDigits_ne_nil (fun c hc => isBlank_of_isDigit (Numeral.isDigit_ofNat pid c hc))
      hb
  simp only [parse?, Numeral.parseTrimmed?, String.toList_ofList, htrim, Numeral.parse?_ofNat hlt]
  simp [Nat.pos_iff_ne_zero.1 hpos]

theorem isAscii_digits : ∀ c ∈ Numeral.ofNat pid, Utf8.IsAscii c :=
  fun c hc => Utf8.isAscii_of_isDigit (Numeral.isDigit_ofNat pid c hc)

theorem isAscii_text : ∀ c ∈ Numeral.ofNat pid ++ ['\n'], Utf8.IsAscii c := by
  intro c hc
  rcases List.mem_append.1 hc with hc | hc
  · exact isAscii_digits c hc
  · rw [List.mem_singleton.1 hc]
    exact (by decide : '\n'.toNat < 128)

theorem text_eq : text pid = Utf8.encode (String.ofList (Numeral.ofNat pid ++ ['\n'])) := by
  rw [Utf8.encode_ascii isAscii_text, List.map_append, text, digits,
    Utf8.encode_ascii isAscii_digits]
  rfl

/-- The owner that a content names. -/
def Names (bytes : Bytes) (pid : Pid) : Prop :=
  ∃ s, Utf8.decode? bytes = some s ∧ parse? s = some pid

theorem names_digits (hpos : 0 < pid) (hlt : pid < limit) : Names (digits pid) pid := by
  refine ⟨_, Utf8.decode?_encode_ascii isAscii_digits, ?_⟩
  rw [← List.append_nil (Numeral.ofNat pid)]
  exact parse?_ofNat hpos hlt nofun

theorem names_text (hpos : 0 < pid) (hlt : pid < limit) : Names (text pid) pid := by
  rw [text_eq]
  refine ⟨_, Utf8.decode?_encode_ascii isAscii_text, parse?_ofNat hpos hlt fun c hc => ?_⟩
  rw [List.mem_singleton.1 hc]
  decide

/-- **What is left of a stamp is text**, wherever it broke off. -/
theorem isSome_decode?_prefix {bytes : Bytes} (h : bytes <+: text pid) :
    (Utf8.decode? bytes).isSome = true := by
  rw [Utf8.decode?_ascii, Option.isSome_some]
  intro b hb
  have hmem := h.subset hb
  rw [text_eq] at hmem
  exact Utf8.encode_lt isAscii_text b hmem

theorem Names.unique {bytes : Bytes} {p q : Pid} (hp : Names bytes p)
    (hq : Names bytes q) : p = q := by
  obtain ⟨s, hs, hp⟩ := hp
  obtain ⟨s', hs', hq⟩ := hq
  rw [hs] at hs'
  cases hs'
  rw [hp] at hq
  exact Option.some.inj hq

theorem lt_limit {pid : Pid} (h : pid < Pid.limit) : pid < limit :=
  Nat.lt_trans h (by decide)

end Stamp

end NamedMutex
