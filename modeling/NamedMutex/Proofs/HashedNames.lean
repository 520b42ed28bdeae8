/-
  Names made by hashing.

  The name that is made for a text is the prefix, and after it the digits of the first bytes of
  the digest of the text.  These can be read back, so a name tells these bytes and the prefix,
  and nothing else.

  * `bytesOfHex?` reads digits; `bytesOfHex?_hexDigits`: it undoes the writing of them;
  * `Utf8.slice?_ascii`: cutting a text of ASCII characters within its length never fails;
  * `hashed_names` is the main statement.
-/
import NamedMutex.Name
import NamedMutex.Proofs.Stamps

namespace NamedMutex

/-! ## Digits -/

/-- The lowercase hexadecimal digits, each at the place of its value. -/
def hexAlphabet : List Char := "0123456789abcdef".toList

/-- The bytes that hexadecimal digits spell, two for each. -/
def bytesOfHex? : List Char → Option Bytes
  | [] => some []
  | [_] => none
  | c :: d :: rest => do
    let high ← hexAlphabet.idxOf? c
    let low ← hexAlphabet.idxOf? d
    let bytes ← bytesOfHex? rest
    pure (UInt8.ofNat (16 * high + low) :: bytes)

theorem idxOf?_digitChar {n : Nat} (h : n < 16) :
    hexAlphabet.idxOf? (Nat.digitChar n) = some n := by
  have hall : ∀ n < 16, hexAlphabet.idxOf? (Nat.digitChar n) = some n := by decide
  exact hall n h

theorem digitChar_mem_hexAlphabet {n : Nat} (h : n < 16) : Nat.digitChar n ∈ hexAlphabet := by
  have hfound := idxOf?_digitChar h
  exact List.isSome_idxOf?.1 (by rw [hfound, Option.isSome_some])

section Digits
variable {b : UInt8} {bs cs : Bytes}

theorem mem_hexAlphabet_of_mem_hexDigits {c : Char} (h : c ∈ hexDigits bs) : c ∈ hexAlphabet := by
  obtain ⟨b, -, hc⟩ := List.mem_flatMap.1 h
  have hb := b.toNat_lt
  simp only [hexByte, List.mem_cons, List.not_mem_nil, or_false] at hc
  rcases hc with rfl | rfl
  · exact digitChar_mem_hexAlphabet (by omega)
  · exact digitChar_mem_hexAlphabet (by omega)

/-- **The bytes are read back from their digits.** -/
theorem bytesOfHex?_hexDigits (bs : Bytes) : bytesOfHex? (hexDigits bs) = some bs := by
  induction bs with
  | nil => rfl
  | cons b bs ih =>
    have hb := b.toNat_lt
    have hhigh : hexAlphabet.idxOf? (Nat.digitChar (b.toNat / 16)) = some (b.toNat / 16) :=
      idxOf?_digitChar (by omega)
    have hlow : hexAlphabet.idxOf? (Nat.digitChar (b.toNat % 16)) = some (b.toNat % 16) :=
      idxOf?_digitChar (by omega)
    have hbyte : UInt8.ofNat (16 * (b.toNat / 16) + b.toNat % 16) = b := by
      rw [Nat.div_add_mod, UInt8.ofNat_toNat]
    have hdigits : hexDigits (b :: bs) =
        Nat.digitChar (b.toNat / 16) :: Nat.digitChar (b.toNat % 16) :: hexDigits bs := rfl
    simp only [hdigits, bytesOfHex?, hhigh, hlow, ih, Option.bind_eq_bind, Option.bind_some, hbyte]
    rfl

theorem hexDigits_injective (h : hexDigits bs = hexDigits cs) : bs = cs := by
  have hread := bytesOfHex?_hexDigits bs
  rw [h, bytesOfHex?_hexDigits] at hread
  exact (Option.some.inj hread).symm

theorem take_hexDigits (bs : Bytes) (n : Nat) :
    (hexDigits bs).take (2 * n) = hexDigits (bs.take n) := by
  induction bs generalizing n with
  | nil => simp [hexDigits]
  | cons b bs ih =>
    cases n with
    | zero => rfl
    | succ n =>
      have hdigits : ∀ bs, hexDigits (b :: bs) = hexByte b ++ hexDigits bs := fun _ => rfl
      rw [List.take_succ_cons, hdigits, hdigits, ← ih n, Nat.mul_succ]
      rfl

end Digits

/-! ## Cuts -/

namespace Utf8

/-- **A text of ASCII characters may be cut anywhere** within its length. -/
theorem slice?_ascii {cs : List Char} (h : ∀ c ∈ cs, IsAscii c) {n : Nat} (hn : n ≤ cs.length) :
    slice? cs 0 n = some (cs.take n) := by
  simp only [slice?, drop?, Option.bind_some, Nat.sub_zero]
  induction cs generalizing n with
  | nil =>
    obtain rfl : n = 0 := Nat.le_zero.1 hn
    rfl
  | cons c cs ih =>
    cases n with
    | zero => rfl
    | succ n =>
      have hsize : c.utf8Size = 1 := (h c (by simp)).utf8Size
      have hrest := ih (fun d hd => h d (by simp [hd])) (Nat.le_of_succ_le_succ hn)
      simp [take?, hsize, hrest]

end Utf8

theorem isAscii_of_mem_hexAlphabet {c : Char} (h : c ∈ hexAlphabet) : Utf8.IsAscii c := by
  have hall : hexAlphabet.all (fun c => c.toNat < 128) = true := by decide
  have hsmall : c.toNat < 128 := by simpa using List.all_eq_true.1 hall c h
  exact hsmall

/-! ## Names -/

/-- A name for an arbitrary text, step by step: the digits of the whole digest are cut after so
    many bytes, which would fail within a character or beyond the end. -/
def hashedName? (raw first : String) : Option String := do
  let digits ← Utf8.slice? (hexDigits (Sha224.digest (Utf8.encode raw))) 0 16
  pure (String.ofList (first.toList ++ digits))

/-- The digits of the digest, cut after sixteen bytes, are those of its first eight bytes. -/
theorem slice?_hexDigits_digest (raw : String) :
    Utf8.slice? (hexDigits (Sha224.digest (Utf8.encode raw))) 0 16 = some (token raw) := by
  rw [Utf8.slice?_ascii, token, ← take_hexDigits]
  · rfl
  · exact fun c hc => isAscii_of_mem_hexAlphabet (mem_hexAlphabet_of_mem_hexDigits hc)
  · simp [Sha224.length_digest]

theorem toList_hashedName (raw first : String) :
    (hashedName raw first).toList = first.toList ++ token raw :=
  String.toList_ofList

theorem token_eq_iff {raw raw' : String} : token raw = token raw' ↔
    (Sha224.digest (Utf8.encode raw)).take 8 = (Sha224.digest (Utf8.encode raw')).take 8 :=
  ⟨hexDigits_injective, congrArg hexDigits⟩

theorem isValidName_hashedName (raw first : String) :
    IsValidName (hashedName raw first) ↔ ∀ c ∈ first.toList, c ∉ forbiddenChars := by
  have hne : first.toList ++ token raw ≠ [] := by
    intro hnil
    have hlength := congrArg List.length hnil
    rw [List.length_append, length_token] at hlength
    simp at hlength
  rw [IsValidName, toList_hashedName, List.forall_mem_append]
  exact ⟨fun h => h.2.1, fun h => ⟨hne, h, token_not_forbidden raw⟩⟩

/-- **Hashed names.**  A name is made for every text and every prefix, and the cut of the digest
    never fails: it is the prefix, and after it sixteen lowercase hexadecimal digits, which
    depend on the text alone and spell the first eight of the 28 bytes of its digest.  So it is
    valid exactly if no character of the prefix is forbidden; two prefixes give one name only
    if they are equal, and two texts exactly if these bytes of their digests are. -/
theorem hashed_names (raw first : String) :
    hashedName? raw first = some (hashedName raw first) ∧
    (hashedName raw first).toList = first.toList ++ token raw ∧
    (token raw).length = 16 ∧ (∀ c ∈ token raw, c ∈ hexAlphabet) ∧
    (Sha224.digest (Utf8.encode raw)).length = 28 ∧
    bytesOfHex? (token raw) = some ((Sha224.digest (Utf8.encode raw)).take 8) ∧
    (IsValidName (hashedName raw first) ↔ ∀ c ∈ first.toList, c ∉ forbiddenChars) ∧
    (∀ first', hashedName raw first = hashedName raw first' ↔ first = first') ∧
    ∀ raw', hashedName raw first = hashedName raw' first ↔
      (Sha224.digest (Utf8.encode raw)).take 8 = (Sha224.digest (Utf8.encode raw')).take 8 := by
  refine ⟨?_, toList_hashedName raw first, length_token raw,
    fun c => mem_hexAlphabet_of_mem_hexDigits, Sha224.length_digest _, bytesOfHex?_hexDigits _,
    isValidName_hashedName raw first, fun first' => ?_, fun raw' => ?_⟩
  · rw [hashedName?, slice?_hexDigits_digest]
    rfl
  · rw [← String.toList_inj, toList_hashedName, toList_hashedName, List.append_cancel_right_eq,
      String.toList_inj]
  · rw [← String.toList_inj, toList_hashedName, toList_hashedName, List.append_cancel_left_eq,
      token_eq_iff]

example : hashedName? "my/snth\\nsth" "my_" = some "my_f9c932bf450ef164" := by decide +kernel

end NamedMutex
