/-
  Mutex names.

  A name becomes a file name, so the characters that some file system gives a
  meaning are forbidden in it.  A text of any other kind is turned into a name
  by hashing.

  * `IsValidName` holds of the names that may be used;
  * `hashedName` derives a name from a text; `token_not_forbidden` says that
    hashing itself adds no forbidden character.
-/
import NamedMutex.Digest

namespace NamedMutex

/-- The characters that no name may contain. -/
def forbiddenChars : List Char :=
  ['*', '?', '"', '<', '>', '|', '/', '\\', ':', '\x00']

/-- A name that can stand for a mutex: not empty, without forbidden characters. -/
def IsValidName (name : String) : Prop :=
  name.toList ≠ [] ∧ ∀ c ∈ name.toList, c ∉ forbiddenChars

instance (name : String) : Decidable (IsValidName name) :=
  @instDecidableAnd _ _ inferInstance (List.decidableBAll (· ∉ forbiddenChars) name.toList)

/-- How many bytes of a digest a hashed name spells. -/
def tokenBytes : Nat := 8

/-- The hashed part of a name: the first bytes of the digest of `raw`. -/
def token (raw : String) : List Char :=
  hexDigits ((Sha224.digest (Utf8.encode raw)).take tokenBytes)

/-- A name for an arbitrary text: `first` followed by sixteen hexadecimal digits
    that depend on `raw` only. -/
def hashedName (raw first : String) : String :=
  String.ofList (first.toList ++ token raw)

@[simp] theorem length_token (raw : String) : (token raw).length = 16 := by
  simp [token, Sha224.length_digest, tokenBytes]

/-- No digit of a byte is a forbidden character. -/
theorem hexByte_not_forbidden (b : UInt8) : ∀ c ∈ hexByte b, c ∉ forbiddenChars := by
  have hdigit : ∀ n < 16, Nat.digitChar n ∉ forbiddenChars := by decide
  have hb := b.toNat_lt
  intro c hc
  simp only [hexByte, List.mem_cons, List.not_mem_nil, or_false] at hc
  rcases hc with rfl | rfl
  · exact hdigit _ (by omega)
  · exact hdigit _ (by omega)

theorem token_not_forbidden (raw : String) : ∀ c ∈ token raw, c ∉ forbiddenChars := by
  intro c hc
  obtain ⟨b, _, hb⟩ := List.mem_flatMap.1 hc
  exact hexByte_not_forbidden b c hb

end NamedMutex
