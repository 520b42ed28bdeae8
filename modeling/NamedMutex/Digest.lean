/-
  The SHA-224 digest (FIPS 180-4).

  A message is padded to blocks of 64 bytes; each block is folded into eight
  32-bit words, and the first seven of them are the digest.

  * `Sha224.digest` is the digest, always 28 bytes (`length_digest`); padding
    completes the last block (`length_padding_mod`);
  * `hexDigits` spells bytes by two digits each.
-/
import NamedMutex.Text.Utf8

namespace NamedMutex

namespace Sha224

/-- The first 32 bits of the fractional parts of the cube roots of the first
    64 primes. -/
def constants : List UInt32 :=
  [0x428a2f98, 0x71374491, 0xb5c0fbcf, 0xe9b5dba5, 0x3956c25b, 0x59f111f1, 0x923f82a4, 0xab1c5ed5,
    0xd807aa98, 0x12835b01, 0x243185be, 0x550c7dc3, 0x72be5d74, 0x80deb1fe, 0x9bdc06a7, 0xc19bf174,
    0xe49b69c1, 0xefbe4786, 0x0fc19dc6, 0x240ca1cc, 0x2de92c6f, 0x4a7484aa, 0x5cb0a9dc, 0x76f988da,
    0x983e5152, 0xa831c66d, 0xb00327c8, 0xbf597fc7, 0xc6e00bf3, 0xd5a79147, 0x06ca6351, 0x14292967,
    0x27b70a85, 0x2e1b2138, 0x4d2c6dfc, 0x53380d13, 0x650a7354, 0x766a0abb, 0x81c2c92e, 0x92722c85,
    0xa2bfe8a1, 0xa81a664b, 0xc24b8b70, 0xc76c51a3, 0xd192e819, 0xd6990624, 0xf40e3585, 0x106aa070,
    0x19a4c116, 0x1e376c08, 0x2748774c, 0x34b0bcb5, 0x391c0cb3, 0x4ed8aa4a, 0x5b9cca4f, 0x682e6ff3,
    0x748f82ee, 0x78a5636f, 0x84c87814, 0x8cc70208, 0x90befffa, 0xa4506ceb, 0xbef9a3f7, 0xc67178f2]

/-- The eight words carried from block to block. -/
structure Chain where
  a : UInt32
  b : UInt32
  c : UInt32
  d : UInt32
  e : UInt32
  f : UInt32
  g : UInt32
  h : UInt32

/-- The chain before the first block. -/
def Chain.initial : Chain :=
  ⟨0xc1059ed8, 0x367cd507, 0x3070dd17, 0xf70e5939, 0xffc00b31, 0x68581511, 0x64f98fa7, 0xbefa4fa4⟩

def rotateRight (x n : UInt32) : UInt32 :=
  (x >>> n) ||| (x <<< (32 - n))

/-- One of the 64 rounds, with its constant and its word of the schedule. -/
def Chain.round (s : Chain) (k w : UInt32) : Chain :=
  let s1 := rotateRight s.e 6 ^^^ rotateRight s.e 11 ^^^ rotateRight s.e 25
  let choice := (s.e &&& s.f) ^^^ ((~~~s.e) &&& s.g)
  let t1 := s.h + s1 + choice + k + w
  let s0 := rotateRight s.a 2 ^^^ rotateRight s.a 13 ^^^ rotateRight s.a 22
  let majority := (s.a &&& s.b) ^^^ (s.a &&& s.c) ^^^ (s.b &&& s.c)
  ⟨t1 + (s0 + majority), s.a, s.b, s.c, s.d + t1, s.e, s.f, s.g⟩

def Chain.add (s t : Chain) : Chain :=
  ⟨s.a + t.a, s.b + t.b, s.c + t.c, s.d + t.d, s.e + t.e, s.f + t.f, s.g + t.g, s.h + t.h⟩

/-- The word that follows sixteen words of the schedule, the latest first. -/
def nextWord (latest : List UInt32) : UInt32 :=
  let w (i : Nat) := latest.getD (i - 1) 0
  let s0 := rotateRight (w 15) 7 ^^^ rotateRight (w 15) 18 ^^^ (w 15 >>> 3)
  let s1 := rotateRight (w 2) 17 ^^^ rotateRight (w 2) 19 ^^^ (w 2 >>> 10)
  w 16 + s0 + w 7 + s1

/-- The words of a block extended by `n` more, the latest first. -/
def schedule (block : List UInt32) : Nat → List UInt32
  | 0 => block.reverse
  | n + 1 =>
    let words := schedule block n
    nextWord words :: words

/-- Folds a block of sixteen words into the chain. -/
def Chain.absorb (s : Chain) (block : List UInt32) : Chain :=
  s.add ((constants.zip (schedule block 48).reverse).foldl (fun t (k, w) => t.round k w) s)

/-- The number whose digits to the base 256 are `bs`. -/
def bigEndian (bs : Bytes) : UInt32 :=
  bs.foldl (fun n b => (n <<< 8) ||| b.toUInt32) 0

/-- The lowest `n` bytes of a number, the highest first. -/
def toBigEndian (n x : Nat) : Bytes :=
  (List.range n).reverse.map fun i => UInt8.ofNat (x >>> (8 * i))

/-- What follows a message of `n` bytes: a one bit, zeros, and its length in
    bits as eight bytes, up to a multiple of 64 bytes. -/
def padding (n : Nat) : Bytes :=
  0x80 :: List.replicate ((119 - n % 64) % 64) 0 ++ toBigEndian 8 (8 * n)

/-- Cuts a list into parts of `n`; a shorter rest is dropped. -/
def chunks {α : Type} (n : Nat) : Nat → List α → List (List α)
  | 0, _ => []
  | k + 1, l => l.take n :: chunks n k (l.drop n)

/-- The chain after all blocks of a padded message. -/
def absorbAll (padded : Bytes) : Chain :=
  (chunks 64 (padded.length / 64) padded).foldl
    (fun s block => s.absorb ((chunks 4 16 block).map bigEndian)) .initial

/-- The digest of a message. -/
def digest (message : Bytes) : Bytes :=
  let s := absorbAll (message ++ padding message.length)
  [s.a, s.b, s.c, s.d, s.e, s.f, s.g].flatMap fun w => toBigEndian 4 w.toNat

/-- A padded message is made of whole blocks. -/
theorem length_padding_mod (n : Nat) : (n + (padding n).length) % 64 = 0 := by
  simp [padding, toBigEndian]
  omega

@[simp] theorem length_toBigEndian (n x : Nat) : (toBigEndian n x).length = n := by
  simp [toBigEndian]

/-- A digest has 28 bytes. -/
theorem length_digest (message : Bytes) : (digest message).length = 28 := by
  simp [digest]

end Sha224

/-- The two lowercase hexadecimal digits of a byte. -/
def hexByte (b : UInt8) : List Char :=
  [Nat.digitChar (b.toNat / 16), Nat.digitChar (b.toNat % 16)]

/-- Bytes spelled by two digits each. -/
def hexDigits (bs : Bytes) : List Char :=
  bs.flatMap hexByte

@[simp] theorem length_hexDigits (bs : Bytes) : (hexDigits bs).length = 2 * bs.length := by
  induction bs with
  | nil => rfl
  | cons b bs ih =>
    simp only [hexDigits, List.flatMap_cons, List.length_append] at *
    simp [ih, hexByte]
    omega

end NamedMutex
