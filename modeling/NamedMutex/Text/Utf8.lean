/-
  UTF-8 as a map between characters and bytes.

  Paths, environment values and file contents are byte sequences; names and
  messages are texts.  This module holds the two directions between them.

  * `pieces` cuts a byte sequence into characters and ill-formed parts, each
    ill-formed part as long as it can be before a byte rules it out;
  * `decode?` reads a text and refuses ill-formed bytes, `decodeLossy` puts
    U+FFFD where they stood;
  * `encode` writes a text;
  * `slice?` cuts a text at byte offsets, which must not lie inside a character.
-/

namespace NamedMutex

/-- A byte sequence: a path, an environment value or the content of a file. -/
abbrev Bytes := List UInt8

namespace Utf8

/-- The bytes of a text. -/
def encode (s : String) : Bytes :=
  s.toList.flatMap String.utf8EncodeChar

/-- What the first byte of a character announces: how many bytes follow, the
    range of the first of them, and the leading bits of the code point. -/
structure Lead where
  more : Nat
  low : UInt8
  high : UInt8
  bits : UInt8

/-- The first bytes of characters that need more than one byte.  The narrower
    ranges after `E0`, `ED`, `F0` and `F4` exclude long forms, surrogates and
    code points above `10FFFF`. -/
def lead? (b : UInt8) : Option Lead :=
  if b < 0xC2 then none
  else if b < 0xE0 then some ⟨1, 0x80, 0xBF, b &&& 0x1F⟩
  else if b = 0xE0 then some ⟨2, 0xA0, 0xBF, b &&& 0x0F⟩
  else if b = 0xED then some ⟨2, 0x80, 0x9F, b &&& 0x0F⟩
  else if b < 0xF0 then some ⟨2, 0x80, 0xBF, b &&& 0x0F⟩
  else if b = 0xF0 then some ⟨3, 0x90, 0xBF, b &&& 0x07⟩
  else if b < 0xF4 then some ⟨3, 0x80, 0xBF, b &&& 0x07⟩
  else if b = 0xF4 then some ⟨3, 0x80, 0x8F, b &&& 0x07⟩
  else none

/-- A code point extended by the six bits of a continuation byte. -/
def extend (code : Nat) (b : UInt8) : Nat :=
  code * 64 + (b &&& 0x3F).toNat

/-- Reads `more` continuation bytes, the first within `low` and `high`.  The
    second component counts the bytes used, also when the character breaks off. -/
def continuation (code : Nat) (low high : UInt8) : Nat → Bytes → Option Char × Nat
  | 0, _ => (some (Char.ofNat code), 0)
  | _ + 1, [] => (none, 0)
  | more + 1, b :: rest =>
    if low ≤ b ∧ b ≤ high then
      let (c, used) := continuation (extend code b) 0x80 0xBF more rest
      (c, used + 1)
    else (none, 0)

/-- The character or ill-formed part that starts with `b`, with the number of
    bytes of `rest` that belong to it. -/
def front (b : UInt8) (rest : Bytes) : Option Char × Nat :=
  if b < 0x80 then (some (Char.ofNat b.toNat), 0)
  else match lead? b with
    | none => (none, 0)
    | some l => continuation l.bits.toNat l.low l.high l.more rest

/-- The pieces of a byte sequence whose first `skip` bytes are accounted for. -/
def piecesFrom : Nat → Bytes → List (Option Char)
  | _, [] => []
  | skip + 1, _ :: rest => piecesFrom skip rest
  | 0, b :: rest =>
    let (c, used) := front b rest
    c :: piecesFrom used rest

/-- The characters of a byte sequence, `none` for each ill-formed part. -/
def pieces (bs : Bytes) : List (Option Char) :=
  piecesFrom 0 bs

/-- The text that a byte sequence spells, if it is well formed. -/
def decode? (bs : Bytes) : Option String :=
  ((pieces bs).mapM id).map String.ofList

/-- The text of a byte sequence with U+FFFD for every ill-formed part. -/
def decodeLossy (bs : Bytes) : String :=
  String.ofList ((pieces bs).map (·.getD '\uFFFD'))

/-- What follows the first `n` bytes of a text. -/
def drop? : (n : Nat) → List Char → Option (List Char)
  | 0, cs => some cs
  | _ + 1, [] => none
  | n + 1, c :: cs => if c.utf8Size ≤ n + 1 then drop? (n + 1 - c.utf8Size) cs else none

/-- The first `n` bytes of a text. -/
def take? : (n : Nat) → List Char → Option (List Char)
  | 0, _ => some []
  | _ + 1, [] => none
  | n + 1, c :: cs =>
    if c.utf8Size ≤ n + 1 then (take? (n + 1 - c.utf8Size) cs).map (c :: ·) else none

/-- The part of a text between two byte offsets; none if one of them lies inside
    a character. -/
def slice? (cs : List Char) (low high : Nat) : Option (List Char) :=
  (drop? low cs).bind (take? (high - low))

/-- A byte below `80` is a character of its own. -/
theorem front_ascii {b : UInt8} (h : b < 0x80) (rest : Bytes) :
    front b rest = (some (Char.ofNat b.toNat), 0) := by
  simp [front, h]

/-- A byte sequence below `80` is read byte by byte. -/
theorem pieces_ascii {bs : Bytes} (h : ∀ b ∈ bs, b < 0x80) :
    pieces bs = bs.map fun b => some (Char.ofNat b.toNat) := by
  unfold pieces
  induction bs with
  | nil => rfl
  | cons b rest ih =>
    have hb := h b (by simp)
    simp only [piecesFrom, front_ascii hb, List.map_cons]
    rw [ih fun c hc => h c (by simp [hc])]

end Utf8

end NamedMutex
