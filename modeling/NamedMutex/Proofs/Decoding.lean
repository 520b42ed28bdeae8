/-
  What is decoded.

  A byte sequence is read as a text exactly if it consists of the bytes of the text, so to hold
  text is to be the UTF-8 form of one.  The first byte of a character announces how many follow
  and the range of the next one; the others lie between `80` and `BF`.

  * `Opens` says this of the bytes of one character; `front_eq_some_iff`: such bytes are read,
    and `opens_iff`: they are those that spell the character;
  * `pieces_eq_map_some_iff`: a sequence of characters is read from their bytes;
  * `decode?_eq_some_iff` is the main statement.
-/
import Mathlib.Data.List.Basic
import NamedMutex.Pattern.CharSet
import NamedMutex.Text.Utf8

namespace NamedMutex.Utf8

/-! ## One character -/

/-- Bytes that may continue a character: the first within a range, the others between `80` and
    `BF`. -/
def Continues (low high : UInt8) : Bytes → Prop
  | [] => True
  | b :: bs => low ≤ b ∧ b ≤ high ∧ ∀ d ∈ bs, 0x80 ≤ d ∧ d ≤ 0xBF

/-- The bytes `b :: bs` are a character: one below `80`, or what the first one announces. -/
inductive Opens : UInt8 → Bytes → Char → Prop
  | alone {b : UInt8} : b < 0x80 → Opens b [] (Char.ofNat b.toNat)
  | leading {b : UInt8} {l : Lead} {bs : Bytes} : lead? b = some l → bs.length = l.more →
      Continues l.low l.high bs → Opens b bs (Char.ofNat (bs.foldl extend l.bits.toNat))

section Front
variable {b low high : UInt8} {bs rest : Bytes} {c : Char} {code more used : Nat} {l : Lead}

theorem continues_cons :
    Continues low high (b :: bs) ↔ (low ≤ b ∧ b ≤ high) ∧ Continues 0x80 0xBF bs := by
  cases bs with
  | nil => simp [Continues]
  | cons => simp [Continues, and_assoc]

/-- **How a character is continued**: by so many bytes in their ranges. -/
theorem continuation_eq_some_iff : continuation code low high more rest = (some c, used) ↔
    ∃ bs rest', rest = bs ++ rest' ∧ bs.length = more ∧ used = more ∧ Continues low high bs ∧
      c = Char.ofNat (bs.foldl extend code) := by
  induction more generalizing code low high rest used with
  | zero =>
    simp only [continuation, Prod.mk.injEq, Option.some.injEq]
    constructor
    · rintro ⟨rfl, rfl⟩
      exact ⟨[], rest, rfl, rfl, rfl, trivial, rfl⟩
    · rintro ⟨bs, rest', rfl, hlength, rfl, -, rfl⟩
      obtain rfl := List.length_eq_zero_iff.1 hlength
      exact ⟨rfl, rfl⟩
  | succ more ih =>
    cases rest with
    | nil =>
      simp only [continuation, Prod.mk.injEq, reduceCtorEq, false_and, false_iff]
      rintro ⟨bs, rest', hrest, hlength, -⟩
      obtain ⟨rfl, -⟩ := List.append_eq_nil_iff.1 hrest.symm
      cases hlength
    | cons b rest =>
      rw [continuation]
      split
      · rename_i hb
        obtain ⟨x, n, hrest⟩ : ∃ x n, continuation (extend code b) 0x80 0xBF more rest = (x, n) :=
          ⟨_, _, rfl⟩
        simp only [hrest, Prod.mk.injEq]
        constructor
        · rintro ⟨rfl, rfl⟩
          obtain ⟨bs, rest', rfl, rfl, rfl, hbs, rfl⟩ := ih.1 hrest
          exact ⟨b :: bs, rest', rfl, rfl, rfl, continues_cons.2 ⟨hb, hbs⟩, rfl⟩
        · rintro ⟨bs, rest', heq, hlength, rfl, hbs, rfl⟩
          obtain ⟨d, bs, rfl⟩ := List.exists_cons_of_length_eq_add_one hlength
          obtain ⟨rfl, rfl⟩ := List.cons.inj heq
          have hread := ih.2 ⟨bs, rest', rfl, Nat.succ.inj hlength, rfl,
            (continues_cons.1 hbs).2, rfl⟩
          obtain ⟨rfl, rfl⟩ := Prod.mk.inj (hrest.symm.trans hread)
          exact ⟨rfl, rfl⟩
      · rename_i hb
        simp only [Prod.mk.injEq, reduceCtorEq, false_and, false_iff]
        rintro ⟨bs, rest', heq, hlength, -, hbs, -⟩
        obtain ⟨d, bs, rfl⟩ := List.exists_cons_of_length_eq_add_one hlength
        obtain ⟨rfl, rfl⟩ := List.cons.inj heq
        exact hb (continues_cons.1 hbs).1

/-- **The character that a byte sequence starts with.** -/
theorem front_eq_some_iff : front b rest = (some c, used) ↔
    ∃ bs rest', rest = bs ++ rest' ∧ used = bs.length ∧ Opens b bs c := by
  unfold front
  split
  · rename_i hb
    simp only [Prod.mk.injEq, Option.some.injEq]
    constructor
    · rintro ⟨rfl, rfl⟩
      exact ⟨[], rest, rfl, rfl, .alone hb⟩
    · rintro ⟨bs, rest', rfl, rfl, hopens⟩
      cases hopens with
      | alone => exact ⟨rfl, rfl⟩
      | leading hlead =>
        have hlow : b < 0xC2 := Std.lt_of_lt_of_le hb (by decide)
        rw [lead?, if_pos hlow] at hlead
        cases hlead
  · rename_i hb
    cases hlead : lead? b with
    | none =>
      simp only [Prod.mk.injEq, reduceCtorEq, false_and, false_iff]
      rintro ⟨bs, rest', -, -, hopens⟩
      cases hopens with
      | alone hlow => exact hb hlow
      | leading hsome => cases hlead.symm.trans hsome
    | some l =>
      simp only [continuation_eq_some_iff]
      constructor
      · rintro ⟨bs, rest', rfl, hlength, rfl, hbs, rfl⟩
        exact ⟨bs, rest', rfl, hlength.symm, .leading hlead hlength hbs⟩
      · rintro ⟨bs, rest', rfl, rfl, hopens⟩
        cases hopens with
        | alone hlow => exact absurd hlow hb
        | leading hsome hlength hbs =>
          cases hlead.symm.trans hsome
          exact ⟨bs, rest', rfl, hlength, hlength, hbs, rfl⟩

end Front

/-! ## Its bytes -/

section Bytes
variable {b d e f : UInt8} {bs : Bytes} {c : Char} {l : Lead} {v : Nat}

theorem toNat_and_five (b : UInt8) : (b &&& 0x1F).toNat = b.toNat % 32 := by
  rw [UInt8.toNat_and]
  exact Nat.and_two_pow_sub_one_eq_mod _ 5

theorem toNat_and_four (b : UInt8) : (b &&& 0x0F).toNat = b.toNat % 16 := by
  rw [UInt8.toNat_and]
  exact Nat.and_two_pow_sub_one_eq_mod _ 4

theorem toNat_and_three (b : UInt8) : (b &&& 0x07).toNat = b.toNat % 8 := by
  rw [UInt8.toNat_and]
  exact Nat.and_two_pow_sub_one_eq_mod _ 3

theorem extend_eq (code : Nat) (b : UInt8) : extend code b = code * 64 + b.toNat % 64 := by
  rw [extend, UInt8.toNat_and]
  exact congrArg _ (Nat.and_two_pow_sub_one_eq_mod _ 6)

theorem between_iff {low high : UInt8} :
    low ≤ b ∧ b ≤ high ↔ low.toNat ≤ b.toNat ∧ b.toNat ≤ high.toNat := by
  simp only [UInt8.le_iff_toNat_le]

theorem lead?_eq (b : UInt8) : lead? b =
    if b.toNat < 0xC2 then none
    else if b.toNat < 0xE0 then some ⟨1, 0x80, 0xBF, b &&& 0x1F⟩
    else if b.toNat = 0xE0 then some ⟨2, 0xA0, 0xBF, b &&& 0x0F⟩
    else if b.toNat = 0xED then some ⟨2, 0x80, 0x9F, b &&& 0x0F⟩
    else if b.toNat < 0xF0 then some ⟨2, 0x80, 0xBF, b &&& 0x0F⟩
    else if b.toNat = 0xF0 then some ⟨3, 0x90, 0xBF, b &&& 0x07⟩
    else if b.toNat < 0xF4 then some ⟨3, 0x80, 0xBF, b &&& 0x07⟩
    else if b.toNat = 0xF4 then some ⟨3, 0x80, 0x8F, b &&& 0x07⟩
    else none := by
  simp only [lead?, UInt8.lt_iff_toNat_lt, ← UInt8.toNat_inj]
  rfl

theorem lead?_two (hlow : 0xC2 ≤ b.toNat) (hhigh : b.toNat < 0xE0) :
    lead? b = some ⟨1, 0x80, 0xBF, b &&& 0x1F⟩ := by
  rw [lead?_eq, if_neg (by omega), if_pos hhigh]

/-- The range of the second of three bytes excludes long forms and surrogates. -/
theorem lead?_three (hlow : 0xE0 ≤ b.toNat) (hhigh : b.toNat < 0xF0) : ∃ low high,
    lead? b = some ⟨2, low, high, b &&& 0x0F⟩ ∧
    ∀ d : UInt8, low ≤ d ∧ d ≤ high ↔ (128 ≤ d.toNat ∧ d.toNat ≤ 191) ∧
      32 ≤ b.toNat % 16 * 64 + d.toNat % 64 ∧
      (b.toNat % 16 * 64 + d.toNat % 64 < 864 ∨ 896 ≤ b.toNat % 16 * 64 + d.toNat % 64) := by
  rw [lead?_eq, if_neg (by omega), if_neg (by omega)]
  repeat' split
  all_goals
    refine ⟨_, _, rfl, fun d => between_iff.trans ?_⟩
    simp only [UInt8.reduceToNat]
    omega

/-- The range of the second of four bytes excludes long forms and what lies above `10FFFF`. -/
theorem lead?_four (hlow : 0xF0 ≤ b.toNat) (hhigh : b.toNat ≤ 0xF4) : ∃ low high,
    lead? b = some ⟨3, low, high, b &&& 0x07⟩ ∧
    ∀ d : UInt8, low ≤ d ∧ d ≤ high ↔ (128 ≤ d.toNat ∧ d.toNat ≤ 191) ∧
      16 ≤ b.toNat % 8 * 64 + d.toNat % 64 ∧ b.toNat % 8 * 64 + d.toNat % 64 < 272 := by
  rw [lead?_eq, if_neg (by omega), if_neg (by omega), if_neg (by omega), if_neg (by omega),
    if_neg (by omega)]
  repeat' split
  case isFalse.isFalse.isFalse => omega
  all_goals
    refine ⟨_, _, rfl, fun d => between_iff.trans ?_⟩
    simp only [UInt8.reduceToNat]
    omega

/-! ## The bytes of a character -/

theorem utf8EncodeChar_ofNat (hv : v.isValidChar) : String.utf8EncodeChar (Char.ofNat v) =
    if v ≤ 0x7F then [UInt8.ofNat v]
    else if v ≤ 0x7FF then [UInt8.ofNat (v / 64 % 32 + 192), UInt8.ofNat (v % 64 + 128)]
    else if v ≤ 0xFFFF then [UInt8.ofNat (v / 4096 % 16 + 224), UInt8.ofNat (v / 64 % 64 + 128),
      UInt8.ofNat (v % 64 + 128)]
    else [UInt8.ofNat (v / 262144 % 8 + 240), UInt8.ofNat (v / 4096 % 64 + 128),
      UInt8.ofNat (v / 64 % 64 + 128), UInt8.ofNat (v % 64 + 128)] := by
  have hval : (Char.ofNat v).val.toNat = v := CharSet.toNat_ofNat hv
  simp only [String.utf8EncodeChar, hval]

theorem ofNat_eq {n : Nat} (h : n = b.toNat) : UInt8.ofNat n = b := by
  rw [h, UInt8.ofNat_toNat]

theorem lead?_range (h : lead? b = some l) : 0xC2 ≤ b.toNat ∧ b.toNat ≤ 0xF4 := by
  rw [lead?_eq] at h
  repeat' split at h
  all_goals cases h <;> omega

theorem continues_tail_iff :
    Continues 0x80 0xBF bs ↔ ∀ d ∈ bs, 128 ≤ d.toNat ∧ d.toNat ≤ 191 := by
  cases bs with
  | nil => simp [Continues]
  | cons => simp [Continues, UInt8.le_iff_toNat_le, and_assoc]

/-- Two bytes in their ranges spell a character. -/
theorem utf8EncodeChar_two (hlow : 0xC2 ≤ b.toNat) (hhigh : b.toNat < 0xE0)
    (hd : 128 ≤ d.toNat ∧ d.toNat ≤ 191) :
    String.utf8EncodeChar (Char.ofNat (b.toNat % 32 * 64 + d.toNat % 64)) = [b, d] := by
  rw [utf8EncodeChar_ofNat (.inl (by omega)), if_neg (by omega), if_pos (by omega),
    ofNat_eq (b := b) (by omega), ofNat_eq (b := d) (by omega)]

/-- So do three, unless they are a long form or a surrogate. -/
theorem utf8EncodeChar_three (hlow : 0xE0 ≤ b.toNat) (hhigh : b.toNat < 0xF0)
    (hd : 128 ≤ d.toNat ∧ d.toNat ≤ 191) (he : 128 ≤ e.toNat ∧ e.toNat ≤ 191)
    (hv : v = (b.toNat % 16 * 64 + d.toNat % 64) * 64 + e.toNat % 64) (hlong : 0x800 ≤ v)
    (hscalar : v < 0xD800 ∨ 0xDFFF < v) : String.utf8EncodeChar (Char.ofNat v) = [b, d, e] := by
  rw [utf8EncodeChar_ofNat (hscalar.imp_right fun h => ⟨h, by omega⟩), if_neg (by omega),
    if_neg (by omega), if_pos (by omega), ofNat_eq (b := b) (by omega),
    ofNat_eq (b := d) (by omega), ofNat_eq (b := e) (by omega)]

/-- So do four, unless they are a long form or lie above `10FFFF`. -/
theorem utf8EncodeChar_four (hlow : 0xF0 ≤ b.toNat) (hhigh : b.toNat ≤ 0xF4)
    (hd : 128 ≤ d.toNat ∧ d.toNat ≤ 191) (he : 128 ≤ e.toNat ∧ e.toNat ≤ 191)
    (hf : 128 ≤ f.toNat ∧ f.toNat ≤ 191)
    (hv : v = ((b.toNat % 8 * 64 + d.toNat % 64) * 64 + e.toNat % 64) * 64 + f.toNat % 64)
    (hlong : 0x10000 ≤ v) (hscalar : v < 0x110000) :
    String.utf8EncodeChar (Char.ofNat v) = [b, d, e, f] := by
  rw [utf8EncodeChar_ofNat (.inr ⟨by omega, hscalar⟩), if_neg (by omega), if_neg (by omega),
    if_neg (by omega), ofNat_eq (b := b) (by omega), ofNat_eq (b := d) (by omega),
    ofNat_eq (b := e) (by omega), ofNat_eq (b := f) (by omega)]

/-- **What is read as a character are its bytes.** -/
theorem Opens.utf8EncodeChar_eq (h : Opens b bs c) : String.utf8EncodeChar c = b :: bs := by
  cases h with
  | alone hb =>
    have hb : b.toNat < 128 := UInt8.lt_iff_toNat_lt.1 hb
    rw [utf8EncodeChar_ofNat (.inl (by omega)), if_pos (by omega), UInt8.ofNat_toNat]
  | leading hlead hlength hbs =>
    obtain ⟨hlow, hhigh⟩ := lead?_range hlead
    by_cases htwo : b.toNat < 0xE0
    · cases hlead.symm.trans (lead?_two hlow htwo)
      obtain ⟨d, rfl⟩ := List.length_eq_one_iff.1 hlength
      simp only [List.foldl, extend_eq, toNat_and_five]
      exact utf8EncodeChar_two hlow htwo (continues_tail_iff.1 hbs d (by simp))
    by_cases hthree : b.toNat < 0xF0
    · obtain ⟨low, high, hl, hrange⟩ := lead?_three (Nat.le_of_not_lt htwo) hthree
      cases hlead.symm.trans hl
      obtain ⟨d, e, rfl⟩ := List.length_eq_two.1 hlength
      obtain ⟨hd, hrest⟩ := continues_cons.1 hbs
      obtain ⟨hd, hlong, hscalar⟩ := (hrange d).1 hd
      have he := continues_tail_iff.1 hrest e (by simp)
      simp only [List.foldl, extend_eq, toNat_and_four]
      exact utf8EncodeChar_three (by omega) hthree hd he rfl (by omega) (by omega)
    · obtain ⟨low, high, hl, hrange⟩ := lead?_four (Nat.le_of_not_lt hthree) hhigh
      cases hlead.symm.trans hl
      obtain ⟨d, e, f, rfl⟩ := List.length_eq_three.1 hlength
      obtain ⟨hd, hrest⟩ := continues_cons.1 hbs
      obtain ⟨hd, hlong, hscalar⟩ := (hrange d).1 hd
      have he := continues_tail_iff.1 hrest e (by simp)
      have hf := continues_tail_iff.1 hrest f (by simp)
      simp only [List.foldl, extend_eq, toNat_and_three]
      exact utf8EncodeChar_four (by omega) hhigh hd he hf rfl (by omega) (by omega)

theorem exists_ofNat_eq {n : Nat} (h : n < 256) : ∃ b : UInt8, UInt8.ofNat n = b ∧ b.toNat = n :=
  ⟨_, rfl, UInt8.toNat_ofNat_of_lt h⟩

theorem Opens.of_lead (hlead : lead? b = some l) (hlength : bs.length = l.more)
    (hbs : Continues l.low l.high bs) (hv : bs.foldl extend l.bits.toNat = v) :
    Opens b bs (Char.ofNat v) := by
  subst hv
  exact .leading hlead hlength hbs

/-- **The bytes of a character are read as it.** -/
theorem opens_of_utf8EncodeChar (h : String.utf8EncodeChar c = b :: bs) : Opens b bs c := by
  obtain ⟨v, hvalid, rfl⟩ : ∃ v : Nat, v.isValidChar ∧ Char.ofNat v = c :=
    ⟨c.toNat, c.valid, Char.ofNat_toNat c⟩
  have hscalar : v < 0xD800 ∨ 0xDFFF < v ∧ v < 0x110000 := hvalid
  rw [utf8EncodeChar_ofNat hvalid] at h
  split at h
  · obtain ⟨d, hd, hdv⟩ := exists_ofNat_eq (n := v) (by omega)
    rw [hd] at h
    cases h
    have hlow : b < 0x80 := UInt8.lt_iff_toNat_lt.2 (by simp only [UInt8.reduceToNat]; omega)
    have hopens := Opens.alone hlow
    rwa [hdv] at hopens
  split at h
  · obtain ⟨x, hx, hxv⟩ := exists_ofNat_eq (n := v / 64 % 32 + 192) (by omega)
    obtain ⟨y, hy, hyv⟩ := exists_ofNat_eq (n := v % 64 + 128) (by omega)
    rw [hx, hy] at h
    cases h
    have hv : [y].foldl extend (b &&& 0x1F).toNat = v := by
      simp only [List.foldl, extend_eq, toNat_and_five]
      omega
    exact .of_lead (lead?_two (by omega) (by omega)) rfl
      (continues_tail_iff.2 (by simp; omega)) hv
  split at h
  · obtain ⟨x, hx, hxv⟩ := exists_ofNat_eq (n := v / 4096 % 16 + 224) (by omega)
    obtain ⟨y, hy, hyv⟩ := exists_ofNat_eq (n := v / 64 % 64 + 128) (by omega)
    obtain ⟨z, hz, hzv⟩ := exists_ofNat_eq (n := v % 64 + 128) (by omega)
    rw [hx, hy, hz] at h
    cases h
    have hv : [y, z].foldl extend (b &&& 0x0F).toNat = v := by
      simp only [List.foldl, extend_eq, toNat_and_four]
      omega
    obtain ⟨low, high, hl, hrange⟩ := lead?_three (b := b) (by omega) (by omega)
    have hrest : Continues 0x80 0xBF [z] := continues_tail_iff.2 (by simp; omega)
    exact .of_lead hl rfl (continues_cons.2 ⟨(hrange y).2 (by omega), hrest⟩) hv
  · obtain ⟨x, hx, hxv⟩ := exists_ofNat_eq (n := v / 262144 % 8 + 240) (by omega)
    obtain ⟨y, hy, hyv⟩ := exists_ofNat_eq (n := v / 4096 % 64 + 128) (by omega)
    obtain ⟨z, hz, hzv⟩ := exists_ofNat_eq (n := v / 64 % 64 + 128) (by omega)
    obtain ⟨w, hw, hwv⟩ := exists_ofNat_eq (n := v % 64 + 128) (by omega)
    rw [hx, hy, hz, hw] at h
    cases h
    have hv : [y, z, w].foldl extend (b &&& 0x07).toNat = v := by
      simp only [List.foldl, extend_eq, toNat_and_three]
      omega
    obtain ⟨low, high, hl, hrange⟩ := lead?_four (b := b) (by omega) (by omega)
    have hrest : Continues 0x80 0xBF [z, w] := continues_tail_iff.2 (by simp; omega)
    exact .of_lead hl rfl (continues_cons.2 ⟨(hrange y).2 (by omega), hrest⟩) hv

theorem opens_iff : Opens b bs c ↔ String.utf8EncodeChar c = b :: bs :=
  ⟨Opens.utf8EncodeChar_eq, opens_of_utf8EncodeChar⟩

end Bytes

/-! ## Texts -/

section Texts
variable {b : UInt8} {bs rest : Bytes} {c : Char} {cs : List Char} {s : String}

theorem piecesFrom_eq (skip : Nat) (bs : Bytes) : piecesFrom skip bs = pieces (bs.drop skip) := by
  induction bs generalizing skip with
  | nil => cases skip <;> rfl
  | cons b bs ih =>
    cases skip with
    | zero => rfl
    | succ skip => exact ih skip

theorem pieces_cons (b : UInt8) (rest : Bytes) :
    pieces (b :: rest) = (front b rest).1 :: pieces (rest.drop (front b rest).2) := by
  rw [← piecesFrom_eq]
  rfl

theorem pieces_utf8EncodeChar_append (c : Char) (rest : Bytes) :
    pieces (String.utf8EncodeChar c ++ rest) = some c :: pieces rest := by
  obtain ⟨b, bs, hbytes⟩ := List.exists_cons_of_ne_nil (String.utf8EncodeChar_ne_nil (c := c))
  have hfront : front b (bs ++ rest) = (some c, bs.length) :=
    front_eq_some_iff.2 ⟨bs, rest, rfl, rfl, opens_iff.2 hbytes⟩
  rw [hbytes, List.cons_append, pieces_cons, hfront, List.drop_left]

/-- **A sequence of characters is read from their bytes**, and from no others. -/
theorem pieces_eq_map_some_iff :
    pieces bs = cs.map some ↔ bs = cs.flatMap String.utf8EncodeChar := by
  constructor
  · intro h
    induction cs generalizing bs with
    | nil =>
      cases bs with
      | nil => rfl
      | cons b bs =>
        rw [pieces_cons] at h
        cases h
    | cons c cs ih =>
      cases bs with
      | nil => cases h
      | cons b bs =>
        obtain ⟨x, used, hfront⟩ : ∃ x used, front b bs = (x, used) := ⟨_, _, rfl⟩
        rw [pieces_cons, hfront, List.map_cons, List.cons.injEq] at h
        obtain ⟨rfl, hrest⟩ := h
        obtain ⟨tail, rest, rfl, rfl, hopens⟩ := front_eq_some_iff.1 hfront
        rw [List.drop_left] at hrest
        rw [List.flatMap_cons, opens_iff.1 hopens, ← ih hrest, List.cons_append]
  · rintro rfl
    induction cs with
    | nil => rfl
    | cons c cs ih => rw [List.flatMap_cons, pieces_utf8EncodeChar_append, ih, List.map_cons]

theorem mapM_id_eq_some_iff {xs : List (Option Char)} :
    xs.mapM id = some cs ↔ xs = cs.map some := by
  induction xs generalizing cs with
  | nil => cases cs <;> simp
  | cons x xs ih =>
    cases x with
    | none => cases cs <;> simp
    | some c =>
      simp only [List.mapM_cons, id, Option.bind_eq_bind, Option.bind_some,
        Option.bind_eq_some_iff, ih]
      cases cs with
      | nil => simp
      | cons d ds => simp [and_comm]

/-- **What is decoded**: exactly the bytes of a text, and as that text. -/
theorem decode?_eq_some_iff : decode? bs = some s ↔ bs = encode s := by
  rw [decode?, Option.map_eq_some_iff, encode, ← pieces_eq_map_some_iff]
  constructor
  · rintro ⟨cs, hcs, rfl⟩
    rw [String.toList_ofList]
    exact mapM_id_eq_some_iff.1 hcs
  · intro h
    exact ⟨s.toList, mapM_id_eq_some_iff.2 h, String.ofList_toList⟩

end Texts

end NamedMutex.Utf8
