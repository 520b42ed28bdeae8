/-
  Stamps as a code for processes.

  * `Stamp.parse?_eq_some_iff`: exactly the contents that spell a number in range between blanks
    are read, and as that number;
  * `Stamp.text_injective`: two processes never have one stamp;
  * `stamp_codec` is the main statement: what is read from a content, that what is written is
    read back, and that a look at a file that was just stamped finds the process that did it.
-/
import NamedMutex.Proofs.Numerals
import NamedMutex.Proofs.Takings

namespace NamedMutex

namespace Stamp

variable {content : String} {p q : Pid}

/-- A content spells a process: the numeral of a number from `1` to `2^32 - 1`, between
    blanks. -/
def SpellsPid (content : String) (p : Pid) : Prop :=
  ∃ core, Trims content.toList core ∧ Numeral.Spells core p ∧ 1 ≤ p ∧ p ≤ 4294967295

/-- **What is read from a content**: the process that it spells. -/
theorem parse?_eq_some_iff : parse? content = some p ↔ SpellsPid content p := by
  simp only [parse?, SpellsPid, Option.filter_eq_some_iff, Numeral.parseTrimmed?_eq_some_iff]
  constructor
  · rintro ⟨⟨core, htrims, hspells, hlt⟩, hpos⟩
    have hne : p ≠ 0 := by simpa using hpos
    exact ⟨core, htrims, hspells, Nat.pos_of_ne_zero hne, Nat.le_of_lt_succ hlt⟩
  · rintro ⟨core, htrims, hspells, hpos, hle⟩
    have hne : p ≠ 0 := Nat.pos_iff_ne_zero.1 hpos
    exact ⟨⟨core, htrims, hspells, Nat.lt_succ_of_le hle⟩, by simpa using hne⟩

theorem parse?_eq_none_iff : parse? content = none ↔ ∀ p, ¬ SpellsPid content p := by
  simp only [← parse?_eq_some_iff, Option.eq_none_iff_forall_ne_some, ne_eq]

theorem names_text_of_le (hpos : 1 ≤ p) (hle : p ≤ 4294967295) : Names (text p) p :=
  names_text hpos (Nat.lt_succ_of_le hle)

/-- **Two processes never have one stamp.** -/
theorem text_injective (h : text p = text q) : p = q := by
  have hdecode : ∀ r, Utf8.decode? (text r) = some (String.ofList (Numeral.ofNat r ++ ['\n'])) := by
    intro r
    rw [text_eq]
    exact Utf8.decode?_encode_ascii isAscii_text
  have hsame := (hdecode p).symm.trans (h ▸ hdecode q)
  have hdigits : Numeral.ofNat p = Numeral.ofNat q :=
    List.append_cancel_right (String.ofList_injective (Option.some.inj hsame))
  rw [← Numeral.value_ofNat p, hdigits, Numeral.value_ofNat]

end Stamp

/-! ## The codec -/

/-- **The stamp codec.**  A content is read as `p` exactly if, without the blanks at its ends,
    it is at most one `+` and then one or more digits of value `p`, from `1` to `2^32 - 1`; of
    every other content nothing is read.  The stamp of such a process is text that is read as
    that process, and stamps of different processes differ.  So whoever looks at a file that
    carries the stamp of a process finds that process; and such is the file at the path of a
    mutex that was just acquired. -/
theorem stamp_codec :
    (∀ content p, Stamp.parse? content = some p ↔ Stamp.SpellsPid content p) ∧
    (∀ content, Stamp.parse? content = none ↔ ∀ p, ¬ Stamp.SpellsPid content p) ∧
    (∀ p, 1 ≤ p → p ≤ 4294967295 →
      ∃ content, Utf8.decode? (Stamp.text p) = some content ∧ Stamp.parse? content = some p) ∧
    (∀ p q, Stamp.text p = Stamp.text q → p = q) ∧
    ∀ (m : Machine) (dir : Path) (name : String), IsValidName name →
      (∀ p you, 1 ≤ p → p ≤ 4294967295 →
        m.tree.readPath (lockPath dir name) = .ok (Stamp.text p) →
        (m.run you (readOwner dir name)).1 = .returned (.ok (some ⟨p, m.sees p⟩))) ∧
      ∀ me h m', m.WellFormed → m.run me (Handle.acquire dir name) = (.returned (.ok h), m') →
        h.isAcquired = true → m'.tree.readPath (lockPath dir name) = .ok (Stamp.text me) := by
  refine ⟨fun _ _ => Stamp.parse?_eq_some_iff, fun _ => Stamp.parse?_eq_none_iff,
    fun p hpos hle => Stamp.names_text_of_le hpos hle, fun p q => Stamp.text_injective, ?_⟩
  intro m dir name hname
  refine ⟨fun p you hpos hle hread => ?_, fun me h m' hw hrun hacq => ?_⟩
  · rw [Machine.run_readOwner m you hname,
      Machine.ownerAt_of_names hread (Stamp.names_text_of_le hpos hle)]
  · exact Machine.stamped_of_acquired hw hname hrun hacq

open Contest in
/-- The process `7` is spelt with a sign, zeros and blanks, and read back from its stamp; and
    whoever looks after an acquisition of the process `1` finds that process. -/
theorem stamp_codec_of_seven :
    Stamp.parse? " +007\n" = some 7 ∧
    (∃ content, Utf8.decode? (Stamp.text 7) = some content ∧ Stamp.parse? content = some 7) ∧
    ∃ h m', (Machine.bare 1).run 1 (Handle.acquire root "a") = (.returned (.ok h), m') ∧
      h.isAcquired = true ∧
      (m'.run 2 (readOwner root "a")).1 = .returned (.ok (some ⟨1, m'.sees 1⟩)) := by
  obtain ⟨hread, -, hback, -, hlook⟩ := stamp_codec
  have hseven : Stamp.SpellsPid " +007\n" 7 := by
    refine ⟨"+007".toList, trim_eq_iff.1 (by decide), ?_, by simp, by simp⟩
    have hdigits : Numeral.Spells ('+' :: "007".toList) 7 := .signed (by simp) (by simp)
    exact hdigits
  have hvalid : IsValidName "a" := by decide
  obtain ⟨h, m', hrun, hacq⟩ : ∃ h m', (Machine.bare 1).run 1 (Handle.acquire root "a") =
      (.returned (.ok h), m') ∧ h.isAcquired = true :=
    Machine.run_acquire_of_outcome? (by decide +kernel)
  have hstamped := (hlook _ root "a" hvalid).2 1 h m' (Machine.bare_wellFormed 1) hrun hacq
  exact ⟨(hread _ _).2 hseven, hback 7 (by simp) (by simp), h, m', hrun, hacq,
    (hlook _ root "a" hvalid).1 1 2 (by simp) (by simp) hstamped⟩

end NamedMutex
