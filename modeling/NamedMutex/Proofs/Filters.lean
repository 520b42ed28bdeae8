/-
  Which filters can be read.

  The reader of a directive walks over the directive without the blanks around it, and cuts its
  parts out of the directive with these blanks, at the offsets at which it stands.  Where one of
  them lies within a character, it breaks off.  That never happens to a directive of ASCII
  characters, nor to one with no blank before it.

  * `Utf8.Boundary` are the offsets between characters; `Utf8.exists_slice?`: between two of them
    a text can be cut;
  * `Directive.Aligned` are the directives whose parts are cut between characters,
    `Directive.parse_ne_cut`: these are read to their end; `aligned_of_ascii` and
    `aligned_of_unindented` say which are;
  * `Filter.parse_eq_error_iff`, `Filter.exists_parse` are the main statements.
-/
import Mathlib.Data.String.Basic
import NamedMutex.Proofs.Numerals
import NamedMutex.Proofs.Stamps
import NamedMutex.Telemetry.Filter

namespace NamedMutex

/-! ## Offsets -/

namespace Utf8

open String

/-- An offset at which a character of the text starts, or the text ends. -/
def Boundary (text : List Char) (n : Nat) : Prop := ∃ front, front <+: text ∧ n = utf8Len front

section Size
variable {cs ds text : List Char} {n low high : Nat}

theorem length_encode (cs : List Char) : (encode (String.ofList cs)).length = utf8Len cs := by
  induction cs with
  | nil => rfl
  | cons c cs ih =>
    rw [utf8Len_cons, ← ih]
    simp [encode, String.length_utf8EncodeChar, Nat.add_comm]

theorem utf8Len_ascii (h : ∀ c ∈ cs, IsAscii c) : utf8Len cs = cs.length := by
  induction cs with
  | nil => rfl
  | cons c cs ih =>
    rw [utf8Len_cons, (h c (by simp)).utf8Size, ih fun d hd => h d (by simp [hd]), List.length_cons,
      Nat.add_comm]

theorem drop?_cons (n : Nat) (c : Char) (cs : List Char) :
    drop? (n + c.utf8Size) (c :: cs) = drop? n cs := by
  have hpos := c.utf8Size_pos
  cases hsum : n + c.utf8Size with
  | zero => omega
  | succ m =>
    have hrest : m + 1 - c.utf8Size = n := by omega
    rw [drop?, if_pos (by omega), hrest]

theorem take?_cons (n : Nat) (c : Char) (cs : List Char) :
    take? (n + c.utf8Size) (c :: cs) = (take? n cs).map (c :: ·) := by
  have hpos := c.utf8Size_pos
  cases hsum : n + c.utf8Size with
  | zero => omega
  | succ m =>
    have hrest : m + 1 - c.utf8Size = n := by omega
    rw [take?, if_pos (by omega), hrest]

theorem drop?_append (cs ds : List Char) : drop? (utf8Len cs) (cs ++ ds) = some ds := by
  induction cs with
  | nil => rw [utf8Len_nil, List.nil_append, drop?]
  | cons c cs ih => rw [utf8Len_cons, List.cons_append, drop?_cons, ih]

theorem take?_append (cs ds : List Char) : take? (utf8Len cs) (cs ++ ds) = some cs := by
  induction cs with
  | nil => cases ds <;> rfl
  | cons c cs ih => rw [utf8Len_cons, List.cons_append, take?_cons, ih, Option.map_some]

theorem Boundary.end (cs : List Char) : Boundary cs (utf8Len cs) :=
  ⟨cs, List.prefix_refl cs, rfl⟩

theorem Boundary.mono (h : Boundary cs n) (hle : cs <+: ds) : Boundary ds n := by
  obtain ⟨front, hfront, rfl⟩ := h
  exact ⟨front, hfront.trans hle, rfl⟩

theorem Boundary.le (h : Boundary cs n) : n ≤ utf8Len cs := by
  obtain ⟨front, hfront, rfl⟩ := h
  exact utf8Len_le_of_prefix hfront

theorem boundary_ascii (h : ∀ c ∈ cs, IsAscii c) (hn : n ≤ cs.length) : Boundary cs n := by
  refine ⟨cs.take n, List.take_prefix n cs, ?_⟩
  rw [utf8Len_ascii fun c hc => h c (List.mem_of_mem_take hc), List.length_take, Nat.min_eq_left hn]

/-- **A text can be cut between two boundaries.** -/
theorem exists_slice? (hlow : Boundary text low) (hhigh : Boundary text high)
    (hle : low ≤ high) : ∃ part, slice? text low high = some part := by
  obtain ⟨front, hfront, rfl⟩ := hlow
  obtain ⟨longer, hlonger, rfl⟩ := hhigh
  obtain ⟨middle, rfl⟩ : front <+: longer := by
    rcases List.prefix_or_prefix_of_prefix hfront hlonger with h | ⟨more, rfl⟩
    · exact h
    · rw [utf8Len_append] at hle
      have hmore : utf8Len more = 0 := by omega
      obtain rfl : more = [] := utf8Len_eq_zero.1 hmore
      exact ⟨[], by simp⟩
  obtain ⟨back, rfl⟩ := hlonger
  refine ⟨middle, ?_⟩
  rw [slice?, List.append_assoc, drop?_append, Option.bind_some, utf8Len_append,
    Nat.add_sub_cancel_left, take?_append]

end Size

end Utf8

/-! ## Directives -/

namespace Directive

open String (utf8Len utf8Len_nil utf8Len_cons utf8Len_append utf8Len_le_of_sublist)
open Utf8

/-- A directive whose characters stand, without the blanks around it, at offsets at which the
    directive with its blanks can be cut. -/
def Aligned (text : List Char) : Prop := ∀ n, Boundary (trim text) n → Boundary text n

/-- A reading that is not broken off by a cut within a character, and the result of which has a
    property. -/
def Uncut {α : Type} (P : α → Prop) : Except Flaw α → Prop
  | .ok a => P a
  | .error flaw => ∀ offset, flaw ≠ .cut offset

/-- Where the part at hand starts, if there is one. -/
def Place.from? : Place → Option Nat
  | .word n | .span n | .field n | .level n => some n
  | .start | .fieldsEnd | .spanEnd => none

/-- The part at hand starts between two characters of what has been read. -/
def Place.Within (read : List Char) (place : Place) : Prop :=
  ∀ n, place.from? = some n → Boundary read n

section Reading
variable {α β : Type} {P : α → Prop} {Q : β → Prop} {x : Except Flaw α} {f : α → Except Flaw β}
  {text read rest : List Char} {c : Char} {low high : Nat} {place : Place}

theorem Uncut.bind (hx : Uncut P x) (hf : ∀ a, P a → Uncut Q (f a)) : Uncut Q (x >>= f) := by
  cases x with
  | ok a => exact hf a hx
  | error flaw => exact hx

theorem uncut_part (hlow : Boundary text low) (hhigh : Boundary text high) (hle : low ≤ high) :
    Uncut (fun _ => True) (part text low high) := by
  obtain ⟨cs, hcs⟩ := exists_slice? hlow hhigh hle
  rw [part, hcs]
  trivial

theorem uncut_lastPart (hlow : Boundary text low) :
    Uncut (fun _ => True) (lastPart text low) := by
  rw [lastPart, length_encode]
  exact uncut_part hlow (Boundary.end text) hlow.le

theorem uncut_withLevel (d : Directive) (cs : List Char) :
    Uncut (fun _ => True) (d.withLevel cs) := by
  rw [withLevel]
  split
  · trivial
  · cases level? cs with
    | some n => trivial
    | none => nofun

theorem uncut_withField (d : Directive) (cs : List Char) :
    Uncut (fun _ => True) (d.withField cs) := by
  rw [withField]
  split
  · nofun
  · cases FieldCondition.parse cs with
    | ok condition => trivial
    | error flaw => nofun

theorem Place.within_of_none (h : place.from? = none) : place.Within read := by
  intro n hn
  rw [h] at hn
  cases hn

theorem Place.Within.later (h : place.Within read) (c : Char) : place.Within (read ++ [c]) :=
  fun n hn => (h n hn).mono (List.prefix_append read [c])

/-- The characters behind which a new part starts. -/
def marks : List Char := ['[', '{', '=']

/-- Behind a mark a new part may start. -/
theorem Place.within_of_mark (hc : c ∈ marks) (hplace : place.from? = some (utf8Len read + 1)) :
    place.Within (read ++ [c]) := by
  have hsize : c.utf8Size = 1 := by
    simp only [marks, List.mem_cons, List.not_mem_nil, or_false] at hc
    rcases hc with rfl | rfl | rfl <;> rfl
  intro n hn
  obtain rfl := Option.some.inj (hplace.symm.trans hn)
  refine ⟨read ++ [c], List.prefix_refl _, ?_⟩
  rw [utf8Len_append, utf8Len_cons, hsize, utf8Len_nil]

/-- **A character is read**, and the part at hand starts between two characters again. -/
theorem uncut_step (d : Directive) (haligned : Aligned text) (hread : read <+: trim text)
    (hplace : place.Within read) :
    Uncut (fun r => r.2.Within (read ++ [c])) (step text d (utf8Len read) c place) := by
  -- a part ends behind what has been read, wherever it starts
  have hcut : ∀ low, place.from? = some low →
      Uncut (fun _ => True) (part text low (utf8Len read)) :=
    fun low hlow => uncut_part (haligned low ((hplace low hlow).mono hread))
      (haligned _ ((Boundary.end read).mono hread)) (hplace low hlow).le
  cases place with
  | start =>
    rw [step]
    split_ifs with hspan hword
    · exact Place.within_of_mark (by rw [hspan]; decide) rfl
    · intro n hn
      obtain rfl := Option.some.inj hn
      exact (Boundary.end read).mono (List.prefix_append read [c])
    · nofun
  | word low =>
    rw [step]
    by_cases hend : c = '=' ∨ c = '['
    · rw [if_pos hend]
      refine (hcut low rfl).bind fun source _ => Place.within_of_mark ?_ ?_
      · rcases hend with rfl | rfl <;> decide
      · dsimp only
        split_ifs <;> rfl
    · rw [if_neg hend]
      exact hplace.later c
  | span low =>
    rw [step]
    by_cases hend : c = ']' ∨ c = '{'
    · rw [if_pos hend]
      refine (hcut low rfl).bind fun span _ => ?_
      rcases hend with rfl | rfl
      · exact Place.within_of_none rfl
      · exact Place.within_of_mark (by decide) rfl
    · rw [if_neg hend]
      exact hplace.later c
  | field low =>
    rw [step]
    split_ifs with hend
    · refine (hcut low rfl).bind fun condition _ => ?_
      exact (uncut_withField d condition).bind fun d _ => Place.within_of_none rfl
    · exact hplace.later c
  | fieldsEnd =>
    rw [step]
    split_ifs
    · exact Place.within_of_none rfl
    · nofun
  | spanEnd =>
    rw [step]
    split_ifs with hlevel
    · exact Place.within_of_mark (by rw [hlevel]; decide) rfl
    · nofun
  | level low => exact hplace.later c

theorem uncut_close (d : Directive) (haligned : Aligned text)
    (hplace : place.Within (trim text)) : Uncut (fun _ => True) (close text d place) := by
  have hlast : ∀ low, place.from? = some low → Uncut (fun _ => True) (lastPart text low) :=
    fun low hlow => uncut_lastPart (haligned low (hplace low hlow))
  cases place with
  | word low =>
    exact (hlast low rfl).bind (f := fun cs => .ok (ofWord cs)) fun _ _ => trivial
  | level low => exact (hlast low rfl).bind fun cs _ => uncut_withLevel d cs
  | spanEnd => trivial
  | start | span _ | field _ | fieldsEnd => nofun

theorem uncut_scan (d : Directive) (haligned : Aligned text) (hread : read ++ rest = trim text)
    (hplace : place.Within read) :
    Uncut (fun _ => True) (scan text d place (utf8Len read) rest) := by
  induction rest generalizing d place read with
  | nil =>
    rw [List.append_nil] at hread
    rw [scan]
    exact uncut_close d haligned (hread ▸ hplace)
  | cons c rest ih =>
    rw [scan]
    refine (uncut_step d haligned ⟨c :: rest, hread⟩ hplace).bind fun r hr => ?_
    have hlen : utf8Len read + c.utf8Size = utf8Len (read ++ [c]) := by simp
    have hrest : read ++ [c] ++ rest = trim text := by simpa using hread
    rw [hlen]
    exact ih r.1 hrest hr

/-- **A directive that can be cut at its offsets** is read to its end. -/
theorem parse_ne_cut (haligned : Aligned text) (offset : Nat) :
    parse text ≠ .error (.cut offset) := by
  have h : Uncut (fun _ => True) (scan text everything .start (utf8Len []) (trim text)) :=
    uncut_scan everything haligned rfl (Place.within_of_none rfl)
  intro hcut
  rw [parse] at hcut
  rw [utf8Len_nil, hcut] at h
  exact h offset rfl

theorem aligned_of_ascii (h : ∀ c ∈ text, IsAscii c) : Aligned text := by
  intro n hn
  have hsub : (trim text).Sublist text := by
    rw [trim, ← List.reverse_sublist, List.reverse_reverse]
    exact (List.dropWhile_sublist _).trans (List.dropWhile_sublist _).reverse
  refine boundary_ascii h ?_
  calc n ≤ utf8Len (trim text) := hn.le
    _ ≤ utf8Len text := utf8Len_le_of_sublist hsub
    _ = text.length := utf8Len_ascii h

theorem aligned_of_unindented (h : ∀ c, text.head? = some c → isBlank c = false) :
    Aligned text := by
  intro n hn
  refine hn.mono ?_
  rw [trim, dropWhile_isBlank_eq_self h, ← List.reverse_suffix, List.reverse_reverse]
  exact List.dropWhile_suffix _

end Reading

end Directive

/-! ## Filters -/

namespace Filter

/-- A part at which the reading of a filter breaks off. -/
def BreaksOff (part : List Char) : Prop := ∃ offset, Directive.parse part = .error (.cut offset)

/-- A complaint about one of the parts, which says what is wrong with it. -/
def ComplainsOf (ps : List (List Char)) (complaint : String) : Prop :=
  ∃ part ∈ ps, ∃ flaw, Directive.parse part = .error flaw ∧
    complaint = Filter.complaint part flaw

/-- What comes of reading the parts of a filter: complaints about some of them, or an end at one
    at which it breaks off. -/
def Outcome {α : Type} (ps : List (List Char)) : Except Halt (α × List String) → Prop
  | .ok (_, complaints) =>
    (∀ part ∈ ps, ¬ BreaksOff part) ∧ ∀ complaint ∈ complaints, ComplainsOf ps complaint
  | .error _ => ∃ part ∈ ps, BreaksOff part

section Parts
variable {ps : List (List Char)} {part : List Char} {s : String} {f : Filter}
  {complaints : List String} {complaint : String} {x : Except Halt (List Directive × List String)}

theorem ComplainsOf.older (h : ComplainsOf ps complaint) : ComplainsOf (part :: ps) complaint := by
  obtain ⟨other, hmem, h⟩ := h
  exact ⟨other, List.mem_cons_of_mem _ hmem, h⟩

/-- One more part, of which the reading says no more than that it is flawed. -/
theorem Outcome.cons (h : Outcome ps x) (hpart : ¬ BreaksOff part)
    {g : List Directive × List String → List Directive × List String}
    (hg : ∀ r, ∀ complaint ∈ (g r).2, complaint ∈ r.2 ∨ ComplainsOf (part :: ps) complaint) :
    Outcome (part :: ps) (x >>= fun r => pure (g r)) := by
  cases x with
  | error e =>
    obtain ⟨other, hmem, hbreak⟩ := h
    exact ⟨other, List.mem_cons_of_mem _ hmem, hbreak⟩
  | ok r =>
    refine ⟨List.forall_mem_cons.2 ⟨hpart, h.1⟩, fun complaint hmem => ?_⟩
    rcases hg r complaint hmem with hold | hnew
    · exact (h.2 complaint hold).older
    · exact hnew

theorem outcome_readParts (ps : List (List Char)) : Outcome ps (readParts ps) := by
  induction ps with
  | nil => exact ⟨nofun, nofun⟩
  | cons part ps ih =>
    rw [readParts]
    cases hpart : Directive.parse part with
    | ok d =>
      exact ih.cons (by rw [BreaksOff, hpart]; nofun) fun r complaint hmem => Or.inl hmem
    | error flaw =>
      cases flaw with
      | cut offset => exact ⟨part, List.mem_cons_self .., offset, hpart⟩
      | form | level | field _ =>
        refine ih.cons (by rw [BreaksOff, hpart]; nofun) fun r complaint hmem => ?_
        rcases List.mem_cons.1 hmem with rfl | hold
        · exact Or.inr ⟨part, List.mem_cons_self .., _, hpart, rfl⟩
        · exact Or.inl hold

theorem outcome_parse (s : String) : Outcome (parts s) (parse s) := by
  have h := outcome_readParts (parts s)
  rw [parse]
  cases hread : readParts (parts s) with
  | error e =>
    rw [hread] at h
    exact h
  | ok r =>
    rw [hread] at h
    exact h

/-- **The reading of a filter breaks off** exactly if it does so at one of its parts. -/
theorem parse_eq_error_iff :
    (∃ h, parse s = .error h) ↔ ∃ part ∈ parts s, BreaksOff part := by
  have h := outcome_parse s
  cases hparse : parse s with
  | error e =>
    rw [hparse] at h
    exact iff_of_true ⟨e, rfl⟩ h
  | ok r =>
    rw [hparse] at h
    refine iff_of_false nofun ?_
    rintro ⟨part, hmem, hbreak⟩
    exact h.1 part hmem hbreak

/-- **A filter is read** if each of its parts has ASCII characters only, or no blank before it. -/
theorem exists_parse (h : ∀ part ∈ parts s,
    (∀ c ∈ part, Utf8.IsAscii c) ∨ ∀ c, part.head? = some c → isBlank c = false) :
    ∃ f complaints, parse s = .ok (f, complaints) := by
  cases hparse : parse s with
  | ok r => exact ⟨r.1, r.2, rfl⟩
  | error e =>
    obtain ⟨part, hmem, offset, hcut⟩ := parse_eq_error_iff.1 ⟨e, hparse⟩
    have haligned : Directive.Aligned part :=
      (h part hmem).elim Directive.aligned_of_ascii Directive.aligned_of_unindented
    exact absurd hcut (Directive.parse_ne_cut haligned offset)

theorem complainsOf_of_mem (h : parse s = .ok (f, complaints)) (hmem : complaint ∈ complaints) :
    ComplainsOf (parts s) complaint := by
  have houtcome := outcome_parse s
  rw [h] at houtcome
  exact houtcome.2 complaint hmem

end Parts

end Filter

end NamedMutex
