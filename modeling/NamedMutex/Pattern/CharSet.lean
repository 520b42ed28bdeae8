/-
  Sets of characters.

  Characters have places, from `0` on without a gap.  A set is kept as its edges:
  the places, in order, where characters come to be in it or cease to be.  So
  two sets are equal if they hold the same characters, however they were written
  (`eq_of_contains`).

  * `CharSet.contains` says which characters a set holds;
  * `CharSet.ofPlaces` makes the set of a property of places (`holdsAt_ofPlaces`);
    the operations on sets are made from it (`contains_range`,
    `contains_unionAll`, `contains_combined`, `contains_compl`);
  * `CharSet.named?` knows the sets of ASCII that have a name.
-/

namespace NamedMutex

/-- How many characters there are. -/
def charCount : Nat := 0x10F800

/-- A set of characters. -/
structure CharSet where
  edges : List Nat
  ordered : edges.Pairwise (· < ·)
  bounded : ∀ e ∈ edges, e < charCount
  deriving DecidableEq, Repr

namespace CharSet

/-! ## Places -/

/-- The place of a character.  Numbers that stand for no character are left out. -/
def place (c : Char) : Nat :=
  if c.toNat < 0xD800 then c.toNat else c.toNat - 0x800

/-- The character at a place. -/
def charAt (n : Nat) : Char :=
  .ofNat (if n < 0xD800 then n else n + 0x800)

/-- Whether a place lies behind an odd number of edges; or behind an even one,
    if what comes before the first edge is `inside`. -/
def within (inside : Bool) : List Nat → Nat → Bool
  | [], _ => inside
  | e :: es, n => if n < e then inside else within (!inside) es n

/-- Whether the character at a place is in a set. -/
def holdsAt (s : CharSet) (n : Nat) : Bool := within false s.edges n

def contains (s : CharSet) (c : Char) : Bool := s.holdsAt (place c)

/-- What a property says of the place before a place; of none before the first. -/
def before (p : Nat → Bool) : Nat → Bool
  | 0 => false
  | n + 1 => p n

/-- Puts a place into an ordered list of places. -/
def insertPlace (n : Nat) : List Nat → List Nat
  | [] => [n]
  | m :: ms => if n < m then n :: m :: ms else if n = m then m :: ms else m :: insertPlace n ms

theorem mem_insertPlace {n m : Nat} {ms : List Nat} :
    m ∈ insertPlace n ms ↔ m = n ∨ m ∈ ms := by
  induction ms with
  | nil => simp [insertPlace]
  | cons k ks ih =>
    unfold insertPlace
    split
    · simp
    · split
      · subst_vars; simp
      · simp only [List.mem_cons, ih]; grind

theorem pairwise_insertPlace {n : Nat} {ms : List Nat} (h : ms.Pairwise (· < ·)) :
    (insertPlace n ms).Pairwise (· < ·) := by
  induction ms with
  | nil => simp [insertPlace]
  | cons k ks ih =>
    unfold insertPlace
    rw [List.pairwise_cons] at h
    split
    · simp only [List.pairwise_cons, List.mem_cons]; grind
    · split
      · exact List.pairwise_cons.mpr h
      · refine List.pairwise_cons.mpr ⟨fun m hm => ?_, ih h.2⟩
        cases mem_insertPlace.mp hm with
        | inl e => omega
        | inr hm => exact h.1 m hm

theorem mem_ordered {m : Nat} {ms : List Nat} : m ∈ ms.foldr insertPlace [] ↔ m ∈ ms := by
  induction ms with
  | nil => rfl
  | cons k ks ih => simp [mem_insertPlace, ih]

theorem pairwise_ordered (ms : List Nat) : (ms.foldr insertPlace []).Pairwise (· < ·) := by
  induction ms with
  | nil => exact .nil
  | cons k ks ih => exact pairwise_insertPlace ih

/-- The set of the places with a property, which may change at the places of a
    list only. -/
def ofPlaces (p : Nat → Bool) (changes : List Nat) : CharSet where
  edges := (changes.foldr insertPlace []).filter fun n => n < charCount && p n != before p n
  ordered := (pairwise_ordered changes).filter _
  bounded e he := by
    simp only [List.mem_filter, Bool.and_eq_true, decide_eq_true_eq] at he
    exact he.2.1

/-! ## Operations -/

/-- The set without a character. -/
def empty : CharSet := ⟨[], .nil, by simp⟩

def range (low high : Char) : CharSet :=
  ofPlaces (fun n => place low ≤ n && n ≤ place high) [place low, place high + 1]

/-- The union of some sets. -/
def unionAll (sets : List CharSet) : CharSet :=
  ofPlaces (fun n => sets.any (·.holdsAt n)) (sets.flatMap edges)

/-- Two sets, put together character by character. -/
def combined (f : Bool → Bool → Bool) (a b : CharSet) : CharSet :=
  ofPlaces (fun n => f (a.holdsAt n) (b.holdsAt n)) (a.edges ++ b.edges)

/-- What is in both of two sets. -/
def inter (a b : CharSet) : CharSet := combined (· && ·) a b

/-- What is in the first of two sets alone. -/
def diff (a b : CharSet) : CharSet := combined (· && !·) a b

/-- What is in exactly one of two sets. -/
def either (a b : CharSet) : CharSet := combined (· != ·) a b

def compl (a : CharSet) : CharSet :=
  ofPlaces (fun n => !a.holdsAt n) (0 :: a.edges)

/-- The place of the other case of a letter of ASCII. -/
def otherCase (n : Nat) : Nat :=
  if 'A'.toNat ≤ n ∧ n ≤ 'Z'.toNat then n + 32
  else if 'a'.toNat ≤ n ∧ n ≤ 'z'.toNat then n - 32
  else n

/-- A set with both cases of every letter of ASCII in it. -/
def bothCases (a : CharSet) : CharSet :=
  ofPlaces (fun n => a.holdsAt n || a.holdsAt (otherCase n)) (a.edges ++ List.range 128)

/-- The set of one character. -/
def single (c : Char) : CharSet := range c c

/-- The only character of a set. -/
def only? (s : CharSet) : Option Char :=
  match s.edges with
  | [n] => if n + 1 = charCount then some (charAt n) else none
  | [n, m] => if n + 1 = m then some (charAt n) else none
  | _ => none

def ofRanges (ranges : List (Char × Char)) : CharSet :=
  unionAll (ranges.map fun (low, high) => range low high)

/-! ## What they hold -/

/-- A property that does not change from a place `k` on is what it was before. -/
theorem eq_before {p : Nat → Bool} {k n : Nat} (hk : k ≤ n)
    (h : ∀ m, k ≤ m → m ≤ n → p m = before p m) : p n = before p k := by
  induction n with
  | zero =>
    obtain rfl : k = 0 := by omega
    exact h 0 (Nat.le_refl _) (Nat.le_refl _)
  | succ n ih =>
    by_cases e : k = n + 1
    · subst e; exact h _ (Nat.le_refl _) (Nat.le_refl _)
    · rw [h (n + 1) hk (Nat.le_refl _)]
      exact ih (by omega) fun m hm hn => h m hm (by omega)

theorem within_filter {p : Nat → Bool} {ms : List Nat} (ordered : ms.Pairwise (· < ·)) :
    ∀ k n : Nat, (∀ m ∈ ms, k ≤ m) → k ≤ n + 1 → n < charCount →
      (∀ m, k ≤ m → m ∉ ms → p m = before p m) →
      within (before p k) (ms.filter fun m => m < charCount && p m != before p m) n =
        if k = n + 1 then before p k else p n := by
  induction ms with
  | nil =>
    intro k n _ hk _ h
    simp only [List.filter_nil, within]
    split
    · rfl
    · exact (eq_before (by omega) fun m hm _ => h m hm (by simp)).symm
  | cons e es ih =>
    intro k n hge hk hn h
    rw [List.pairwise_cons] at ordered
    have he : k ≤ e := hge e (by simp)
    have rest : ∀ m, e + 1 ≤ m → m ∉ es → p m = before p m := fun m hm hne =>
      h m (by omega) (by simp only [List.mem_cons]; grind)
    have below : ∀ m, k ≤ m → m < e → p m = before p m := fun m hm hlt =>
      h m hm (by
        simp only [List.mem_cons, not_or]
        exact ⟨by omega, fun hm' => absurd (ordered.1 m hm') (by omega)⟩)
    have start : before p e = before p k := by
      rcases Nat.eq_or_lt_of_le he with rfl | hlt
      · rfl
      · obtain ⟨e', rfl⟩ : ∃ e', e = e' + 1 := ⟨e - 1, by omega⟩
        exact eq_before (by omega) fun m hm hle => below m hm (by omega)
    by_cases hne : n < e
    · have value : (if k = n + 1 then before p k else p n) = before p k := by
        split
        · rfl
        · exact eq_before (by omega) fun m hm hle => below m hm (by omega)
      rw [value]
      cases hf : (e :: es).filter fun m => m < charCount && p m != before p m with
      | nil => rfl
      | cons m ms' =>
        have hm : m ∈ e :: es := (List.mem_filter.mp (hf ▸ List.mem_cons_self)).1
        have : e ≤ m := by
          cases List.mem_cons.mp hm with
          | inl h => omega
          | inr h => exact Nat.le_of_lt (ordered.1 m h)
        simp [within, show n < m by omega]
    · have step := ih ordered.2 (e + 1) n (fun m hm => ordered.1 m hm) (by omega) hn rest
      have value : (if e + 1 = n + 1 then before p (e + 1) else p n) = p n := by
        split
        · next e' => cases e'; rfl
        · rfl
      rw [value] at step
      rw [if_neg (by omega), ← step]
      by_cases change : p e = before p e
      · have same : before p (e + 1) = before p k := by rw [← start, ← change]; rfl
        rw [List.filter_cons_of_neg (by simp [change]), same]
      · have other : before p (e + 1) = !before p k := by
          rw [← start, show before p (e + 1) = p e from rfl]
          cases hp : p e <;> cases hb : before p e <;> simp_all
        rw [List.filter_cons_of_pos (by simp [change]; omega), other, within, if_neg hne]

/-- The set of a property holds the places that have it, if the property changes
    only where it is said to. -/
theorem holdsAt_ofPlaces {p : Nat → Bool} {changes : List Nat} {n : Nat} (hn : n < charCount)
    (h : ∀ m, m ∉ changes → p m = before p m) : (ofPlaces p changes).holdsAt n = p n := by
  have := within_filter (pairwise_ordered changes) 0 n (by simp) (by omega) hn
    fun m _ hm => h m fun hmem => hm (mem_ordered.mpr hmem)
  simpa [holdsAt, ofPlaces, before] using this

theorem place_lt (c : Char) : place c < charCount := by
  have := c.valid
  simp only [place, charCount, Char.toNat, UInt32.isValidChar, Nat.isValidChar] at *
  split <;> omega

/-- A set changes at its edges only. -/
theorem within_eq_before (inside : Bool) {es : List Nat} {n : Nat} (h : n + 1 ∉ es) :
    within inside es (n + 1) = within inside es n := by
  induction es generalizing inside with
  | nil => rfl
  | cons e es ih =>
    simp only [List.mem_cons, not_or] at h
    unfold within
    rw [ih (!inside) h.2]
    by_cases hlt : n < e
    · rw [if_pos hlt, if_pos (by omega)]
    · rw [if_neg hlt, if_neg (by omega)]

theorem holdsAt_eq_before {s : CharSet} {n : Nat} (h : n ∉ s.edges) :
    s.holdsAt n = before s.holdsAt n := by
  match n, h with
  | n + 1, h => exact within_eq_before false h
  | 0, h =>
    match hs : s.edges with
    | [] => simp [holdsAt, within, before, hs]
    | e :: es =>
      have : 0 < e := Nat.pos_of_ne_zero fun he => h (by simp [hs, he])
      simp [holdsAt, within, before, hs, this]

theorem place_le_place {c d : Char} : place c ≤ place d ↔ c ≤ d := by
  have hc := c.valid
  have hd := d.valid
  simp only [place, Char.toNat, UInt32.isValidChar, Nat.isValidChar, Char.le_def,
    UInt32.le_iff_toNat_le] at *
  split <;> split <;> omega

theorem contains_range (low high c : Char) :
    (range low high).contains c = (decide (low ≤ c) && decide (c ≤ high)) := by
  have : (range low high).holdsAt (place c) = _ := holdsAt_ofPlaces (place_lt c) fun m hm => by
    simp only [List.mem_cons, List.not_mem_nil, or_false, not_or] at hm
    cases m with
    | zero => simp only [before]; grind
    | succ m => simp only [before]; grind
  rw [contains, this]
  simp only [place_le_place]

theorem contains_unionAll (sets : List CharSet) (c : Char) :
    (unionAll sets).contains c = sets.any (·.contains c) := by
  refine holdsAt_ofPlaces (place_lt c) fun m hm => ?_
  have each : ∀ s ∈ sets, s.holdsAt m = before s.holdsAt m := fun s hs =>
    holdsAt_eq_before fun he => hm (List.mem_flatMap.mpr ⟨s, hs, he⟩)
  clear hm
  induction sets with
  | nil => cases m <;> rfl
  | cons s rest ih =>
    have := ih fun s hs => each s (by simp [hs])
    have hs := each s (by simp)
    cases m with
    | zero => simp_all [before]
    | succ m => simp_all [before]

theorem contains_combined {f : Bool → Bool → Bool} (h : f false false = false) (a b : CharSet)
    (c : Char) : (combined f a b).contains c = f (a.contains c) (b.contains c) := by
  refine holdsAt_ofPlaces (place_lt c) fun m hm => ?_
  simp only [List.mem_append, not_or] at hm
  rw [holdsAt_eq_before hm.1, holdsAt_eq_before hm.2]
  cases m with
  | zero => exact h
  | succ m => rfl

theorem contains_compl (a : CharSet) (c : Char) : (compl a).contains c = !a.contains c := by
  refine holdsAt_ofPlaces (place_lt c) fun m hm => ?_
  simp only [List.mem_cons, not_or] at hm
  rw [holdsAt_eq_before hm.2]
  obtain ⟨m, rfl⟩ : ∃ k, m = k + 1 := ⟨m - 1, by omega⟩
  rfl

/-! ## Equality -/

theorem within_eq_of_lt (inside : Bool) {es : List Nat} {n : Nat} (h : ∀ e ∈ es, n < e) :
    within inside es n = inside := by
  cases es with
  | nil => rfl
  | cons e es => exact if_pos (h e (by simp))

/-- The places between edges tell where the edges are. -/
theorem eq_of_within {es fs : List Nat} (inside : Bool) (hes : es.Pairwise (· < ·))
    (hfs : fs.Pairwise (· < ·)) (bes : ∀ e ∈ es, e < charCount) (bfs : ∀ f ∈ fs, f < charCount)
    (h : ∀ n, n < charCount → within inside es n = within inside fs n) : es = fs := by
  induction es generalizing fs inside with
  | nil =>
    cases fs with
    | nil => rfl
    | cons f fs =>
      have := h f (bfs f (by simp))
      rw [within, within, if_neg (Nat.lt_irrefl f),
        within_eq_of_lt _ (List.pairwise_cons.mp hfs).1] at this
      cases inside <;> simp at this
  | cons e es ih =>
    rw [List.pairwise_cons] at hes
    cases fs with
    | nil =>
      have := h e (bes e (by simp))
      rw [within, within, if_neg (Nat.lt_irrefl e), within_eq_of_lt _ hes.1] at this
      cases inside <;> simp at this
    | cons f fs =>
      rw [List.pairwise_cons] at hfs
      rcases Nat.lt_trichotomy e f with hlt | rfl | hlt
      · have := h e (bes e (by simp))
        rw [within, within, if_neg (Nat.lt_irrefl e), if_pos hlt, within_eq_of_lt _ hes.1] at this
        cases inside <;> simp at this
      · refine congrArg _ (ih (!inside) hes.2 hfs.2 (fun e he => bes e (by simp [he]))
          (fun f hf => bfs f (by simp [hf])) fun n hn => ?_)
        by_cases hlt : n < e
        · rw [within_eq_of_lt _ fun m hm => Nat.lt_trans hlt (hes.1 m hm),
            within_eq_of_lt _ fun m hm => Nat.lt_trans hlt (hfs.1 m hm)]
        · have := h n hn
          rwa [within, within, if_neg hlt, if_neg hlt] at this
      · have := h f (bfs f (by simp))
        rw [within, within, if_neg (Nat.lt_irrefl f), if_pos hlt, within_eq_of_lt _ hfs.1] at this
        cases inside <;> simp at this

theorem toNat_ofNat {m : Nat} (h : m.isValidChar) : (Char.ofNat m).toNat = m := by
  unfold Char.ofNat
  rw [dif_pos h]
  rfl

theorem place_charAt {n : Nat} (h : n < charCount) : place (charAt n) = n := by
  simp only [charCount] at h
  unfold charAt place
  split
  · rw [toNat_ofNat (by simp only [Nat.isValidChar]; omega), if_pos (by omega)]
  · rw [toNat_ofNat (by simp only [Nat.isValidChar]; omega), if_neg (by omega)]
    omega

/-- Sets with the same characters are equal. -/
theorem eq_of_contains {a b : CharSet} (h : ∀ c, a.contains c = b.contains c) : a = b := by
  have : a.edges = b.edges :=
    eq_of_within false a.ordered b.ordered a.bounded b.bounded fun n hn => by
      simpa only [contains, holdsAt, place_charAt hn] using h (charAt n)
  cases a
  cases b
  simpa only [mk.injEq] using this

/-! ## Sets with a name -/

/-- The digits of ASCII. -/
def digits : CharSet := range '0' '9'

/-- White space in ASCII. -/
def spaces : CharSet := ofRanges [('\t', '\r'), (' ', ' ')]

/-- The characters of ASCII that words are made of. -/
def wordChars : CharSet := ofRanges [('0', '9'), ('A', 'Z'), ('_', '_'), ('a', 'z')]

/-- The sets of ASCII with their names. -/
def named : List (String × CharSet) :=
  [("alnum", ofRanges [('0', '9'), ('A', 'Z'), ('a', 'z')]),
    ("alpha", ofRanges [('A', 'Z'), ('a', 'z')]),
    ("ascii", range '\x00' '\x7F'),
    ("blank", ofRanges [('\t', '\t'), (' ', ' ')]),
    ("cntrl", ofRanges [('\x00', '\x1F'), ('\x7F', '\x7F')]),
    ("digit", digits),
    ("graph", range '!' '~'),
    ("lower", range 'a' 'z'),
    ("print", range ' ' '~'),
    ("punct", ofRanges [('!', '/'), (':', '@'), ('[', '\x60'), ('\x7B', '~')]),
    ("space", spaces),
    ("upper", range 'A' 'Z'),
    ("word", wordChars),
    ("xdigit", ofRanges [('0', '9'), ('A', 'F'), ('a', 'f')])]

/-- The set of ASCII with a name. -/
def named? (name : List Char) : Option CharSet :=
  named.lookup (String.ofList name)

end CharSet

end NamedMutex
