/-
  Finite tables.

  A table maps some keys to values and keeps its keys in the order in which
  they came.

  * `get?` is the view of a table; `get?_insert`, `get?_erase` and
    `get?_filter` say what the operations do to it;
  * no key comes twice in the tables that the operations make
    (`nodup_insert`, `nodup_erase`, `nodup_filter`);
  * a new key goes to the end (`insert_of_fresh`), so taking it away again restores
    the table as it was (`erase_insert`, `filter_insert`).
-/

namespace NamedMutex

/-- A finite map from `κ` to `ν`. -/
structure Table (κ ν : Type) where
  entries : List (κ × ν)
  deriving Repr

namespace Table

variable {κ ν : Type} [DecidableEq κ]

def empty : Table κ ν := ⟨[]⟩

/-- The value of a key. -/
def get? (t : Table κ ν) (k : κ) : Option ν :=
  (t.entries.find? fun e => decide (e.1 = k)).map (·.2)

/-- Whether a key has a value. -/
def contains (t : Table κ ν) (k : κ) : Bool := (t.get? k).isSome

/-- The entries with a new value for a key, in its old place or at the end. -/
def put (k : κ) (v : ν) : List (κ × ν) → List (κ × ν)
  | [] => [(k, v)]
  | (k', v') :: rest => if k' = k then (k, v) :: rest else (k', v') :: put k v rest

/-- Gives a key a value. -/
def insert (t : Table κ ν) (k : κ) (v : ν) : Table κ ν := ⟨put k v t.entries⟩

/-- Takes the value of a key away. -/
def erase (t : Table κ ν) (k : κ) : Table κ ν :=
  ⟨t.entries.filter fun e => decide (e.1 ≠ k)⟩

/-- Keeps the entries that satisfy `p`. -/
def filter (t : Table κ ν) (p : κ → ν → Bool) : Table κ ν :=
  ⟨t.entries.filter fun e => p e.1 e.2⟩

/-- The keys in their order. -/
def keys (t : Table κ ν) : List κ := t.entries.map (·.1)

def isEmpty (t : Table κ ν) : Bool := t.entries.isEmpty

@[simp] theorem get?_empty (k : κ) : (empty : Table κ ν).get? k = none := rfl

theorem find?_put (k j : κ) (v : ν) (l : List (κ × ν)) :
    ((put k v l).find? fun e => decide (e.1 = j)).map (·.2) =
      if j = k then some v else (l.find? fun e => decide (e.1 = j)).map (·.2) := by
  induction l with
  | nil => by_cases h : k = j <;> simp [put, h, eq_comm]
  | cons e l ih =>
    obtain ⟨i, w⟩ := e
    by_cases hi : i = k
    · subst hi
      by_cases h : i = j
      · subst h; simp [put]
      · simp [put, h, Ne.symm h]
    · by_cases hj : i = j
      · subst hj; simp [put, hi]
      · simp [put, hi, hj, ih]

theorem get?_insert (t : Table κ ν) (k j : κ) (v : ν) :
    (t.insert k v).get? j = if j = k then some v else t.get? j :=
  find?_put k j v t.entries

@[simp] theorem get?_insert_self (t : Table κ ν) (k : κ) (v : ν) :
    (t.insert k v).get? k = some v := by
  simp [get?_insert]

theorem get?_erase (t : Table κ ν) (k j : κ) :
    (t.erase k).get? j = if j = k then none else t.get? j := by
  obtain ⟨l⟩ := t
  simp only [get?, erase]
  induction l with
  | nil => simp
  | cons e l ih =>
    by_cases he : e.1 = k
    · by_cases h : j = k
      · simp [h]
      · simpa [he, h, Ne.symm h] using ih
    · by_cases hj : e.1 = j
      · have h : ¬ j = k := fun h => he (hj.trans h)
        simp [hj, h]
      · simpa [he, hj] using ih

theorem get?_eq_some_iff {t : Table κ ν} (h : t.keys.Nodup) {k : κ} {v : ν} :
    t.get? k = some v ↔ (k, v) ∈ t.entries := by
  obtain ⟨l⟩ := t
  simp only [get?, keys] at h ⊢
  induction l with
  | nil => simp
  | cons e l ih =>
    obtain ⟨j, w⟩ := e
    obtain ⟨hj, hl⟩ := List.nodup_cons.1 h
    by_cases hk : j = k
    · subst hk
      have hn : (j, v) ∉ l := fun hm => hj (List.mem_map.2 ⟨_, hm, rfl⟩)
      simp [hn, eq_comm]
    · simpa [hk, Ne.symm hk] using ih hl

theorem keys_put (k : κ) (v : ν) (l : List (κ × ν)) :
    (put k v l).map (·.1) = if k ∈ l.map (·.1) then l.map (·.1) else l.map (·.1) ++ [k] := by
  induction l with
  | nil => simp [put]
  | cons e l ih =>
    obtain ⟨j, w⟩ := e
    by_cases hj : j = k
    · simp [put, hj]
    · simp only [put, if_neg hj, List.map_cons, ih, List.mem_cons, Ne.symm hj, false_or]
      split <;> simp

theorem nodup_insert {t : Table κ ν} (h : t.keys.Nodup) (k : κ) (v : ν) :
    (t.insert k v).keys.Nodup := by
  simp only [keys, insert, keys_put]
  split
  · exact h
  · rename_i hk
    refine List.nodup_append.2 ⟨h, by simp, ?_⟩
    intro a ha b hb
    rw [List.mem_singleton.1 hb]
    exact fun hab => hk (hab ▸ ha)

omit [DecidableEq κ] in
theorem nodup_filter {t : Table κ ν} (h : t.keys.Nodup) (p : κ → ν → Bool) :
    (t.filter p).keys.Nodup :=
  h.sublist ((List.filter_sublist (l := t.entries)).map _)

theorem nodup_erase {t : Table κ ν} (h : t.keys.Nodup) (k : κ) : (t.erase k).keys.Nodup :=
  h.sublist ((List.filter_sublist (l := t.entries)).map _)

theorem get?_filter {t : Table κ ν} (h : t.keys.Nodup) {p : κ → ν → Bool} {k : κ} {v : ν} :
    (t.filter p).get? k = some v ↔ t.get? k = some v ∧ p k v := by
  rw [get?_eq_some_iff (nodup_filter h p), get?_eq_some_iff h]
  simp [filter]

/-! ## Tables that are restored -/

theorem put_put (k : κ) (v w : ν) (l : List (κ × ν)) : put k w (put k v l) = put k w l := by
  induction l with
  | nil => simp [put]
  | cons e l ih =>
    obtain ⟨j, u⟩ := e
    by_cases hj : j = k
    · simp [put, hj]
    · simp [put, hj, ih]

@[simp] theorem insert_insert (t : Table κ ν) (k : κ) (v w : ν) :
    (t.insert k v).insert k w = t.insert k w :=
  congrArg Table.mk (put_put k v w t.entries)

theorem get?_eq_none_iff {t : Table κ ν} {k : κ} :
    t.get? k = none ↔ ∀ e ∈ t.entries, e.1 ≠ k := by
  simp [get?]

/-- A new key goes to the end. -/
theorem insert_of_fresh {t : Table κ ν} {k : κ} (h : t.get? k = none) (v : ν) :
    t.insert k v = ⟨t.entries ++ [(k, v)]⟩ := by
  obtain ⟨l⟩ := t
  have hl := get?_eq_none_iff.1 h
  suffices put k v l = l ++ [(k, v)] from congrArg Table.mk this
  clear h
  induction l with
  | nil => rfl
  | cons e l ih =>
    obtain ⟨he, hl⟩ := List.forall_mem_cons.1 hl
    simp only [put, if_neg he, ih hl, List.cons_append]

/-- A filter that drops a new entry only undoes its insertion. -/
theorem filter_insert {t : Table κ ν} {k : κ} (h : t.get? k = none) {v : ν} {p : κ → ν → Bool}
    (hp : p k v = false) (hall : ∀ e ∈ t.entries, p e.1 e.2 = true) :
    (t.insert k v).filter p = t := by
  obtain ⟨l⟩ := t
  have hl : l.filter (fun e => p e.1 e.2) = l := List.filter_eq_self.2 hall
  simp [insert_of_fresh h, filter, hl, hp]

omit [DecidableEq κ] in
@[simp] theorem filter_filter_self (t : Table κ ν) (p : κ → ν → Bool) :
    (t.filter p).filter p = t.filter p := by
  simp [filter, List.filter_filter]

theorem erase_insert {t : Table κ ν} {k : κ} (h : t.get? k = none) (v : ν) :
    (t.insert k v).erase k = t :=
  filter_insert (p := fun j _ => decide (j ≠ k)) h (by simp)
    fun e he => by simpa using get?_eq_none_iff.1 h e he

end Table

end NamedMutex
