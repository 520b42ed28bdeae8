/-
  How an attempt ends, read off the lock file.

  All that decides about an attempt is what there is of the name on the machine: its slot in
  the lock directory and whether the file that it names is locked (`Part`).

  * `Part.verdict` says how an attempt ends; the number for a new file is all that it takes
    from the rest of the machine;
  * `gives_acquire_fails`, `gives_acquire_vain`, `gives_acquire_takes`: an attempt does what
    the verdict says;
  * `busy_of_verdict`: a timed acquisition polls unless the verdict is an error that ends it
    or the file is taken.
-/
import NamedMutex.Proofs.Deeds
import NamedMutex.Proofs.Patience

namespace NamedMutex

open FileTree

/-- What there is of a name on a machine: its slot, and who has locked the file. -/
@[ext] structure Part where
  slot : Slot
  lock : Option Descriptor

/-- How an attempt ends. -/
inductive Verdict where
  /-- The file cannot be opened, or its directory cannot be asked for. -/
  | fails (e : IoError)
  /-- The file was opened, and closed again. -/
  | vain
  /-- The file is locked and stamped. -/
  | takes (i : Inode) (mode : Nat) (owned : Bool)
  deriving DecidableEq

/-- How an attempt ends that has opened a node. -/
def Part.judge (P : Part) (i : Inode) : Option Node → Verdict
  | some ⟨.file bytes, mode, owned⟩ =>
    if P.lock = none ∧ (Utf8.decode? bytes).isSome = true then .takes i mode owned else .vain
  | _ => .vain

/-- How an attempt ends, if `next` is the number of a new file. -/
def Part.verdict (P : Part) (path : Path) (e : Bytes) (next : Inode) : Verdict :=
  match refusalAbove? path with
  | some err => .fails err
  | none =>
    match P.slot.opens path e next with
    | .error err => .fails err
    | .ok (i, n) => P.judge i n

namespace Part

variable {P : Part} {i j : Inode} {n : Option Node} {mode : Nat} {owned : Bool}

theorem judge_ne_fails {err : IoError} : P.judge i n ≠ .fails err := by
  unfold judge
  split
  · split <;> exact Verdict.noConfusion
  · exact Verdict.noConfusion

theorem judge_takes (h : P.judge i n = .takes j mode owned) : i = j ∧
    ∃ bytes, n = some ⟨.file bytes, mode, owned⟩ ∧ P.lock = none ∧
      (Utf8.decode? bytes).isSome = true := by
  unfold judge at h
  split at h
  · split at h
    · rename_i htake
      cases h
      exact ⟨rfl, _, rfl, htake⟩
    · cases h
  · cases h

/-- A file that is taken is the one that has the name, which nobody has locked, or a new one. -/
theorem verdict_takes {path : Path} {e : Bytes} {next : Inode}
    (h : P.verdict path e next = .takes i mode owned) :
    (∃ n, P.slot.found = some (i, n) ∧ P.lock = none) ∨ i = next := by
  unfold verdict at h
  split at h
  · cases h
  split at h
  · cases h
  rename_i j n hopens
  obtain ⟨rfl, -, -, hfree, -⟩ := judge_takes h
  rcases P.slot.opens_cases path e with ⟨opened, hall, hfound⟩ | ⟨-, hall⟩
  · rw [hall] at hopens
    exact Or.inl ⟨n, (Slot.follow_eq_ok_iff.1 (hfound j n hopens)).2.2.2, hfree⟩
  · rw [hall] at hopens
    cases hopens
    exact Or.inr rfl

/-- What may be the matter with a node that was opened in vain. -/
theorem judge_vain (h : P.judge i n = .vain) : (∃ d, P.lock = some d) ∨
    (∃ bytes mode owned, n = some ⟨.file bytes, mode, owned⟩ ∧ Utf8.decode? bytes = none) ∨
    ∀ bytes mode owned, n ≠ some ⟨.file bytes, mode, owned⟩ := by
  unfold judge at h
  split at h
  · split at h
    · cases h
    · rename_i hnot
      cases hlock : P.lock with
      | some d => exact Or.inl ⟨d, rfl⟩
      | none =>
        have hbad := Option.not_isSome_iff_eq_none.1 fun htext => hnot ⟨hlock, htext⟩
        exact Or.inr (Or.inl ⟨_, _, _, rfl, hbad⟩)
  · rename_i hnot
    exact Or.inr (Or.inr fun _ _ _ hn => hnot _ _ _ hn)

end Part

/-- What a verdict does. -/
def Verdict.deed (me : Pid) (d : Descriptor) : Verdict → Deed
  | takes i mode owned => .take me i d mode owned
  | _ => .nothing

namespace Machine

/-- What there is of a name of a directory on a machine. -/
def part (m : Machine) (D : Inode) (e : Bytes) : Part :=
  ⟨m.tree.slot D e, (m.tree.child? D e).bind m.locks.get?⟩

variable {m : Machine} {me : Pid} {dir path : Path} {D i : Inode} {e : Bytes} {name : String}
  {mode : Nat} {owned : Bool} {err : IoError}

/-! ## Opening the file -/

theorem opens_cases {t : FileTree} {n : Option Node} {next : Inode} (hd : t.isDirectory D = true)
    (he : IsEntryName e) (h : (t.slot D e).opens path e next = .ok (i, n)) :
    (t.child? D e = some i ∧ t.node? i = n) ∨
      (t.LooksUp D e none ∧ i = next ∧ n = some ⟨.file [], fileMode, true⟩) := by
  rcases (t.slot D e).opens_cases path e with ⟨opened, hall, hfound⟩ | ⟨hfollow, hall⟩
  · rw [hall] at h
    exact Or.inl (slot_found (Slot.follow_eq_ok_iff.1 (hfound i n h)).2.2.2)
  · obtain ⟨-, hsearch, hlen, hfound⟩ := Slot.follow_eq_ok_iff.1 hfollow
    have hchild : t.child? D e = none := Option.map_eq_none_iff.1 hfound
    obtain ⟨parent, entries, hentries⟩ := isDirectory_iff.1 hd
    rw [hall] at h
    cases h
    exact Or.inr ⟨⟨hsearch, ⟨he.1, he.2.1, he.2.2, hlen⟩, parent, entries, hentries,
      (child?_eq hentries).symm.trans hchild⟩, rfl, rfl⟩

/-! ## Attempts -/

section Attempts
variable (hw : m.WellFormed) (hf : m.tree.Finds dir D) (hname : IsValidName name)
  (hlink : m.tree.NoLink D (lockEntry name))
include hw hf hname hlink

theorem opened_of_opens {n : Option Node}
    (h : (m.tree.slot D (lockEntry name)).opens (lockPath dir name) (lockEntry name) m.tree.next =
      .ok (i, n)) :
    m.tree.openPath [.read, .write] (lockPath dir name) =
        .ok (m.tree.withFile D (lockEntry name), i) ∧
      (m.tree.withFile D (lockEntry name)).Leads (lockPath dir name) i ∧
      (m.tree.withFile D (lockEntry name)).node? i = n ∧
      m.locks.get? i = (m.part D (lockEntry name)).lock := by
  have hopen : m.tree.openPath [.read, .write] (lockPath dir name) =
      .ok (m.tree.withFile D (lockEntry name), i) := by
    rw [hf.openPath hname hlink, h]
    rfl
  have hleads : (m.tree.withFile D (lockEntry name)).Leads (lockPath dir name) i := by
    rcases openPath_cases hw.tree hopen with ⟨hsame, hl, -⟩ | ⟨-, -, -, hl, -⟩
    · rwa [hsame]
    · exact hl
  refine ⟨hopen, hleads, ?_, ?_⟩
  · rcases opens_cases hf.isDirectory (isEntryName_lockEntry name) h with
      ⟨hchild, hn⟩ | ⟨hl, rfl, rfl⟩
    · simpa only [withFile, hchild] using hn
    · have hchild : m.tree.child? D (lockEntry name) = none := hl.child_eq
      simp only [withFile, hchild]
      exact create_node hw.tree hl
  · rcases opens_cases hf.isDirectory (isEntryName_lockEntry name) h with
      ⟨hchild, -⟩ | ⟨hl, rfl, -⟩
    · simp only [part, hchild, Option.bind_some]
    · have hchild : m.tree.child? D (lockEntry name) = none := hl.child_eq
      simp only [part, hchild, Option.bind_none, hw.locks_next]

omit hw in
/-- **An attempt that fails** ends with an error, or with nothing, and does nothing. -/
theorem gives_acquire_fails
    (h : (m.part D (lockEntry name)).verdict (lockPath dir name) (lockEntry name) m.tree.next =
      .fails err) : m.Gives me (Handle.acquire dir name)
        (Handle.ofOutcome name (lockPath dir name) (failing err)) m := by
  refine gives_acquire_of_attempt hname ?_
  unfold Part.verdict at h
  split at h
  · -- the directory cannot be asked for
    rename_i habove
    cases h
    obtain ⟨q, hq, -⟩ := Option.bind_eq_some_iff.1 habove
    have hanswer : m.answer me (.makeDirs q) = (.error err, m) := by
      simp only [answer, hf.makeDirs hname hq, habove]
      rfl
    refine Ends.within ?_ _
    rw [hq]
    exact Ends.ask rfl hanswer (gives_fail m me err _)
  · -- the file cannot be opened
    rename_i habove
    split at h
    · rename_i hopens
      cases h
      have hopen : m.tree.openPath [.read, .write] (lockPath dir name) = .error err := by
        rw [hf.openPath hname hlink]
        exact congrArg _ hopens
      refine gives_attempt (fun q hq => ?_) (gives_tryRounds_failed hopen)
      rw [hf.makeDirs hname hq, habove]
    · exact absurd h Part.judge_ne_fails

theorem gives_acquire_refused {n : Option Node}
    (habove : refusalAbove? (lockPath dir name) = none)
    (hopens : (m.tree.slot D (lockEntry name)).opens (lockPath dir name) (lockEntry name)
      m.tree.next = .ok (i, n)) (hchild : m.tree.child? D (lockEntry name) = some i)
    (h : (∃ d, (m.part D (lockEntry name)).lock = some d) ∨
      (∃ bytes mode owned, n = some ⟨.file bytes, mode, owned⟩ ∧ Utf8.decode? bytes = none) ∨
      ∀ bytes mode owned, n ≠ some ⟨.file bytes, mode, owned⟩) :
    m.Gives me (Handle.acquire dir name) (.ok (.ofAttempt name (lockPath dir name) none))
      (m.skip 1) := by
  have hsame : m.tree.withFile D (lockEntry name) = m.tree := by simp only [withFile, hchild]
  obtain ⟨hopen, hleads, hnode, hlock⟩ := opened_of_opens hw hf hname hlink hopens
  rw [hsame] at hopen hleads hnode
  have hattempt : m.Gives me (Attempt.tryRounds (lockPath dir name) Attempt.rounds) (.ok none)
      (m.passed m.tree) := by
    cases hheld : m.locks.get? i with
    | some d => exact gives_tryRounds_refused hopen hw hheld
    | none =>
      rcases h with ⟨d, hd⟩ | ⟨bytes, mode, owned, rfl, hbad⟩ | hn
      · rw [← hlock, hheld] at hd
        cases hd
      · refine gives_tryRounds_illegible hopen hw hleads hheld ?_
        rw [bytesOf_eq, hnode]
        exact hbad
      · exact gives_tryRounds_device hopen hw hleads hheld (hnode ▸ hn)
  refine gives_acquire_of_attempt hname (gives_attempt (fun q hq => ?_) hattempt)
  rw [hf.makeDirs hname hq, habove]

/-- **An attempt in vain** opens a file, and closes it again. -/
theorem gives_acquire_vain
    (h : (m.part D (lockEntry name)).verdict (lockPath dir name) (lockEntry name) m.tree.next =
      .vain) : m.Gives me (Handle.acquire dir name)
        (.ok (.ofAttempt name (lockPath dir name) none)) (m.skip 1) := by
  unfold Part.verdict at h
  split at h
  · cases h
  rename_i habove
  split at h
  · cases h
  rename_i i n hopens
  have hvain := Part.judge_vain h
  refine gives_acquire_refused hw hf hname hlink habove hopens ?_ hvain
  rcases opens_cases hf.isDirectory (isEntryName_lockEntry name) hopens with
    ⟨hchild, -⟩ | ⟨hl, rfl, rfl⟩
  · exact hchild
  · -- a new file is not locked, and holds text
    rcases hvain with ⟨d, hlock⟩ | ⟨bytes, _, _, hn, hbad⟩ | hn
    · simp only [part, hl.child_eq, Option.bind_none] at hlock
      cases hlock
    · cases hn
      cases hbad
    · exact absurd rfl (hn _ _ _)

/-- **An attempt that takes the file** locks and stamps it. -/
theorem gives_acquire_takes
    (h : (m.part D (lockEntry name)).verdict (lockPath dir name) (lockEntry name) m.tree.next =
      .takes i mode owned) : ∃ m', m.Gives me (Handle.acquire dir name)
        (.ok (.ofAttempt name (lockPath dir name) (some m.nextDescriptor))) m' ∧
      m.Does D (lockEntry name) (.take me i m.nextDescriptor mode owned) m' ∧
      m'.registries = m.registries := by
  unfold Part.verdict at h
  split at h
  · cases h
  rename_i habove
  split at h
  · cases h
  rename_i j n hopens
  obtain ⟨rfl, bytes, rfl, hfree, htext⟩ := Part.judge_takes h
  obtain ⟨content, hcontent⟩ := Option.isSome_iff_exists.1 htext
  obtain ⟨hopen, hleads, hnode, hlock⟩ := opened_of_opens hw hf hname hlink hopens
  refine ⟨_, gives_acquire_of_attempt hname (gives_attempt (fun q hq => ?_)
    (gives_tryRounds_taken hopen hleads hnode (hlock.trans hfree) hcontent)), does_taken ?_, rfl⟩
  · rw [hf.makeDirs hname hq, habove]
  rcases opens_cases hf.isDirectory (isEntryName_lockEntry name) hopens with
    ⟨hchild, hn⟩ | ⟨hl, rfl, hn⟩
  · simp only [withFile, hchild]
    exact does_stamp hw.tree hf.isDirectory hchild hn me _
  · cases hn
    simp only [withFile, hl.child_eq]
    exact does_create hw.tree hl me _

/-- While nothing changes, attempts in vain are followed by attempts in vain. -/
theorem busy_of_verdict
    (h : (m.part D (lockEntry name)).verdict (lockPath dir name) (lockEntry name) m.tree.next = .vain ∨
      ∃ err, ¬ err.IsFatal ∧
        (m.part D (lockEntry name)).verdict (lockPath dir name) (lockEntry name) m.tree.next =
          .fails err) : m.Busy me dir name := by
  intro n
  rcases h with h | ⟨err, hfatal, h⟩
  · exact ⟨n + 1, gives_acquire_vain (hw.skip n) hf hname hlink h⟩
  · have hgives : (m.skip n).Gives me (Handle.acquire dir name) _ _ :=
      gives_acquire_fails hf hname hlink h
    rw [failing, if_neg hfatal] at hgives
    exact ⟨n, hgives⟩

end Attempts

end Machine

end NamedMutex
