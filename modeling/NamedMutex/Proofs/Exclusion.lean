/-
  Mutual exclusion.

  Whatever fails, and whoever dies: a handle that an attempt has yielded acquired,
  and that is not released yet, has the lock of the very file to which the path
  leads.  So there is at most one such handle.

  * `Sound.acquired` reads off what such a handle has from the role of its party;
  * `exclusion` is the main statement.
-/
import NamedMutex.Proofs.Alone
import NamedMutex.Proofs.Plays

namespace NamedMutex

namespace Contest

variable {dir : Path} {name : String} {s : Contest}

/-- A living party has acquired the mutex, and has not begun to release it. -/
def Acquired (s : Contest) (k : Nat) (h : Handle) : Prop :=
  ∃ P, s.Live k P ∧ P.stage = .attempting (.done (.ok h)) ∧ h.isAcquired = true

/-- The file of a handle is one of the process of its party; it has the lock of a
    node, and the path leads to that node. -/
def HasLinked (s : Contest) (path : Path) (k : Nat) (h : Handle) : Prop :=
  ∃ P d f, s.Live k P ∧ h.held = some d ∧ s.machine.opened.get? d = some f ∧
    f.process = P.process ∧ s.machine.locks.get? f.inode = some d ∧ s.machine.tree.Leads path f.inode

theorem Sound.acquired {ρ : Roles} (hs : Sound dir name s ρ) {k : Nat} {P : Party} {h : Handle}
    (hk : s.Live k P) (hstage : P.stage = .attempting (.done (.ok h)))
    (hacq : h.isAcquired = true) : ∃ d, h.held = some d ∧ ρ k = .owner d .stamped := by
  obtain ⟨d, hd⟩ := Option.isSome_iff_exists.1 hacq
  have hobeys := hs.obeys k P hk.1
  rw [hstage] at hobeys
  have hhandle : (Stage.attempting (.done (.ok h))).handle? = some h := rfl
  obtain ⟨-, hrole, -⟩ := hobeys.handle hhandle
  exact ⟨d, hd, hrole d hd⟩

theorem Sound.owner {ρ : Roles} (hs : Sound dir name s ρ) {k : Nat} {P : Party}
    (hk : s.Live k P) {d : Descriptor} {w : Progress} (hrole : ρ k = .owner d w) :
    ∃ f, s.machine.opened.get? d = some f ∧ f.process = P.process ∧
      s.machine.locks.get? f.inode = some d ∧
      s.machine.tree.Leads (lockPath dir name) f.inode := by
  obtain ⟨f, hf, hpid, -, hach⟩ := (hs.holds k P hk).file d (by rw [hrole]; rfl)
  rw [hrole] at hach
  exact ⟨f, hf, hpid, hach.1, hach.2.1⟩

/-- Two owners have the lock of the same node, hence the same file: they are one. -/
theorem Sound.owner_unique {ρ : Roles} (hs : Sound dir name s ρ) {j k : Nat} {P Q : Party}
    (hj : s.Live j Q) (hk : s.Live k P) {d d' : Descriptor} {w w' : Progress}
    (hrj : ρ j = .owner d' w') (hrk : ρ k = .owner d w) : j = k := by
  obtain ⟨f, -, -, hlock, hl⟩ := hs.owner hk hrk
  obtain ⟨f', -, -, hlock', hl'⟩ := hs.owner hj hrj
  rw [hl'.unique hl, hlock] at hlock'
  cases hlock'
  exact hs.apart j k Q P d hj hk (by rw [hrj]; rfl) (by rw [hrk]; rfl)

/-- **Mutual exclusion.**  In every state of every run, whatever failed before and
    whoever died: a handle that is acquired and not released has the lock of the
    file to which the path leads, and there is no second such handle. -/
theorem exclusion {m : Machine} (hw : m.WellFormed) {past : Past}
    (hrun : Run dir name m past s) : ∀ k h, s.Acquired k h →
      s.HasLinked (lockPath dir name) k h ∧ ∀ j h', s.Acquired j h' → j = k := by
  obtain ⟨ρ, hplay⟩ := hrun.play hw
  have hs := hplay.sound hw
  rintro k h ⟨P, hk, hstage, hacq⟩
  obtain ⟨d, hd, hrole⟩ := hs.acquired hk hstage hacq
  obtain ⟨f, hf, hpid, hlock, hleads⟩ := hs.owner hk hrole
  refine ⟨⟨P, d, f, hk, hd, hf, hpid, hlock, hleads⟩, ?_⟩
  rintro j h' ⟨Q, hj, hstage', hacq'⟩
  obtain ⟨d', -, hrole'⟩ := hs.acquired hj hstage' hacq'
  exact hs.owner_unique hj hk hrole' hrole

/-- The first of two attempts excludes the second. -/
theorem exclusion_of_two : ∃ past s h, Run root "a" (.bare 1) past s ∧ s.Acquired 0 h ∧
    s.HasLinked (lockPath root "a") 0 h ∧ ∀ j h', s.Acquired j h' → j = 0 := by
  obtain ⟨past, s, P, _, h, _, hrun, hparties, ⟨-, halive, hstage, hacq⟩, -⟩ := exists_two_attempts
  have hacquired : s.Acquired 0 h := ⟨P, ⟨hparties 0, halive⟩, hstage, hacq⟩
  exact ⟨past, s, h, hrun, hacquired, exclusion (Machine.bare_wellFormed 1) hrun 0 h hacquired⟩

end Contest

end NamedMutex
