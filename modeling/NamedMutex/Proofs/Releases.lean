/-
  What a release says and is told.

  A handle that holds its mutex removes its file, unlocks and closes it, in this order and
  whatever the calls before were answered; the failure of a removal or of an unlocking is
  reported, and that is all that comes of it.

  * `Handle.farewell` is what a release has on record, for two answers;
  * `Handle.dialogue_release_iff`: the dialogues of a release are these, and all end with the
    handle released; `Guard.dialogue_drop_iff`: a guard takes its registration back besides.
-/
import NamedMutex.Proofs.Series

namespace NamedMutex

open Program

/-- What is reported of the removal of a lock file. -/
def removalReports (path : Path) : Except IoError Unit → List Exchange
  | .ok () => []
  | .error e =>
    if e.kind = .notFound then [] else [⟨.say (.event [] (.removeFailed path e)), ()⟩]

/-- What is reported of the unlocking of a lock file. -/
def unlockReports (path : Path) : Except IoError Unit → List Exchange
  | .ok () => []
  | .error e => [⟨.say (.event [] (.unlockFailed path e)), ()⟩]

/-- What the release of a handle that has locked the file `d` has on record, for the answers
    to its removal and to its unlocking. -/
def Handle.farewell (h : Handle) (d : Descriptor) (removed unlocked : Except IoError Unit) :
    List Exchange :=
  ⟨.unlink h.path, removed⟩ :: (removalReports h.path removed ++
    ⟨.unlock d, unlocked⟩ :: (unlockReports h.path unlocked ++
      [⟨.say (.event [] (.released h.name)), ()⟩, ⟨.close d, ()⟩]))

section Release
variable {me : Pid} {h : Handle} {d : Descriptor} {told : List Exchange}

theorem dialogue_removeFile_iff {path : Path} {z : Completion Unit} :
    Dialogue me (Handle.removeFile path) told z ↔
      ∃ x, told = ⟨.unlink path, x⟩ :: removalReports path x ∧ z = .returned () := by
  rw [Handle.removeFile, dialogue_call_iff]
  refine exists_congr fun x => ?_
  cases x with
  | ok u =>
    constructor
    · rintro ⟨rest, -, hrest, rfl⟩
      obtain ⟨rfl, rfl⟩ := dialogue_pure_iff.1 hrest
      exact ⟨rfl, rfl⟩
    · rintro ⟨rfl, rfl⟩
      exact ⟨[], trivial, .done, rfl⟩
  | error e =>
    dsimp only [removalReports]
    by_cases hkind : e.kind = .notFound
    · rw [if_pos hkind, if_pos hkind]
      constructor
      · rintro ⟨rest, -, hrest, rfl⟩
        obtain ⟨rfl, rfl⟩ := dialogue_pure_iff.1 hrest
        exact ⟨rfl, rfl⟩
      · rintro ⟨rfl, rfl⟩
        exact ⟨[], trivial, .done, rfl⟩
    · rw [if_neg hkind, if_neg hkind]
      constructor
      · rintro ⟨rest, -, hrest, rfl⟩
        cases hrest with
        | ask _ hdone =>
          cases hdone
          exact ⟨rfl, rfl⟩
      · rintro ⟨rfl, rfl⟩
        exact ⟨_, trivial, .ask trivial .done, rfl⟩

theorem dialogue_closeFile_iff {path : Path} {name : String} {z : Completion Unit} :
    Dialogue me (Handle.closeFile path name d) told z ↔
      ∃ y, told = ⟨.unlock d, y⟩ :: (unlockReports path y ++
        [⟨.say (.event [] (.released name)), ()⟩, ⟨.close d, ()⟩]) ∧ z = .returned () := by
  have hend : ∀ rest, Dialogue me (report (.released name) >>= fun _ => call (.close d)) rest z ↔
      rest = [⟨.say (.event [] (.released name)), ()⟩, ⟨.close d, ()⟩] ∧ z = .returned () := by
    intro rest
    rw [dialogue_report_iff]
    constructor
    · rintro ⟨rest, hrest, rfl⟩
      cases hrest with
      | ask _ hdone =>
        cases hdone
        exact ⟨rfl, rfl⟩
    · rintro ⟨rfl, rfl⟩
      exact ⟨_, .ask trivial .done, rfl⟩
  rw [Handle.closeFile, dialogue_call_iff]
  refine exists_congr fun y => ?_
  cases y with
  | ok u =>
    constructor
    · rintro ⟨rest, -, hrest, rfl⟩
      obtain ⟨rfl, rfl⟩ := (hend rest).1 hrest
      exact ⟨rfl, rfl⟩
    · rintro ⟨rfl, rfl⟩
      exact ⟨_, trivial, (hend _).2 ⟨rfl, rfl⟩, rfl⟩
  | error e =>
    constructor
    · rintro ⟨rest, -, hrest, rfl⟩
      obtain ⟨last, hlast, rfl⟩ := dialogue_report_iff.1 hrest
      obtain ⟨rfl, rfl⟩ := (hend last).1 hlast
      exact ⟨rfl, rfl⟩
    · rintro ⟨rfl, rfl⟩
      exact ⟨_, trivial, .report _ ((hend _).2 ⟨rfl, rfl⟩), rfl⟩

/-- **The dialogues of a release.**  A handle that holds its mutex is released, whatever its
    calls are answered. -/
theorem Handle.dialogue_release_iff {z : Completion Handle} (hd : h.held = some d) :
    Dialogue me h.release told z ↔
      ∃ x y, told = h.farewell d x y ∧ z = .returned h.released := by
  rw [Handle.release, hd]
  constructor
  · intro hrelease
    rcases Dialogue.of_bind hrelease with ⟨_, t₁, t₂, hremove, hrest, rfl⟩ | ⟨_, hremove, -⟩
    · obtain ⟨x, rfl, -⟩ := dialogue_removeFile_iff.1 hremove
      rcases Dialogue.of_bind hrest with ⟨_, t₂, t₃, hclose, hdone, rfl⟩ | ⟨_, hclose, -⟩
      · obtain ⟨y, rfl, -⟩ := dialogue_closeFile_iff.1 hclose
        obtain ⟨rfl, rfl⟩ := dialogue_pure_iff.1 hdone
        exact ⟨x, y, by simp [farewell], rfl⟩
      · obtain ⟨y, -, hz⟩ := dialogue_closeFile_iff.1 hclose
        cases hz
    · obtain ⟨x, -, hz⟩ := dialogue_removeFile_iff.1 hremove
      cases hz
  · rintro ⟨x, y, rfl, rfl⟩
    refine Dialogue.bind (dialogue_removeFile_iff.2 ⟨x, rfl, rfl⟩) ?_
    rw [← List.append_nil (_ :: (_ ++ [_, _]))]
    exact Dialogue.bind (dialogue_closeFile_iff.2 ⟨y, rfl, rfl⟩) .done

/-- **The dialogues of the drop of a guard.** -/
theorem Guard.dialogue_drop_iff {g : Guard} {z : Completion Unit} (hd : g.handle.held = some d) :
    Dialogue me g.drop told z ↔ ∃ x y,
      told = g.handle.farewell d x y ++ [⟨.unregister g.handle.path, ()⟩] ∧ z = .returned () := by
  have hpath : g.handle.released.path = g.handle.path := by rw [Handle.released_eq]
  rw [Guard.drop]
  constructor
  · intro hdrop
    rcases Dialogue.of_bind hdrop with ⟨h', t₁, t₂, hrelease, hrest, rfl⟩ | ⟨_, hrelease, -⟩
    · obtain ⟨x, y, rfl, hh⟩ := (Handle.dialogue_release_iff hd).1 hrelease
      cases hh
      cases hrest with
      | ask _ hdone =>
        cases hdone
        exact ⟨x, y, by rw [hpath]; rfl, rfl⟩
    · obtain ⟨x, y, -, hz⟩ := (Handle.dialogue_release_iff hd).1 hrelease
      cases hz
  · rintro ⟨x, y, rfl, rfl⟩
    refine Dialogue.bind ((Handle.dialogue_release_iff hd).2 ⟨x, y, rfl, rfl⟩) ?_
    rw [← hpath]
    exact .ask trivial .done

end Release

end NamedMutex
