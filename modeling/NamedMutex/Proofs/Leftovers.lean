/-
  What an attempt leaves behind.

  An attempt has one file open at a time, that of its role.  So it leaves none behind if its
  last role has none, whatever it was told, and nothing more than its process had before is
  open or locked then, whatever others have done meanwhile.

  * `Proceeds.closes`: the file of a role is closed before there is a role without one;
  * `Adds`: a process has open and locked what it had before, and the file of its role;
    `Obeys.adds`: that is so of a program that follows the protocol, among others;
  * `attempt_classified`: when an attempt fails, when it yields a file, and what it leaves
    behind otherwise.
-/
import NamedMutex.Proofs.Faults

namespace NamedMutex

open Program

/-! ## Files that were opened -/

section Proceeds
variable {path : Path} {me : Pid} {r r' : Role} {told before after : List Exchange}
  {d : Descriptor}

theorem Proceeds.of_append (h : Proceeds path me r (before ++ after) r') :
    ∃ r₁, Proceeds path me r before r₁ ∧ Proceeds path me r₁ after r' := by
  induction before generalizing r with
  | nil => exact ⟨r, .nil, h⟩
  | cons x before ih =>
    cases h with
    | cons hfollows hrest =>
      obtain ⟨r₁, hbefore, hafter⟩ := ih hrest
      exact ⟨r₁, .cons hfollows hbefore, hafter⟩

theorem Follows.opened_eq {p : Path} {x : Except IoError Descriptor}
    (h : Follows path me r (.openFile p) x r') (hx : x = .ok d) : r' = .opened d := by
  cases h with
  | opened =>
    cases hx
    rfl
  | unopened => cases hx
  | stamped hs | unstamped hs => cases hs

/-- A file is closed before there is a role without one. -/
theorem Proceeds.closes (h : Proceeds path me r told r') (hr : r.file = some d)
    (hr' : r'.file = none) : ⟨.close d, ()⟩ ∈ told := by
  induction h with
  | nil =>
    rw [hr] at hr'
    cases hr'
  | @cons r₁ r₂ r' x told hfollows _ ih =>
    obtain ⟨c, x⟩ := x
    have hstep : Follows path me r₁ c x r₂ := hfollows
    cases hc : c.opensOrCloses with
    | false => exact List.mem_cons_of_mem _ (ih ((hstep.file_eq hc).trans hr) hr')
    | true =>
      cases hstep with
      | opened hopens | unopened hopens =>
        rw [hopens.file] at hr
        cases hr
      | close =>
        cases hr
        exact List.mem_cons_self ..
      | stamped hs | unstamped hs => cases hs <;> cases hc
      | _ => cases hc

/-- Whatever file is opened on the way to a role without one, is closed after that. -/
theorem Proceeds.closes_opened {p : Path} (h : Proceeds path me r told r') (hr' : r'.file = none)
    (htold : told = before ++ ⟨.openFile p, .ok d⟩ :: after) : ⟨.close d, ()⟩ ∈ after := by
  rw [htold] at h
  obtain ⟨r₁, -, hafter⟩ := h.of_append
  cases hafter with
  | cons hfollows hrest =>
    have hopened := Follows.opened_eq hfollows rfl
    exact hrest.closes (hopened ▸ rfl) hr'

end Proceeds

/-! ## What a process has beyond what it had -/

/-- A process has open and locked what it had on another machine, apart from the file of its
    role. -/
structure Adds (me : Pid) (m₀ m : Machine) (r : Role) : Prop where
  wellFormed : m.WellFormed
  opened : ∀ d f, m.opened.get? d = some f → f.process = me → r.file ≠ some d →
    ∃ f₀, m₀.opened.get? d = some f₀ ∧ f₀.process = me ∧ f₀.inode = f.inode
  locks : ∀ i d f, m.locks.get? i = some d → m.opened.get? d = some f → f.process = me →
    r.file ≠ some d → m₀.locks.get? i = some d

section Adds
variable {path : Path} {me : Pid} {r r' : Role} {m₀ m m' : Machine} {c : Call} {x : c.Answer}
  {manner : Manner} {d : Descriptor}

theorem Adds.refl (hw : m.WellFormed) (r : Role) : Adds me m m r :=
  ⟨hw, fun _ f hd hf _ => ⟨f, hd, hf, rfl⟩, fun _ _ _ h _ _ _ => h⟩

theorem Adds.become (h : Adds me m₀ m r) (hfile : r'.file = r.file) : Adds me m₀ m r' :=
  ⟨h.wellFormed, fun d f hd hf hr => h.opened d f hd hf (hfile ▸ hr),
    fun i d f hi hd hf hr => h.locks i d f hi hd hf (hfile ▸ hr)⟩

theorem Adds.untouched (h : Adds me m₀ m r) (hm : Machine.Untouched me m m') :
    Adds me m₀ m' r where
  wellFormed := hm.wellFormed h.wellFormed
  opened d f hd hf hr := h.opened d f ((hm.opened d f hf).1 hd) hf hr
  locks i d f hi hd hf hr := by
    have hd' := (hm.opened d f hf).1 hd
    exact h.locks i d f ((hm.locks i d f hd' hf).1 hi) hd' hf hr

theorem Adds.effect (h : Adds me m₀ m r) (hm : Machine.Effect me c m m') (hw : m'.WellFormed)
    (hopens : c.opensOrCloses = false) (hlocks : ∀ i d, m'.locks.get? i = some d →
      r.file ≠ some d → m.locks.get? i = some d) : Adds me m₀ m' r := by
  -- an open file is what it was, but for the place at which it is read or written
  have hopened : ∀ d f, m'.opened.get? d = some f → ∃ g, m.opened.get? d = some g ∧
      g.process = f.process ∧ g.inode = f.inode := by
    intro d f hd
    rcases hm.opened hopens d with hsame | ⟨g, o, -, hg, hafter⟩
    · exact ⟨f, hsame ▸ hd, rfl, rfl⟩
    · rw [hafter] at hd
      cases hd
      exact ⟨g, hg, rfl, rfl⟩
  refine ⟨hw, fun d f hd hf hr => ?_, fun i d f hi hd hf hr => ?_⟩
  · obtain ⟨g, hg, hprocess, hinode⟩ := hopened d f hd
    obtain ⟨f₀, hf₀, hme, hnode⟩ := h.opened d g hg (hprocess.trans hf) hr
    exact ⟨f₀, hf₀, hme, hnode.trans hinode⟩
  · obtain ⟨g, hg, hprocess, -⟩ := hopened d f hd
    exact h.locks i d g (hlocks i d hi hr) hg (hprocess.trans hf) hr

theorem Adds.open_ (h : Adds me m₀ m r) (hr : r.file = none) {t : FileTree} {i : Inode}
    (hw : ((m.setTree t).open_ me i).2.WellFormed) :
    Adds me m₀ ((m.setTree t).open_ me i).2 (.opened m.nextDescriptor) := by
  have hold : ∀ {d f}, ((m.setTree t).open_ me i).2.opened.get? d = some f →
      (Role.opened m.nextDescriptor).file ≠ some d → m.opened.get? d = some f := by
    intro d f hd hne
    have hget : ((m.setTree t).open_ me i).2.opened.get? d =
        if d = m.nextDescriptor then some ⟨i, 0, me⟩ else m.opened.get? d := Table.get?_insert ..
    rwa [hget, if_neg fun heq => hne (congrArg some heq.symm)] at hd
  have hnone : ∀ d, r.file ≠ some d := by
    intro d hd
    rw [hr] at hd
    cases hd
  exact ⟨hw, fun d f hd hf hne => h.opened d f (hold hd hne) hf (hnone d),
    fun i d f hi hd hf hne => h.locks i d f hi (hold hd hne) hf (hnone d)⟩

theorem Adds.close {e : Option Excuse} (h : Adds me m₀ m (.leaving d e)) :
    Adds me m₀ (m.close d) (.out e) := by
  have hold : ∀ {d' f}, (m.close d).opened.get? d' = some f →
      m.opened.get? d' = some f ∧ (Role.leaving d e).file ≠ some d' := by
    intro d' f hd'
    rw [Machine.opened_close] at hd'
    split at hd'
    · cases hd'
    · rename_i hne
      exact ⟨hd', fun heq => hne (Option.some.inj heq).symm⟩
  refine ⟨h.wellFormed.close d, fun d' f hd' hf _ => ?_, fun i d' f hi hd' hf _ => ?_⟩
  · exact h.opened d' f (hold hd').1 hf (hold hd').2
  · have hlock := ((Machine.locks_dropLock h.wellFormed).1 hi).1
    exact h.locks i d' f hlock (hold hd').1 hf (hold hd').2

/-- **Every answer adds no more than the file of the next role.** -/
theorem Adds.answer (h : Adds me m₀ m r) (hf : Follows path me r c x r')
    (ha : m.answer me c = (x, m')) : Adds me m₀ m' r' := by
  have hw' : m'.WellFormed := h.wellFormed.answered ha
  have heffect := Machine.effect me c m
  rw [ha] at heffect
  have hplain : c.opensOrCloses = false → c.locksOrUnlocks = false → Adds me m₀ m' r' := by
    intro hopens hlocks
    refine (h.effect heffect hw' hopens fun i d hi _ => ?_).become (hf.file_eq hopens)
    rwa [heffect.locks hlocks] at hi
  cases hf with
  | opened hr =>
    simp only [Machine.answer] at ha
    split at ha <;> cases ha
    exact h.open_ hr.file hw'
  | unopened hr =>
    have hsame : m' = m := Machine.answer_failed ha rfl fun p hp => by cases hp
    rw [hsame]
    exact h.become hr.file.symm
  | @locked d =>
    refine (h.effect heffect hw' rfl fun i d' hi hd' => ?_).become rfl
    have hne : d' ≠ d := fun heq => hd' (congrArg some heq.symm)
    rcases Machine.tryLock_cases ha with ⟨_, hx, -⟩ | ⟨f, -, -, ⟨-, rfl⟩ | ⟨-, rfl⟩⟩
    · cases hx
    · exact hi
    · rw [Table.get?_insert] at hi
      split at hi
      · cases hi
        exact absurd rfl hne
      · exact hi
  | unlocked =>
    have hsame : m' = m := Machine.answer_failed ha rfl fun p hp => by cases hp
    rw [hsame]
    exact h.become rfl
  | unlock =>
    refine h.effect heffect hw' rfl fun i d' hi _ => ?_
    simp only [Machine.answer] at ha
    split at ha <;> cases ha
    · exact ((Machine.locks_dropLock h.wellFormed).1 hi).1
    · exact hi
  | close =>
    cases ha
    exact h.close
  | stamped hs | unstamped hs => cases hs <;> exact hplain rfl rfl
  | _ => exact hplain rfl rfl

theorem Adds.tick (h : Adds me m₀ m r) : Adds me m₀ m.tick r :=
  ⟨h.wellFormed.tick, h.opened, h.locks⟩

theorem Adds.failed (h : Adds me m₀ m r) (hf : Follows path me r c x r') {e : IoError}
    (he : c.failed? e = some x) : Adds me m₀ m r' := by
  cases hf with
  | opened | locked | close => cases he
  | unopened hr => exact h.become hr.file.symm
  | stamped hs | unstamped hs => cases hs <;> exact h.become rfl
  | _ => exact h.become rfl

theorem Adds.reply (h : Adds me m₀ m r) (hf : Follows path me r c x r')
    (hr : Replies m me manner c x m') : Adds me m₀ m' r' := by
  cases hr with
  | answered => exact h.tick.answer hf rfl
  | failed he => exact h.failed hf he
  | @torn file bytes n =>
    obtain ⟨w, w', answer, rfl, -, rfl⟩ := hf.of_write ⟨_, rfl⟩
    have heffect := Machine.effect me (.write file (bytes.take n)) m.tick
    have hw := Machine.answer_wellFormed h.wellFormed.tick me (.write file (bytes.take n))
    refine (h.tick.effect heffect hw rfl fun i d hi _ => ?_).become rfl
    rwa [heffect.locks rfl] at hi

/-- **A program that follows the protocol adds no more than the file of its role**, among
    others. -/
theorem Program.Obeys.adds {α : Type} {p : Program α} {Q : Completion α → Role → Prop}
    (hp : p.Obeys path me Q r) (h : Adds me m₀ m r) :
    p.Among me m fun _ z m' => ∃ r', Q z r' ∧ Adds me m₀ m' r' := by
  intro trace z m' hcourse
  induction hcourse generalizing r with
  | done | halt => exact ⟨r, hp, h⟩
  | ask hreply helse _ ih =>
    obtain ⟨r₁, hfollows, hnext⟩ := hp _ hreply.answers
    exact ih hnext ((h.reply hfollows hreply).untouched helse.toUntouched)

end Adds

/-! ## Attempts -/

/-- A process has nothing open or locked that it had not open or locked before. -/
structure Machine.NoMore (me : Pid) (m m' : Machine) : Prop where
  opened : ∀ d f', m'.opened.get? d = some f' → f'.process = me →
    ∃ f, m.opened.get? d = some f ∧ f.process = me ∧ f.inode = f'.inode
  locks : ∀ i d f', m'.locks.get? i = some d → m'.opened.get? d = some f' → f'.process = me →
    m.locks.get? i = some d

theorem Adds.noMore {me : Pid} {m m' : Machine} {r : Role} (h : Adds me m m' r)
    (hr : r.file = none) : Machine.NoMore me m m' := by
  have hnone : ∀ d, r.file ≠ some d := by
    intro d hd
    rw [hr] at hd
    cases hd
  exact ⟨fun d f hd hf => h.opened d f hd hf (hnone d),
    fun i d f hi hd hf => h.locks i d f hi hd hf (hnone d)⟩

section Attempt
variable {path : Path} {me : Pid} {told : List Exchange} {z : Completion Attempt}

theorem Attempt.Ends.file_eq {r : Role} (h : Returns Attempt.Ends z r)
    (hz : ∀ d, z ≠ .returned (.ok (some d))) : r.file = none := by
  cases z with
  | halted => exact h.elim
  | returned a =>
    cases a with
    | error e =>
      obtain rfl : r = _ := h
      rfl
    | ok held =>
      cases held with
      | none =>
        obtain ⟨e, rfl⟩ := h
        rfl
      | some d => exact absurd rfl (hz d)

/-- **The faults of an attempt, classified**, whatever its calls are answered: it fails just if
    the directory cannot be made, or the file not be opened or not be locked, and then with the
    error of that call if that is fatal; it yields a file just if it stamped it in one of its
    rounds, and lost its file in those before; and otherwise it is in vain.  It does not give up
    for lost files before all its rounds have lost theirs (`Attempt.Decision`).  If it yields no
    file, it has closed all that it opened, and its process has no file and no lock that it had
    not before, whatever fails and whatever others do.  So no acquisition fails with other
    errors than fatal ones. -/
theorem attempt_classified :
    (∀ path me told z, Dialogue me (attempt path) told z →
      (∃ a, z = .returned a ∧ Attempt.Decision path me (decisions told) a) ∧
      Attempt.Sorted path me told z ∧
      ((∀ d, z ≠ .returned (.ok (some d))) → ∀ before p d after,
        told = before ++ ⟨.openFile p, .ok d⟩ :: after → ⟨.close d, ()⟩ ∈ after)) ∧
    (∀ path me m trace z m', m.WellFormed → Course me (attempt path) m trace z m' →
      (∀ d, z ≠ .returned (.ok (some d))) → Machine.NoMore me m m') ∧
    (∀ dir name me told e, Dialogue me (Handle.acquire dir name) told (.returned (.error e)) →
      e.kind = .permissionDenied ∨ e.kind = .unsupported) ∧
    ∀ rounds env name options me told e,
      Dialogue me (acquireTimedFor rounds env name options) told (.returned (.error (.io e))) →
      e.kind = .permissionDenied ∨ e.kind = .unsupported := by
  refine ⟨fun path me told z h => ⟨Attempt.decides_attempt told z h, Attempt.sorted h,
    fun hz before p d after htold => ?_⟩, ?_, ?_, ?_⟩
  · obtain ⟨r, hproceeds, hr⟩ := h.proceeds Attempt.attempt_obeys
    exact hproceeds.closes_opened (Attempt.Ends.file_eq hr hz) htold
  · intro path me m trace z m' hw hcourse hz
    obtain ⟨r, hr, hadds⟩ := Attempt.attempt_obeys.adds (.refl hw _) trace z m' hcourse
    exact hadds.noMore (Attempt.Ends.file_eq hr hz)
  · exact fun dir name me told e h => Handle.isFatal_of_dialogue h
  · exact fun rounds env name options me told e h => isFatal_of_acquireTimedFor h

/-- Who may not open the lock file is told so; who cannot find it has lost, and has nothing
    left over. -/
theorem attempt_classified_on_bare :
    let path := lockPath Contest.root "a"
    let e : IoError := .os .accessDenied
    let told : List Exchange := [⟨.makeDirs Contest.root, .ok ()⟩, ⟨.openFile path, .error e⟩]
    (Dialogue 1 (attempt path) told (.returned (.error e)) ∧
      ∃ x, (decisions told).getLast? = some x ∧ x.Bars e ∧ e.IsFatal) ∧
    ((Machine.bare 1).run 1 (attempt ⟨[]⟩)).1 = .returned (.ok none) ∧
      Machine.NoMore 1 (.bare 1) ((Machine.bare 1).run 1 (attempt ⟨[]⟩)).2 := by
  intro path e told
  have hdialogue : Dialogue 1 (attempt path) told (.returned (.error e)) := by
    have hroot : path.parent? = some Contest.root := by decide
    have hfatal : e.IsFatal := by decide
    rw [attempt, dialogue_within, hroot]
    refine .call (.makeDirs Contest.root) (.ok ()) trivial ?_
    refine .call (.openFile path) (.error e) trivial ?_
    show Dialogue 1 (Attempt.fail e (.openFailed e)) [] _
    rw [Attempt.fail, if_pos hfatal]
    exact .done
  have hvain : ((Machine.bare 1).run 1 (attempt ⟨[]⟩)).1 = .returned (.ok none) := rfl
  obtain ⟨trace, hcourse⟩ := Course.alone 1 (attempt ⟨[]⟩) (.bare 1)
  refine ⟨⟨hdialogue, ?_⟩, hvain, ?_⟩
  · obtain ⟨-, hsorted, -⟩ := attempt_classified.1 path 1 told _ hdialogue
    exact (hsorted.failed e).1 rfl
  · refine attempt_classified.2.1 _ 1 _ trace _ _ (Machine.bare_wellFormed 1) hcourse fun d hd => ?_
    rw [hvain] at hd
    cases hd

end Attempt

end NamedMutex
