/-
  What a process has open and locked, among others.

  A role of the protocol says which file a process has open, and whether it has locked it.
  As the others leave that alone, it is so whatever they do.

  * `Possesses` is what a process has in a role; `Possesses.reply` says that the replies to its
    calls give it what its next role possesses;
  * `Obeys.among`: a program that follows the protocol keeps to it among others;
  * `Acquired` is what the calls of an attempt show that acquired.
-/
import NamedMutex.Proofs.Courses

namespace NamedMutex

/-! ## What a process has open and locked -/

namespace Role

/-- The file that a role has locked. -/
def Locks (d : Descriptor) : Role → Prop
  | locked d' | owner d' _ => d' = d
  | _ => False

/-- What calls, and what answers to them, a role has behind it. -/
def evidence (path : Path) : Role → List ((c : Call) × c.Answer)
  | opened d => [⟨.openFile path, .ok d⟩]
  | locked d => [⟨.openFile path, .ok d⟩, ⟨.tryLock d, .ok ()⟩]
  | owner d .stamped =>
    [⟨.openFile path, .ok d⟩, ⟨.tryLock d, .ok ()⟩, ⟨.leadsTo path d, true⟩,
      ⟨.write d Stamp.newline, .ok ()⟩]
  | owner d _ => [⟨.openFile path, .ok d⟩, ⟨.tryLock d, .ok ()⟩, ⟨.leadsTo path d, true⟩]
  | _ => []

end Role

/-- The calls of a trace, and the answers to them. -/
def calls (trace : List Incident) : List ((c : Call) × c.Answer) :=
  trace.map fun i => ⟨i.call, i.answer⟩

theorem calls_append (t t' : List Incident) : calls (t ++ t') = calls t ++ calls t' :=
  List.map_append

/-- An attempt acquired the mutex: it opened the lock file, locked it, found it linked still,
    and put its whole stamp into it. -/
def Acquired (path : Path) (d : Descriptor) (trace : List Incident) : Prop :=
  [⟨.openFile path, .ok d⟩, ⟨.tryLock d, .ok ()⟩, ⟨.leadsTo path d, true⟩,
    ⟨.write d Stamp.newline, .ok ()⟩].Sublist (calls trace)

section Follows
variable {path : Path} {me : Pid} {r r' : Role} {c : Call} {x : c.Answer}

theorem Follows.file_eq (h : Follows path me r c x r') (hc : c.opensOrCloses = false) :
    r'.file = r.file := by
  cases h with
  | opened | unopened | close => cases hc
  | _ => rfl

theorem Follows.locks_of (h : Follows path me r c x r') (hc : c.locksOrUnlocks = false)
    {d : Descriptor} (hd : r'.Locks d) : r.Locks d := by
  cases h with
  | locked | unlocked | unlock | close => cases hc
  | say | ownPid | probe | readPath | linked | seen | stamped => exact hd
  | made | unmade | opened | unopened | orphaned | illegible | unread | unstamped | unlink =>
    exact hd.elim

theorem Follows.evidence (h : Follows path me r c x r') (m : Machine) :
    (r'.evidence path).Sublist (r.evidence path ++ calls (Incident.record m c x)) := by
  cases h with
  | say | ownPid | probe | readPath | unlock => exact List.sublist_append_left _ _
  | opened h =>
    rcases h with rfl | rfl <;> exact List.Sublist.refl _
  | locked | linked => exact List.Sublist.refl _
  | seen => exact List.sublist_append_left _ _
  | stamped h =>
    cases h with
    | newline => exact List.Sublist.refl _
    | truncate | rewind | number => exact List.sublist_append_left _ _
  | made | unmade | unopened | unlocked | orphaned | illegible | unread | unstamped | unlink
  | close => exact List.nil_sublist _

end Follows

/-- What a process has open and locked in a role, and nothing else. -/
structure Possesses (me : Pid) (m : Machine) (r : Role) : Prop where
  wellFormed : m.WellFormed
  only : ∀ d f, m.opened.get? d = some f → f.process = me → r.file = some d
  opened : ∀ d, r.file = some d → ∃ f, m.opened.get? d = some f ∧ f.process = me
  locked : ∀ d f, r.Locks d → m.opened.get? d = some f → m.locks.get? f.inode = some d

section Possesses
variable {path : Path} {me : Pid} {r r' : Role} {c c' : Call} {x : c.Answer} {m m' : Machine}
  {manner : Manner}

theorem Role.Locks.file {d : Descriptor} (h : r.Locks d) : r.file = some d := by
  cases r with
  | locked | owner => exact congrArg some h
  | _ => exact h.elim

theorem Possesses.untouched (h : Possesses me m r) (hm : Machine.Untouched me m m') :
    Possesses me m' r where
  wellFormed := hm.wellFormed h.wellFormed
  only d f hd hf := h.only d f ((hm.opened d f hf).1 hd) hf
  opened d hd := by
    obtain ⟨f, hopen, hf⟩ := h.opened d hd
    exact ⟨f, (hm.opened d f hf).2 hopen, hf⟩
  locked d f hd hopen := by
    obtain ⟨g, hg, hme⟩ := h.opened d hd.file
    have hg' := (hm.opened d g hme).2 hg
    rw [hopen] at hg'
    cases hg'
    exact (hm.locks _ d f hg hme).2 (h.locked d f hd hg)

/-- What a role possesses, another one does that has the same file and locks no more. -/
theorem Possesses.become (h : Possesses me m r) (hfile : r'.file = r.file)
    (hlocks : ∀ d, r'.Locks d → r.Locks d) : Possesses me m r' where
  wellFormed := h.wellFormed
  only d f hd hf := hfile ▸ h.only d f hd hf
  opened d hd := h.opened d (hfile ▸ hd)
  locked d f hd hopen := h.locked d f (hlocks d hd) hopen

theorem Possesses.effect (h : Possesses me m r) (hm : Machine.Effect me c m m')
    (hw : m'.WellFormed) (hopens : c.opensOrCloses = false) (hlocks : c.locksOrUnlocks = false) :
    Possesses me m' r where
  wellFormed := hw
  only d f hd hf := by
    rcases hm.opened hopens d with hsame | ⟨g, o, -, hg, hafter⟩
    · exact h.only d f (hsame ▸ hd) hf
    · rw [hafter] at hd
      cases hd
      exact h.only d g hg hf
  opened d hd := by
    obtain ⟨f, hopen, hf⟩ := h.opened d hd
    rcases hm.opened hopens d with hsame | ⟨g, o, -, hg, hafter⟩
    · exact ⟨f, hsame.trans hopen, hf⟩
    · rw [hopen] at hg
      cases hg
      exact ⟨_, hafter, hf⟩
  locked d f hd hopen := by
    rw [hm.locks hlocks]
    rcases hm.opened hopens d with hsame | ⟨g, o, -, hg, hafter⟩
    · exact h.locked d f hd (hsame ▸ hopen)
    · rw [hafter] at hopen
      cases hopen
      exact h.locked d g hd hg

theorem Role.Opens.file (h : r.Opens) : r.file = none := by
  rcases h with rfl | rfl <;> rfl

theorem Possesses.open_ (h : Possesses me m r) (hr : r.file = none) {t : FileTree} {i : Inode}
    (hw : ((m.setTree t).open_ me i).2.WellFormed) :
    Possesses me ((m.setTree t).open_ me i).2 (.opened m.nextDescriptor) := by
  have hget : ∀ d, ((m.setTree t).open_ me i).2.opened.get? d =
      if d = m.nextDescriptor then some ⟨i, 0, me⟩ else m.opened.get? d :=
    fun d => Table.get?_insert ..
  refine ⟨hw, fun d f hd hme => ?_, fun d hd => ?_, fun d f hd => hd.elim⟩
  · rw [hget] at hd
    split at hd
    · rename_i heq
      exact congrArg some heq.symm
    · have hsome := h.only d f hd hme
      rw [hr] at hsome
      cases hsome
  · cases hd
    exact ⟨_, (hget _).trans (if_pos rfl), rfl⟩

theorem Possesses.close {d : Descriptor} {e : Option Excuse} (h : Possesses me m (.leaving d e)) :
    Possesses me (m.close d) (.out e) := by
  refine ⟨h.wellFormed.close d, fun d' f hd hme => ?_, nofun, fun d f hd => hd.elim⟩
  rw [Machine.opened_close] at hd
  split at hd
  · cases hd
  · rename_i hne
    exact absurd (Option.some.inj (h.only d' f hd hme)).symm hne

theorem Possesses.tryLock {d : Descriptor} (h : Possesses me m (.opened d))
    (ha : m.tryLock d = (.ok (), m')) (hw : m'.WellFormed) : Possesses me m' (.locked d) := by
  rcases Machine.tryLock_cases ha with ⟨_, hx, -⟩ | ⟨f, -, hd, hcases⟩
  · cases hx
  · have hopened : m'.opened = m.opened := by rcases hcases with ⟨-, rfl⟩ | ⟨-, rfl⟩ <;> rfl
    have hlock : m'.locks.get? f.inode = some d := by
      rcases hcases with ⟨hlock, rfl⟩ | ⟨-, rfl⟩
      · exact hlock
      · exact Table.get?_insert_self _ _ _
    refine ⟨hw, hopened ▸ h.only, hopened ▸ h.opened, fun d' f' hd' hopen => ?_⟩
    obtain rfl : d = d' := hd'
    rw [hopened, hd] at hopen
    cases hopen
    exact hlock

/-- **A role possesses what its calls have given it.** -/
theorem Possesses.answer (h : Possesses me m r) (hf : Follows path me r c x r')
    (ha : m.answer me c = (x, m')) : Possesses me m' r' := by
  have hw' : m'.WellFormed := h.wellFormed.answered ha
  have hplain : c.opensOrCloses = false → c.locksOrUnlocks = false → Possesses me m' r' := by
    intro hopens hlocks
    have heffect := Machine.effect me c m
    rw [ha] at heffect
    exact (h.effect heffect hw' hopens hlocks).become (hf.file_eq hopens)
      fun d hd => hf.locks_of hlocks hd
  cases hf with
  | opened hr =>
    simp only [Machine.answer] at ha
    split at ha <;> cases ha
    exact h.open_ hr.file hw'
  | unopened hr =>
    have hsame : m' = m := Machine.answer_failed ha rfl fun p hp => by cases hp
    rw [hsame]
    exact h.become hr.file.symm fun d hd => hd.elim
  | locked => exact h.tryLock ha hw'
  | unlocked =>
    have hsame : m' = m := Machine.answer_failed ha rfl fun p hp => by cases hp
    rw [hsame]
    exact h.become rfl fun d hd => hd.elim
  | unlock =>
    have hopened : m'.opened = m.opened := by
      simp only [Machine.answer] at ha
      split at ha <;> cases ha <;> rfl
    exact ⟨hw', hopened ▸ h.only, hopened ▸ h.opened, fun d f hd => hd.elim⟩
  | close =>
    cases ha
    exact h.close
  | stamped hs | unstamped hs => cases hs <;> exact hplain rfl rfl
  | _ => exact hplain rfl rfl

theorem Possesses.tick (h : Possesses me m r) : Possesses me m.tick r :=
  ⟨h.wellFormed.tick, h.only, h.opened, h.locked⟩

theorem Possesses.failed (h : Possesses me m r) (hf : Follows path me r c x r') {e : IoError}
    (he : c.failed? e = some x) : Possesses me m r' := by
  have hplain : c.opensOrCloses = false → c.locksOrUnlocks = false → Possesses me m r' :=
    fun hopens hlocks => h.become (hf.file_eq hopens) fun d hd => hf.locks_of hlocks hd
  cases hf with
  | opened | locked | close => cases he
  | unopened hr => exact h.become hr.file.symm fun d hd => hd.elim
  | unlocked => exact h.become rfl fun d hd => hd.elim
  | unlock => exact h
  | stamped hs | unstamped hs => cases hs <;> exact hplain rfl rfl
  | _ => exact hplain rfl rfl

/-- **Every reply to a process that follows the protocol** gives its next role what that
    possesses. -/
theorem Possesses.reply (h : Possesses me m r) (hf : Follows path me r c x r')
    (hr : Replies m me manner c x m') : Possesses me m' r' := by
  cases hr with
  | answered => exact h.tick.answer hf rfl
  | failed he => exact h.failed hf he
  | @torn file bytes n =>
    obtain ⟨w, w', answer, rfl, -, rfl⟩ := hf.of_write ⟨_, rfl⟩
    have heffect := Machine.effect me (.write file (bytes.take n)) m.tick
    have hw := Machine.answer_wellFormed h.wellFormed.tick me (.write file (bytes.take n))
    exact (h.tick.effect heffect hw rfl rfl).become rfl fun d hd => hd.elim

/-- **A program that follows the protocol keeps to it among others**, and has behind it what
    its role says. -/
theorem Program.Obeys.among {α : Type} {p : Program α} {Q : Completion α → Role → Prop}
    (hp : p.Obeys path me Q r) (h : Possesses me m r) : p.Among me m fun trace z m' =>
      ∃ r', Q z r' ∧ Possesses me m' r' ∧
        (r'.evidence path).Sublist (r.evidence path ++ calls trace) := by
  intro trace z m' hcourse
  induction hcourse generalizing r with
  | done | halt => exact ⟨r, hp, h, List.sublist_append_left _ _⟩
  | @ask c next m m₁ m₂ m' manner x trace z hreply helse hrest ih =>
    obtain ⟨r₁, hfollows, hnext⟩ := hp x hreply.answers
    obtain ⟨r', hQ, hposs, hsub⟩ := ih hnext ((h.reply hfollows hreply).untouched helse.toUntouched)
    refine ⟨r', hQ, hposs, hsub.trans ?_⟩
    rw [calls_append, ← List.append_assoc]
    exact (hfollows.evidence m).append_right _

end Possesses

/-- A process has nothing open, and so no lock. -/
structure Machine.Idle (m : Machine) (me : Pid) : Prop where
  wellFormed : m.WellFormed
  closed : ∀ d f, m.opened.get? d = some f → f.process ≠ me

/-- A process has a file open and locked. -/
def Machine.HasLock (m : Machine) (me : Pid) (d : Descriptor) : Prop :=
  ∃ f, m.opened.get? d = some f ∧ f.process = me ∧ m.locks.get? f.inode = some d

section Idle
variable {me : Pid} {m m' : Machine} {r : Role}

theorem Possesses.idle (h : Possesses me m r) (hr : r.file = none) : m.Idle me := by
  refine ⟨h.wellFormed, fun d f hd hf => ?_⟩
  have hsome := h.only d f hd hf
  rw [hr] at hsome
  cases hsome

theorem Machine.Idle.possesses (h : m.Idle me) (hr : r.file = none) : Possesses me m r := by
  have hnone : ∀ {d}, r.file ≠ some d := by
    intro d hd
    rw [hr] at hd
    cases hd
  exact ⟨h.wellFormed, fun d f hd hf => absurd hf (h.closed d f hd), fun d hd => absurd hd hnone,
    fun d f hd => absurd hd.file hnone⟩

theorem Machine.Idle.untouched (h : m.Idle me) (hm : Machine.Untouched me m m') : m'.Idle me :=
  ⟨hm.wellFormed h.wellFormed, fun d f hd hf => h.closed d f ((hm.opened d f hf).1 hd) hf⟩

theorem Possesses.hasLock {d : Descriptor} {w : Progress} (h : Possesses me m (.owner d w)) :
    m.HasLock me d := by
  obtain ⟨f, hd, hf⟩ := h.opened d rfl
  exact ⟨f, hd, hf, h.locked d f rfl hd⟩

end Idle

end NamedMutex
