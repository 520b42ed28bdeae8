/-
  What a process holds beside the file that it is about.

  A process may hold any number of mutexes while it acquires another or gives one up.  A call
  about one file leaves the other openings alone, with their locks; and between its attempts
  an acquisition makes calls that are about no file at all.

  * `Heeds` is the protocol with the calls between the attempts, and `Program.Minds` holds of
    the programs that make no others: of acquisitions within a time budget
    (`acquireTimed_minds`), and of the drops of guards (`Guard.drop_minds`);
  * `Machine.Backs`: a machine gives a role what it should have, whatever else there is;
  * `Machine.Bypasses` is what leaves one opening alone; `Machine.Shut` says of an opening that
    it was closed, which is so ever after.
-/
import NamedMutex.Proofs.Leftovers
import NamedMutex.Proofs.Releases

namespace NamedMutex

open Program

/-! ## The protocol between attempts -/

/-- The calls of acquisitions and of what they yield: those of the protocol, and calls that are
    about no file.  Who has no file open may begin anew with such a call. -/
inductive Heeds (path : Path) (me : Pid) : Role → (c : Call) → c.Answer → Role → Prop
  | follows {r r' : Role} {c : Call} {x : c.Answer} : Follows path me r c x r' →
      Heeds path me r c x r'
  | aside {r : Role} {c : Call} {x : c.Answer} : c.IsAside → Heeds path me r c x r
  | anew {r r' : Role} {c : Call} {x : c.Answer} : c.IsAside → r.file = none → r'.file = none →
      Heeds path me r c x r'

namespace Program

/-- Programs that heed the protocol from a role on, and end as `Q` says. -/
def Minds {α : Type} (path : Path) (me : Pid) (Q : Completion α → Role → Prop) :
    Program α → Role → Prop
  | .done a, r => Q (.returned a) r
  | .halt h, r => Q (.halted h) r
  | .ask c next, r => ∀ x, c.Answers me x →
      ∃ r', Heeds path me r c x r' ∧ Minds path me Q (next x) r'

section Minds
variable {α β : Type} {path : Path} {me : Pid} {r r' : Role} {c : Call}
  {Q : Completion β → Role → Prop}

theorem Obeys.minds {p : Program β} (hp : p.Obeys path me Q r) : p.Minds path me Q r := by
  induction p generalizing r with
  | done | halt => exact hp
  | ask c next ih =>
    intro x hx
    obtain ⟨r', hfollows, hnext⟩ := hp x hx
    exact ⟨r', .follows hfollows, ih x hnext⟩

theorem Minds.mono {Q' : Completion β → Role → Prop} {p : Program β} (hp : p.Minds path me Q r)
    (hQ : ∀ z r, Q z r → Q' z r) : p.Minds path me Q' r := by
  induction p generalizing r with
  | done | halt => exact hQ _ _ hp
  | ask c next ih =>
    intro x hx
    obtain ⟨r', hheeds, hnext⟩ := hp x hx
    exact ⟨r', hheeds, ih x hnext⟩

theorem Minds.bind {R : Completion α → Role → Prop} {p : Program α} {f : α → Program β}
    (hp : p.Minds path me R r) (hf : ∀ a r, R (.returned a) r → (f a).Minds path me Q r)
    (hhalt : ∀ h r, R (.halted h) r → Q (.halted h) r) : (p >>= f).Minds path me Q r := by
  induction p generalizing r with
  | done a => exact hf a r hp
  | halt h => exact hhalt h r hp
  | ask c next ih =>
    intro x hx
    obtain ⟨r', hheeds, hnext⟩ := hp x hx
    exact ⟨r', hheeds, ih x hnext⟩

theorem Minds.within {p : Program β} (hp : p.Minds path me Q r) (s : Span) :
    (p.within s).Minds path me Q r := by
  induction p generalizing r with
  | done | halt => exact hp
  | ask c next ih =>
    have hstep : ∀ x, c.Answers me x →
        ∃ r', Heeds path me r c x r' ∧ ((next x).within s).Minds path me Q r' := by
      intro x hx
      obtain ⟨r', hheeds, hnext⟩ := hp x hx
      exact ⟨r', hheeds, ih x hnext⟩
    cases c with
    | say o =>
      cases o with
      | event scope e =>
        intro x hx
        obtain ⟨r', hheeds, hnext⟩ := hstep x hx
        refine ⟨r', ?_, hnext⟩
        cases hheeds with
        | aside => exact .aside trivial
        | anew _ hr hr' => exact .anew trivial hr hr'
        | follows hf =>
          cases hf with
          | say => exact .follows .say
          | stamped hs | unstamped hs => cases hs
      | line | errorLine => exact hstep
    | _ => exact hstep

theorem Minds.aside {next : c.Answer → Program β} (hc : c.IsAside)
    (h : ∀ x, (next x).Minds path me Q r) : (call c >>= next).Minds path me Q r :=
  fun x _ => ⟨r, .aside hc, h x⟩

theorem Minds.anew {next : c.Answer → Program β} (hc : c.IsAside) (hr : r.file = none)
    (hr' : r'.file = none) (h : ∀ x, (next x).Minds path me Q r') :
    (call c >>= next).Minds path me Q r :=
  fun x _ => ⟨r', .anew hc hr hr', h x⟩

/-- Whatever such a program is told, it ends in a role. -/
theorem Minds.of_dialogue {p : Program β} {told : List Exchange} {z : Completion β}
    (hp : p.Minds path me Q r) (h : Dialogue me p told z) : ∃ r', Q z r' := by
  induction h generalizing r with
  | done | halt => exact ⟨r, hp⟩
  | ask hx _ ih =>
    obtain ⟨r', -, hnext⟩ := hp _ hx
    exact ih hnext

end Minds

end Program

/-! ## Acquisitions and drops -/

section Acquisitions
variable {dir : Path} {name : String} {me : Pid} {options : AcquireOptions} {r : Role}

theorem Handle.file_of_acquires {z : Completion (Except IoError Handle)}
    (h : Handle.Acquires dir name z r) (hz : ∀ h, z ≠ .returned (.ok h)) : r.file = none := by
  cases z with
  | halted =>
    obtain ⟨-, rfl⟩ := h
    exact Role.file_start _
  | returned a =>
    cases a with
    | error e =>
      obtain rfl : r = _ := h
      rfl
    | ok handle => exact absurd rfl (hz handle)

/-- How an acquisition within a time budget ends: with a guard in the role of an owner, or with
    no file open. -/
def AcquireTimed.Keeps (path : Path) : Completion (Except AcquireError Guard) → Role → Prop
  | .returned (.ok g), r => g.handle.path = path ∧ g.handle.disposed = false ∧
      ∃ d, g.handle.held = some d ∧ r = .owner d .stamped
  | .returned (.error _), r => r.file = none
  | .halted _, r => r.file = none

/-- How the drop of a guard ends. -/
def Guard.Frees : Completion Unit → Role → Prop
  | .returned _, r => r.file = none
  | .halted _, _ => False

theorem Handle.release_minds {h : Handle} (hpath : h.path = lockPath dir name)
    (hr : ∀ d, h.held = some d → r = .owner d .stamped) (hout : h.held = none → r.file = none) :
    h.release.Minds (lockPath dir name) me
      (Returns fun h' r' => h'.path = h.path ∧ h'.held = none ∧ r'.file = none) r := by
  cases hheld : h.held with
  | none =>
    have hpure : h.release = pure h := by rw [release, hheld]
    rw [hpure]
    exact ⟨rfl, hheld, hout hheld⟩
  | some d =>
    have hnone : h.held = none → ∃ e, r = .out e := by
      intro hnone
      rw [hheld] at hnone
      cases hnone
    refine (release_obeys hpath hr hnone).minds.mono fun z r' hz => ?_
    cases z with
    | halted => exact hz
    | returned h' =>
      obtain ⟨hpath', hheld', e, rfl⟩ := hz
      exact ⟨hpath'.trans hpath.symm, hheld', rfl⟩

/-- **The drop of a guard heeds the protocol.** -/
theorem Guard.drop_minds {g : Guard} (hpath : g.handle.path = lockPath dir name)
    (hr : ∀ d, g.handle.held = some d → r = .owner d .stamped)
    (hout : g.handle.held = none → r.file = none) :
    g.drop.Minds (lockPath dir name) me Frees r := by
  refine (Handle.release_minds hpath hr hout).bind (fun h' r' hr' => ?_) fun _ _ hz => hz.elim
  exact .aside trivial fun _ => hr'.2.2

namespace AcquireTimed

theorem poll_minds (started : Duration) (rounds : Nat) : ∀ attempts,
    (poll dir name options started rounds attempts).Minds (lockPath dir name) me
      (Keeps (lockPath dir name)) (.start (lockPath dir name)) := by
  induction rounds with
  | zero => exact fun _ => Role.file_start _
  | succ rounds ih =>
    intro attempts
    unfold poll
    refine (Handle.acquire_obeys dir name me).minds.bind (fun x r hx => ?_) fun _ r hz => ?_
    · cases x with
      | error e => exact Handle.file_of_acquires hx fun _ hok => by cases hok
      | ok h =>
        obtain ⟨hpath, hfresh, hends⟩ := hx
        cases hheld : h.held with
        | some d =>
          have hyes : h.isAcquired = true := by rw [Handle.isAcquired, hheld, Option.isSome_some]
          rw [hheld] at hends
          simp only [hyes, if_true]
          exact .aside trivial fun _ => .aside trivial fun _ => ⟨hpath, hfresh, d, hheld, hends⟩
        | none =>
          have hno : h.isAcquired = false := by rw [Handle.isAcquired, hheld, Option.isSome_none]
          rw [hheld] at hends
          obtain ⟨e, rfl⟩ := hends
          simp only [hno, Handle.release_of_not_acquired hno]
          refine .aside trivial fun now => ?_
          show (if options.timeout < now - started then _ else _ : Program _).Minds _ me _ _
          split
          · exact .aside trivial fun _ => rfl
          · -- the next attempt begins where the first one did
            exact .anew trivial rfl (Role.file_start _) fun _ => ih _
    · exact Handle.file_of_acquires hz fun _ hok => by cases hok

theorem start_minds (hr : r.file = none) :
    (start dir name options).Minds (lockPath dir name) me (Keeps (lockPath dir name)) r :=
  .anew trivial hr (Role.file_start _) fun started => poll_minds started _ _

end AcquireTimed

/-- **An acquisition within a time budget heeds the protocol**, whatever it is answered. -/
theorem acquireTimed_minds {env : Environment} (hdir : options.directory env = dir)
    (hr : r.file = none) : (acquireTimed env name options).Minds (lockPath dir name) me
      (AcquireTimed.Keeps (lockPath dir name)) r := by
  unfold acquireTimed
  refine Minds.within ?_ _
  simp only [hdir]
  split
  · split
    · refine .aside trivial fun x => ?_
      cases x with
      | true => exact hr
      | false => exact AcquireTimed.start_minds hr
    · exact AcquireTimed.start_minds hr
  · exact hr

end Acquisitions

/-! ## What a role has to do with files -/

section Heeds
variable {path : Path} {me : Pid} {r r' : Role} {c : Call} {x : c.Answer} {d : Descriptor}

theorem Follows.file? (h : Follows path me r c x r') (hc : c.file? = some d) :
    r.file = some d := by
  cases h with
  | locked | unlocked | linked | orphaned | seen | illegible | unread | unlock | close => exact hc
  | stamped hs | unstamped hs => cases hs <;> exact hc
  | _ => cases hc

theorem Call.IsAside.kinds (hc : c.IsAside) :
    c.opensOrCloses = false ∧ c.locksOrUnlocks = false ∧ c.file? = none := by
  cases c with
  | ownPid | probe | now | sleep | isRegistered | register | unregister | say =>
    exact ⟨rfl, rfl, rfl⟩
  | _ => exact hc.elim

theorem Heeds.file? (h : Heeds path me r c x r') (hc : c.file? = some d) : r.file = some d := by
  cases h with
  | follows hf => exact hf.file? hc
  | aside haside | anew haside =>
    rw [haside.kinds.2.2] at hc
    cases hc

theorem Heeds.file_or_close (h : Heeds path me r c x r') (hr : r.file = some d) :
    r'.file = some d ∨ (c = .close d ∧ r'.file = none) := by
  cases h with
  | aside => exact Or.inl hr
  | anew _ hnone =>
    rw [hr] at hnone
    cases hnone
  | follows hf =>
    cases hc : c.opensOrCloses with
    | false => exact Or.inl ((hf.file_eq hc).trans hr)
    | true =>
      cases hf with
      | opened ho | unopened ho =>
        rw [ho.file] at hr
        cases hr
      | close =>
        cases hr
        exact Or.inr ⟨rfl, rfl⟩
      | stamped hs | unstamped hs => cases hs <;> cases hc
      | _ => cases hc

/-- The file of a role was that of the role before, or it has just been opened. -/
theorem Heeds.file_or_opened (h : Heeds path me r c x r') (hr' : r'.file = some d) :
    r.file = some d ∨ (⟨c, x⟩ : Exchange) = ⟨.openFile path, .ok d⟩ := by
  cases h with
  | aside => exact Or.inl hr'
  | anew _ _ hnone =>
    rw [hr'] at hnone
    cases hnone
  | follows hf =>
    cases hc : c.opensOrCloses with
    | false => exact Or.inl ((hf.file_eq hc).symm.trans hr')
    | true =>
      cases hf with
      | opened =>
        cases hr'
        exact Or.inr rfl
      | unopened | close => cases hr'
      | stamped hs | unstamped hs => cases hs <;> cases hc
      | _ => cases hc

end Heeds

/-! ## Other openings -/

namespace Machine

/-- What leaves an opening alone, and its locks. -/
structure Bypasses (d : Descriptor) (m m' : Machine) : Prop where
  opened : m'.opened.get? d = m.opened.get? d
  locks : ∀ i, m'.locks.get? i = some d ↔ m.locks.get? i = some d

variable {m m' m'' : Machine} {d : Descriptor} {me : Pid}

theorem Bypasses.refl (d : Descriptor) (m : Machine) : Bypasses d m m := ⟨rfl, fun _ => Iff.rfl⟩

theorem Untouched.bypasses {f : OpenFile} (h : Untouched me m m') (hd : m.opened.get? d = some f)
    (hf : f.process = me) : Bypasses d m m' :=
  ⟨((h.opened d f hf).2 hd).trans hd.symm, fun i => h.locks i d f hd hf⟩

theorem nextDescriptor_answer (m : Machine) (me : Pid) (c : Call) :
    m.nextDescriptor ≤ (m.answer me c).2.nextDescriptor := by
  cases c with
  | openFile | unlink | unlock =>
    simp only [answer]
    split <;> first | exact Nat.le_refl _ | exact Nat.le_succ _
  | tryLock d =>
    obtain ⟨x, m', hx⟩ : ∃ x m', m.tryLock d = (x, m') := ⟨_, _, rfl⟩
    simp only [answer, hx]
    rcases tryLock_cases hx with ⟨_, -, rfl⟩ | ⟨_, -, -, ⟨-, rfl⟩ | ⟨-, rfl⟩⟩ <;>
      exact Nat.le_refl _
  | read | rewind =>
    simp only [answer, Machine.read, Machine.rewind]
    split <;> exact Nat.le_refl _
  | write d bytes =>
    obtain ⟨x, m', hx⟩ : ∃ x m', m.write d bytes = (x, m') := ⟨_, _, rfl⟩
    simp only [answer, hx]
    rcases write_cases hx with rfl | ⟨_, _, _, _, -, -, -, rfl⟩ <;> exact Nat.le_refl _
  | truncate d =>
    obtain ⟨x, m', hx⟩ : ∃ x m', m.truncate d = (x, m') := ⟨_, _, rfl⟩
    simp only [answer, hx]
    rcases truncate_cases hx with ⟨_, -, rfl⟩ | ⟨_, _, _, _, -, -, -, rfl⟩ <;> exact Nat.le_refl _
  | makeDirs | leadsTo | readPath | close | ownPid | probe | now | sleep | isRegistered | register
  | unregister | say => exact Nat.le_refl _

/-- **A call leaves alone the openings that it is not about.** -/
theorem bypasses_answer {c : Call} (hw : m.WellFormed) (me : Pid) (hc : c.file? ≠ some d)
    (hd : d < m.nextDescriptor) : Bypasses d m (m.answer me c).2 := by
  have heffect := effect me c m
  have hopened : c.opensOrCloses = false → (m.answer me c).2.opened.get? d = m.opened.get? d := by
    intro hopens
    rcases heffect.opened hopens d with hsame | ⟨_, _, hfile, -⟩
    · exact hsame
    · exact absurd hfile hc
  have hne : ∀ {d'}, c.file? = some d' → d ≠ d' := by
    rintro d' hfile rfl
    exact hc hfile
  cases c with
  | openFile p =>
    simp only [answer]
    split
    · exact ⟨(Table.get?_insert ..).trans (if_neg (Nat.ne_of_lt hd)), fun _ => Iff.rfl⟩
    · exact .refl d m
  | close d' =>
    refine ⟨opened_close.trans (if_neg (hne rfl)), fun i => ?_⟩
    exact (locks_close hw).trans ⟨And.left, fun h => ⟨h, hne rfl⟩⟩
  | unlock d' =>
    refine ⟨hopened rfl, fun i => ?_⟩
    simp only [answer]
    split
    · exact (locks_dropLock hw).trans ⟨And.left, fun h => ⟨h, hne rfl⟩⟩
    · exact Iff.rfl
  | tryLock d' =>
    refine ⟨hopened rfl, fun i => ?_⟩
    obtain ⟨x, m', hx⟩ : ∃ x m', m.tryLock d' = (x, m') := ⟨_, _, rfl⟩
    simp only [answer, hx]
    rcases tryLock_cases hx with ⟨_, -, rfl⟩ | ⟨g, -, -, ⟨-, rfl⟩ | ⟨hfree, rfl⟩⟩
    · exact Iff.rfl
    · exact Iff.rfl
    · simp only [Table.get?_insert]
      split
      · rename_i hi
        rw [hi, hfree]
        exact ⟨fun h => absurd (Option.some.inj h).symm (hne rfl), fun h => by cases h⟩
      · exact Iff.rfl
  | makeDirs | leadsTo | read | readPath | truncate | rewind | write | unlink | ownPid | probe | now
  | sleep | isRegistered | register | unregister | say =>
    exact ⟨hopened rfl, fun i => iff_of_eq (by rw [heffect.locks rfl])⟩

/-- An opening that there was, and that was closed. -/
structure Shut (d : Descriptor) (m : Machine) : Prop where
  closed : m.opened.get? d = none
  lt : d < m.nextDescriptor

theorem Shut.unlocked (h : m.Shut d) (hw : m.WellFormed) (i : Inode) : m.locks.get? i ≠ some d := by
  intro hlock
  obtain ⟨f, hd, -⟩ := hw.locked hlock
  rw [h.closed] at hd
  cases hd

/-- What others do that open no file under a number that was given. -/
structure Apart (me : Pid) (m m' : Machine) : Prop extends Untouched me m m' where
  shut : ∀ d, m.Shut d → m'.Shut d
  nextDescriptor : m.nextDescriptor ≤ m'.nextDescriptor

end Machine

/-! ## Replies -/

section Replies
variable {me : Pid} {m m' : Machine} {manner : Manner} {c : Call} {x : c.Answer} {d : Descriptor}

theorem Replies.wellFormed (h : Replies m me manner c x m') (hw : m.WellFormed) :
    m'.WellFormed := by
  cases h with
  | answered | torn => exact Machine.answer_wellFormed hw.tick me _
  | failed => exact hw

theorem Replies.nextDescriptor (h : Replies m me manner c x m') :
    m.nextDescriptor ≤ m'.nextDescriptor := by
  cases h with
  | answered | torn => exact Machine.nextDescriptor_answer m.tick me _
  | failed => exact Nat.le_refl _

theorem Replies.effect (h : Replies m me manner c x m') : Machine.Effect me c m m' := by
  have htick : ∀ {c' m'}, Machine.Effect me c' m.tick m' → Machine.Effect me c' m m' :=
    fun h => ⟨h.opened, h.locks, h.registry, Nat.le_trans (Nat.le_add_right _ _) h.clock⟩
  cases h with
  | answered => exact htick (Machine.effect me c m.tick)
  | failed => exact .same rfl rfl rfl (Nat.le_refl _)
  | @torn file bytes n =>
    have heffect := htick (Machine.effect me (.write file (bytes.take n)) m.tick)
    exact ⟨fun _ => heffect.opened rfl, fun _ => heffect.locks rfl, heffect.registry, heffect.clock⟩

/-- **A reply leaves alone the openings that its call is not about.** -/
theorem Replies.bypasses (h : Replies m me manner c x m') (hw : m.WellFormed)
    (hc : c.file? ≠ some d) (hd : d < m.nextDescriptor) : Machine.Bypasses d m m' := by
  have htick : ∀ {m'}, Machine.Bypasses d m.tick m' → Machine.Bypasses d m m' :=
    fun h => ⟨h.opened, h.locks⟩
  cases h with
  | answered => exact htick (Machine.bypasses_answer hw.tick me hc hd)
  | failed => exact .refl d m
  | @torn file bytes n =>
    exact htick (Machine.bypasses_answer (c := .write file (bytes.take n)) hw.tick me hc hd)

theorem Replies.of_not_failed (h : Replies m me manner c x m') (hx : ∀ e, c.failed? e ≠ some x)
    (hc : ∀ file bytes, c ≠ .write file bytes) : m.perform me c = (x, m') := by
  cases h with
  | answered => rfl
  | failed he => exact absurd he (hx _)
  | torn => exact absurd rfl (hc _ _)

theorem Replies.of_opened {p : Path} (h : Replies m me manner (.openFile p) (.ok d) m') :
    d = m.nextDescriptor ∧ ∃ f, m'.opened.get? d = some f ∧ f.process = me := by
  have hanswer := h.of_not_failed (fun e he => by cases he) nofun
  simp only [Machine.perform, Machine.answer] at hanswer
  split at hanswer <;> cases hanswer
  exact ⟨rfl, _, Table.get?_insert_self _ _ _, rfl⟩

theorem Replies.of_locked {f : OpenFile} (h : Replies m me manner (.tryLock d) (.ok ()) m')
    (hd : m.opened.get? d = some f) : m'.locks.get? f.inode = some d := by
  have hanswer := h.of_not_failed (fun e he => by cases he) nofun
  rcases Machine.tryLock_cases hanswer with ⟨_, hx, -⟩ | ⟨g, -, hg, hcases⟩
  · cases hx
  · have hg : m.opened.get? d = some g := hg
    rw [hd] at hg
    cases hg
    rcases hcases with ⟨hlock, rfl⟩ | ⟨-, rfl⟩
    · exact hlock
    · exact Table.get?_insert_self _ _ _

theorem Replies.of_close {u : Unit} (h : Replies m me manner (.close d) u m') :
    m'.opened.get? d = none := by
  cases h with
  | answered => exact Machine.opened_close.trans (if_pos rfl)
  | failed he => cases he

theorem Machine.Shut.reply (hd : m.Shut d) (h : Replies m me manner c x m') (hw : m.WellFormed) :
    m'.Shut d := by
  refine ⟨?_, Nat.lt_of_lt_of_le hd.lt h.nextDescriptor⟩
  by_cases hc : c.file? = some d
  · cases hopens : c.opensOrCloses with
    | false =>
      rcases h.effect.opened hopens d with hsame | ⟨f, _, -, hf, -⟩
      · exact hsame.trans hd.closed
      · rw [hd.closed] at hf
        cases hf
    | true =>
      cases c with
      | close d' =>
        cases hc
        exact h.of_close
      | openFile => cases hc
      | _ => cases hopens
  · exact (h.bypasses hw hc hd.lt).opened.trans hd.closed

/-- **What a call of another process does is done apart**, unless it is about a file of this
    process. -/
theorem Machine.apart_of_other {you : Pid} {c : Call} (hw : m.WellFormed) (hyou : you ≠ me)
    (hc : ∀ d f, c.file? = some d → m.opened.get? d = some f → f.process ≠ me) :
    m.Apart me (m.perform you c).2 :=
  ⟨(Machine.elsewhere_of_other hw hyou hc).toUntouched, fun _ hd => hd.reply .answered hw,
    Replies.nextDescriptor .answered⟩

end Replies

/-! ## What a role should have -/

/-- A machine gives a role what it should have, whatever else there is: its file is open, and
    locked if the role says so. -/
structure Machine.Backs (m : Machine) (me : Pid) (r : Role) : Prop where
  opened : ∀ d, r.file = some d → ∃ f, m.opened.get? d = some f ∧ f.process = me
  locked : ∀ d f, r.Locks d → m.opened.get? d = some f → m.locks.get? f.inode = some d

section Backs
variable {path : Path} {me : Pid} {r r' : Role} {m m' : Machine} {manner : Manner} {c : Call}
  {x : c.Answer} {d : Descriptor}

theorem Machine.backs_of_none (hr : r.file = none) (m : Machine) : m.Backs me r := by
  have hnone : ∀ d, r.file ≠ some d := by
    intro d hd
    rw [hr] at hd
    cases hd
  exact ⟨fun d hd => absurd hd (hnone d), fun d _ hd => absurd hd.file (hnone d)⟩

theorem Machine.Backs.hasLock {w : Progress} (h : m.Backs me (.owner d w)) : m.HasLock me d := by
  obtain ⟨f, hd, hf⟩ := h.opened d rfl
  exact ⟨f, hd, hf, h.locked d f rfl hd⟩

theorem Machine.Backs.lt (h : m.Backs me r) (hw : m.WellFormed) (hr : r.file = some d) :
    d < m.nextDescriptor := by
  obtain ⟨f, hd, -⟩ := h.opened d hr
  exact (hw.opened hd).1

theorem Machine.Backs.bypassed (h : m.Backs me r)
    (hm : ∀ d, r.file = some d → Machine.Bypasses d m m') : m'.Backs me r where
  opened d hd := by
    obtain ⟨f, hopen, hf⟩ := h.opened d hd
    exact ⟨f, (hm d hd).opened.trans hopen, hf⟩
  locked d f hd hopen :=
    ((hm d hd.file).locks _).2 (h.locked d f hd ((hm d hd.file).opened.symm.trans hopen))

theorem Machine.Backs.untouched (h : m.Backs me r) (hm : Machine.Untouched me m m') :
    m'.Backs me r := by
  refine h.bypassed fun d hd => ?_
  obtain ⟨f, hopen, hf⟩ := h.opened d hd
  exact hm.bypasses hopen hf

theorem Machine.Effect.backs (hm : Machine.Effect me c m m') (h : m.Backs me r)
    (hopens : c.opensOrCloses = false) (hfile : r'.file = r.file)
    (hlocks : ∀ d f, r'.Locks d → m.opened.get? d = some f → m'.locks.get? f.inode = some d) :
    m'.Backs me r' where
  opened d hd := by
    obtain ⟨f, hopen, hf⟩ := h.opened d (hfile ▸ hd)
    rcases hm.opened hopens d with hsame | ⟨g, o, -, hg, hafter⟩
    · exact ⟨f, hsame.trans hopen, hf⟩
    · rw [hopen] at hg
      cases hg
      exact ⟨_, hafter, hf⟩
  locked d f hd hopen := by
    rcases hm.opened hopens d with hsame | ⟨g, o, -, hg, hafter⟩
    · exact hlocks d f hd (hsame ▸ hopen)
    · rw [hafter] at hopen
      cases hopen
      exact hlocks d g hd hg

theorem Machine.Backs.follow (h : m.Backs me r) (hf : Follows path me r c x r')
    (hr : Replies m me manner c x m') : m'.Backs me r' := by
  have hplain : c.opensOrCloses = false → c.locksOrUnlocks = false → m'.Backs me r' := by
    intro hopens hlocks
    refine hr.effect.backs h hopens (hf.file_eq hopens) fun d f hd hopen => ?_
    rw [hr.effect.locks hlocks]
    exact h.locked d f (hf.locks_of hlocks hd) hopen
  cases hf with
  | @opened r d =>
    obtain ⟨-, hopen⟩ := hr.of_opened
    refine ⟨fun d' hd' => ?_, fun d f hd => hd.elim⟩
    cases hd'
    exact hopen
  | unopened | close => exact Machine.backs_of_none rfl m'
  | @locked d =>
    refine hr.effect.backs h rfl rfl fun d' f hd hopen => ?_
    obtain rfl : d = d' := hd
    exact hr.of_locked hopen
  | unlocked | unlock => exact hr.effect.backs h rfl rfl fun d f hd => hd.elim
  | stamped hs | unstamped hs => cases hs <;> exact hplain rfl rfl
  | _ => exact hplain rfl rfl

/-- **A role has what its calls have given it**, whatever else its process has. -/
theorem Machine.Backs.reply (h : m.Backs me r) (hheeds : Heeds path me r c x r')
    (hr : Replies m me manner c x m') : m'.Backs me r' := by
  cases hheeds with
  | follows hf => exact h.follow hf hr
  | anew _ _ hr' => exact Machine.backs_of_none hr' m'
  | aside hc =>
    obtain ⟨-, rfl⟩ := hr.of_aside hc
    exact h.untouched (Machine.untouched_aside m me hc)

/-- What a role has open, the next one has, unless it was shut. -/
theorem Heeds.file_or_shut (hheeds : Heeds path me r c x r') (hr : Replies m me manner c x m')
    (h : m.Backs me r) (hw : m.WellFormed) (hd : r.file = some d) :
    r'.file = some d ∨ m'.Shut d := by
  rcases hheeds.file_or_close hd with hsame | ⟨rfl, -⟩
  · exact Or.inl hsame
  · exact Or.inr ⟨hr.of_close, Nat.lt_of_lt_of_le (h.lt hw hd) hr.nextDescriptor⟩

theorem Heeds.file_or_fresh (hheeds : Heeds path me r c x r') (hr : Replies m me manner c x m')
    (hd : r'.file = some d) : r.file = some d ∨ d = m.nextDescriptor := by
  rcases hheeds.file_or_opened hd with hsame | hopened
  · exact Or.inl hsame
  · cases hopened
    exact Or.inr hr.of_opened.1

end Backs

end NamedMutex
