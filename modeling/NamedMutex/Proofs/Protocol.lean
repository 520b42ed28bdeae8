/-
  The protocol that attempts and releases follow.

  A role says what a party has achieved: which file it has open, whether it has
  locked it and found it linked, how far its stamp has come, and why it gave up.
  `Follows` lists the calls that a role may make and the roles that the answers
  lead to, and `Obeys` holds of the programs that make no others.

  * `acquire_obeys`, `release_obeys`: attempts and releases obey, whatever they
    are answered, and end in the role that their outcome tells of;
  * hence a file is stamped and removed only in the role of its owner.
-/
import NamedMutex.Handle

namespace NamedMutex

/-- Why an attempt gives up. -/
inductive Excuse where
  /-- A call failed. -/
  | failure
  /-- Somebody else has locked the file. -/
  | refused
  /-- The path does not lead to the locked file. -/
  | orphaned
  /-- The file holds no text. -/
  | illegible
  deriving DecidableEq, Repr

/-- How far the owner of a linked file is with its stamp. -/
inductive Progress where
  | linked
  /-- The old stamp was read. -/
  | seen
  | truncated
  | rewound
  /-- The number is written, the newline is not. -/
  | numbered
  | stamped
  deriving DecidableEq, Repr

/-- What a party has achieved. -/
inductive Role where
  /-- The lock directory is not made yet. -/
  | outside
  | ready
  | opened (file : Descriptor)
  | locked (file : Descriptor)
  /-- The file is locked, and it was linked then. -/
  | owner (file : Descriptor) (w : Progress)
  /-- The file is given up, but not closed yet. -/
  | leaving (file : Descriptor) (e : Option Excuse)
  /-- No file is open. -/
  | out (e : Option Excuse)
  deriving DecidableEq, Repr

namespace Role

/-- The file that a role has open. -/
def file : Role → Option Descriptor
  | opened d | locked d | owner d _ | leaving d _ => some d
  | outside | ready | out _ => none

/-- The role in which an attempt at a path begins. -/
def start (path : Path) : Role := if path.parent? = none then .ready else .outside

theorem start_cases (path : Path) : start path = .ready ∨ start path = .outside := by
  unfold start
  split
  · exact Or.inl rfl
  · exact Or.inr rfl

theorem file_start (path : Path) : (start path).file = none := by
  rcases start_cases path with h | h <;> rw [h] <;> rfl

/-- The roles that may open the path. -/
def Opens (r : Role) : Prop := r = .ready ∨ r = .out (some .orphaned)

end Role

/-- The excuse of an attempt that could not lock its file. -/
def Excuse.ofLock (e : IoError) : Excuse := if e.IsContention then .refused else .failure

/-- What the system tells a process of itself. -/
def Call.Answers (me : Pid) : (c : Call) → c.Answer → Prop
  | ownPid, x => x = me
  | _, _ => True

/-- The call that the owner of a file makes next for its stamp. -/
inductive Stamps (me : Pid) (d : Descriptor) :
    Progress → (c : Call) → (Except IoError Unit → c.Answer) → Progress → Prop
  | truncate : Stamps me d .seen (.truncate d) id .truncated
  | rewind : Stamps me d .truncated (.rewind d) id .rewound
  | number : Stamps me d .rewound (.write d (Stamp.digits me)) id .numbered
  | newline : Stamps me d .numbered (.write d Stamp.newline) id .stamped

/-- The calls that a role makes, and the roles that their answers lead to. -/
inductive Follows (path : Path) (me : Pid) : Role → (c : Call) → c.Answer → Role → Prop
  -- what makes no difference
  | say {r o} : Follows path me r (.say o) () r
  | ownPid {r} : Follows path me r .ownPid me r
  | probe {r pid x} : Follows path me r (.probe pid) x r
  | readPath {r p x} : Follows path me r (.readPath p) x r
  -- up to the lock
  | made {dir} : path.parent? = some dir →
      Follows path me .outside (.makeDirs dir) (.ok ()) .ready
  | unmade {dir e} : path.parent? = some dir →
      Follows path me .outside (.makeDirs dir) (.error e) (.out (some .failure))
  | opened {r d} : r.Opens → Follows path me r (.openFile path) (.ok d) (.opened d)
  | unopened {r e} : r.Opens →
      Follows path me r (.openFile path) (.error e) (.out (some .failure))
  | locked {d} : Follows path me (.opened d) (.tryLock d) (.ok ()) (.locked d)
  | unlocked {d e} : Follows path me (.opened d) (.tryLock d) (.error e)
      (.leaving d (some (.ofLock e)))
  | linked {d} : Follows path me (.locked d) (.leadsTo path d) true (.owner d .linked)
  | orphaned {d} : Follows path me (.locked d) (.leadsTo path d) false
      (.leaving d (some .orphaned))
  -- the stamp
  | seen {d bytes s} : Utf8.decode? bytes = some s →
      Follows path me (.owner d .linked) (.read d) (.ok bytes) (.owner d .seen)
  | illegible {d bytes} : Utf8.decode? bytes = none →
      Follows path me (.owner d .linked) (.read d) (.ok bytes) (.leaving d (some .illegible))
  | unread {d e} : Follows path me (.owner d .linked) (.read d) (.error e)
      (.leaving d (some .failure))
  | stamped {d w c answer w'} : Stamps me d w c answer w' →
      Follows path me (.owner d w) c (answer (.ok ())) (.owner d w')
  | unstamped {d w c answer w' e} : Stamps me d w c answer w' →
      Follows path me (.owner d w) c (answer (.error e)) (.leaving d (some .failure))
  -- the way out
  | unlink {d x} : Follows path me (.owner d .stamped) (.unlink path) x (.leaving d none)
  | unlock {d e x} : Follows path me (.leaving d e) (.unlock d) x (.leaving d e)
  | close {d e} : Follows path me (.leaving d e) (.close d) () (.out e)

namespace Program

variable {α β : Type}

/-- Programs that follow the protocol from a role on, and end as `Q` says. -/
def Obeys (path : Path) (me : Pid) (Q : Completion α → Role → Prop) : Program α → Role → Prop
  | .done a, r => Q (.returned a) r
  | .halt h, r => Q (.halted h) r
  | .ask c next, r => ∀ x, c.Answers me x →
      ∃ r', Follows path me r c x r' ∧ Obeys path me Q (next x) r'

/-- Ends with a value of which `R` holds. -/
def Returns (R : α → Role → Prop) : Completion α → Role → Prop
  | .returned a, r => R a r
  | .halted _, _ => False

section Obeys
variable {path : Path} {me : Pid} {r : Role} {Q : Completion β → Role → Prop}

theorem Obeys.bind {R : α → Role → Prop} {p : Program α} {f : α → Program β}
    (hp : p.Obeys path me (Returns R) r) (hf : ∀ a r, R a r → (f a).Obeys path me Q r) :
    (p.bind f).Obeys path me Q r := by
  induction p generalizing r with
  | done a => exact hf a r hp
  | halt => exact hp.elim
  | ask c next ih =>
    intro x hx
    obtain ⟨r', hfollows, hnext⟩ := hp x hx
    exact ⟨r', hfollows, ih x hnext⟩

theorem Obeys.call {c : Call} {f : c.Answer → Program β}
    (h : ∀ x, c.Answers me x → ∃ r', Follows path me r c x r' ∧ (f x).Obeys path me Q r') :
    (Program.call c >>= f).Obeys path me Q r := h

theorem Obeys.within {p : Program β} (hp : p.Obeys path me Q r) (s : Span) :
    (p.within s).Obeys path me Q r := by
  induction p generalizing r with
  | done | halt => exact hp
  | ask c next ih =>
    have hstep : ∀ x, c.Answers me x →
        ∃ r', Follows path me r c x r' ∧ ((next x).within s).Obeys path me Q r' := by
      intro x hx
      obtain ⟨r', hfollows, hnext⟩ := hp x hx
      exact ⟨r', hfollows, ih x hnext⟩
    cases c with
    | say o =>
      cases o with
      | event scope e =>
        intro x hx
        obtain ⟨r', hfollows, hnext⟩ := hstep x hx
        cases hfollows with
        | say => exact ⟨r, .say, hnext⟩
        | stamped h | unstamped h => cases h
      | line | errorLine => exact hstep
    | _ => exact hstep

end Obeys

/-- Programs that make no difference to any role. -/
def Neutral (path : Path) (me : Pid) (p : Program α) : Prop :=
  ∀ r, p.Obeys path me (Returns fun _ r' => r' = r) r

section Neutral
variable {path : Path} {me : Pid}

theorem Neutral.pure (a : α) : Neutral path me (Pure.pure a : Program α) := fun _ => rfl

theorem Neutral.bind {p : Program α} {f : α → Program β} (hp : Neutral path me p)
    (hf : ∀ a, Neutral path me (f a)) : Neutral path me (p >>= f) := by
  intro r
  refine (hp r).bind ?_
  rintro a r' rfl
  exact hf a r'

theorem Neutral.then {p : Program α} {f : α → Program β} {r : Role}
    {Q : Completion β → Role → Prop} (hp : Neutral path me p)
    (hf : ∀ a, (f a).Obeys path me Q r) : (p >>= f).Obeys path me Q r := by
  refine (hp r).bind ?_
  rintro a r' rfl
  exact hf a

theorem neutral_report (e : Event) : Neutral path me (report e) :=
  fun _ _ _ => ⟨_, .say, rfl⟩

theorem neutral_isAlive (pid : Pid) : Neutral path me (isAlive pid) := by
  unfold isAlive
  split
  · exact .pure _
  · refine Neutral.bind (fun _ _ _ => ⟨_, .probe, rfl⟩) fun x => ?_
    cases x <;> exact .pure _

theorem neutral_ownerOf (content : String) : Neutral path me (ownerOf content) := by
  unfold ownerOf
  split
  · exact .pure _
  · exact (neutral_isAlive _).bind fun _ => .pure _

end Neutral

end Program

namespace Attempt

open Program

variable {path : Path} {me : Pid} {d : Descriptor}

/-- The role in which an attempt ends. -/
def Ends : Attempt → Role → Prop
  | .ok (some d), r => r = .owner d .stamped
  | .ok none, r => ∃ e, r = .out (some e)
  | .error _, r => r = .out (some .failure)

theorem neutral_busyOwner (p : Path) : Neutral path me (busyOwner p) := by
  unfold busyOwner
  refine Neutral.bind (fun _ _ _ => ⟨_, .readPath, rfl⟩) fun x => ?_
  split
  · exact neutral_ownerOf _
  · exact .pure _

theorem neutral_reportFormerOwner (p : Path) (pid : Pid) (content : String) :
    Neutral path me (reportFormerOwner p pid content) := by
  unfold reportFormerOwner
  split
  · exact .pure _
  split
  · exact neutral_report _
  · refine (neutral_isAlive _).bind fun alive => ?_
    cases alive <;> exact neutral_report _

theorem fail_obeys (e : IoError) (event : Event) :
    (fail e event).Obeys path me (Returns Ends) (.out (some .failure)) := by
  unfold fail
  split
  · exact rfl
  · exact (neutral_report _).then fun _ => ⟨_, rfl⟩

theorem closing_obeys {p : Program Attempt} {r : Role}
    (hp : p.Obeys path me (Returns fun a r => ∃ e, r = .leaving d e ∧ Ends a (.out e)) r) :
    (closing d p).Obeys path me (Returns Ends) r := by
  unfold closing
  refine hp.bind ?_
  rintro a r' ⟨e, rfl, ha⟩
  exact .call fun x _ => ⟨.out e, .close, ha⟩

/-- What becomes of a stamp. -/
def Stamped (d : Descriptor) : Except IoError Unit → Role → Prop
  | .ok (), r => r = .owner d .stamped
  | .error _, r => ∃ e, r = .leaving d (some e)

theorem restamp_obeys : (restamp me d).Obeys path me (Returns (Stamped d)) (.owner d .seen) := by
  unfold restamp andThen
  refine .call fun x _ => ?_
  cases x with
  | error e => exact ⟨_, .unstamped .truncate, _, rfl⟩
  | ok =>
    refine ⟨_, .stamped .truncate, .call fun x _ => ?_⟩
    cases x with
    | error e => exact ⟨_, .unstamped .rewind, _, rfl⟩
    | ok =>
      refine ⟨_, .stamped .rewind, .call fun x _ => ?_⟩
      cases x with
      | error e => exact ⟨_, .unstamped .number, _, rfl⟩
      | ok =>
        refine ⟨_, .stamped .number, fun x _ => ?_⟩
        cases x with
        | error e => exact ⟨_, .unstamped .newline, _, rfl⟩
        | ok => exact ⟨_, .stamped .newline, rfl⟩

theorem stamp_obeys :
    (stamp path d).Obeys path me (Returns (Stamped d)) (.owner d .linked) := by
  unfold stamp
  refine .call fun x _ => ?_
  cases x with
  | error e => exact ⟨_, .unread, _, rfl⟩
  | ok bytes =>
    cases hs : Utf8.decode? bytes with
    | none =>
      refine ⟨_, .illegible hs, ?_⟩
      simp only [readText, hs]
      exact ⟨_, rfl⟩
    | some s =>
      refine ⟨_, .seen hs, ?_⟩
      simp only [readText, hs]
      refine .call fun x hx => ?_
      obtain rfl : x = me := hx
      exact ⟨_, .ownPid, (neutral_reportFormerOwner _ _ _).then fun _ => restamp_obeys⟩

theorem finish_obeys :
    (finish path d).Obeys path me (Returns Ends) (.owner d .linked) := by
  unfold finish
  refine stamp_obeys.bind fun a r ha => ?_
  cases a with
  | ok => exact ha
  | error e =>
    obtain ⟨excuse, rfl⟩ := ha
    refine closing_obeys ((neutral_report _).then fun _ => .call fun x _ => ?_)
    exact ⟨_, .unlock, _, rfl, _, rfl⟩

theorem refused_obeys (e : IoError) :
    (refused path d e).Obeys path me (Returns Ends) (.leaving d (some (.ofLock e))) := by
  unfold refused
  refine closing_obeys ?_
  split
  · refine (neutral_busyOwner _).then fun _ => (neutral_report _).then fun _ => ?_
    exact ⟨_, rfl, _, rfl⟩
  · rename_i he
    have hexcuse : Excuse.ofLock e = .failure := if_neg he
    rw [hexcuse]
    unfold fail
    split
    · exact ⟨_, rfl, rfl⟩
    · exact (neutral_report _).then fun _ => ⟨_, rfl, _, rfl⟩

theorem orphan_obeys {again : Program Attempt}
    (h : again.Obeys path me (Returns Ends) (.out (some .orphaned))) :
    (orphan d again).Obeys path me (Returns Ends) (.leaving d (some .orphaned)) := by
  unfold orphan
  refine (neutral_report _).then fun _ => .call fun x _ => ⟨_, .unlock, .call fun x _ => ?_⟩
  exact ⟨_, .close, h⟩

theorem tryRounds_obeys (path : Path) : ∀ (n : Nat) (r : Role),
    r.Opens → (n = 0 → r = .out (some .orphaned)) →
      (tryRounds path n).Obeys path me (Returns Ends) r
  | 0, _, _, hr => ⟨_, hr rfl⟩
  | n + 1, r, hopens, _ => by
    unfold tryRounds
    refine .call fun x _ => ?_
    cases x with
    | error e => exact ⟨_, .unopened hopens, fail_obeys e _⟩
    | ok d =>
      refine ⟨_, .opened hopens, .call fun x _ => ?_⟩
      cases x with
      | error e => exact ⟨_, .unlocked, refused_obeys e⟩
      | ok =>
        refine ⟨_, .locked, .call fun x _ => ?_⟩
        cases x with
        | true => exact ⟨_, .linked, finish_obeys⟩
        | false =>
          exact ⟨_, .orphaned, orphan_obeys (tryRounds_obeys path n _ (Or.inr rfl) fun _ => rfl)⟩

theorem attempt_obeys :
    (attempt path).Obeys path me (Returns Ends) (.start path) := by
  unfold attempt
  refine Obeys.within ?_ _
  have hready : (tryRounds path rounds).Obeys path me (Returns Ends) .ready :=
    tryRounds_obeys path _ _ (Or.inl rfl) fun h => by cases h
  cases hp : path.parent? with
  | none => simpa only [Role.start, hp, if_true] using hready
  | some dir =>
    simp only [Role.start, hp, reduceCtorEq, if_false]
    refine .call fun x _ => ?_
    cases x with
    | error e => exact ⟨_, .unmade hp, fail_obeys e _⟩
    | ok => exact ⟨_, .made hp, hready⟩

end Attempt

namespace Handle

open Program

/-- The role in which an attempt leaves its handle. -/
def Acquires (dir : Path) (name : String) : Completion (Except IoError Handle) → Role → Prop
  | .returned (.ok h), r => h.path = lockPath dir name ∧ h.disposed = false ∧
      Attempt.Ends (.ok h.held) r
  | .returned (.error _), r => r = .out (some .failure)
  | .halted _, r => ¬ IsValidName name ∧ r = .start (lockPath dir name)

/-- The role in which a release leaves its handle. -/
def Releases (dir : Path) (name : String) (h : Handle) (r : Role) : Prop :=
  h.path = lockPath dir name ∧ h.held = none ∧ ∃ e, r = .out e

/-- **An attempt obeys the protocol**, whatever it is answered. -/
theorem acquire_obeys (dir : Path) (name : String) (me : Pid) :
    (acquire dir name).Obeys (lockPath dir name) me (Acquires dir name)
      (.start (lockPath dir name)) := by
  unfold acquire
  refine Obeys.within ?_ _
  split
  · refine Attempt.attempt_obeys.bind fun a r ha => ?_
    cases a with
    | error e => exact ha
    | ok held =>
      cases held with
      | none => exact ⟨rfl, rfl, ha⟩
      | some d => exact (neutral_report _).then fun _ => ⟨rfl, rfl, ha⟩
  · rename_i hname
    exact ⟨hname, rfl⟩

/-- **A release obeys the protocol**, whatever it is answered. -/
theorem release_obeys {dir : Path} {name : String} {me : Pid} {h : Handle} {r : Role}
    (hpath : h.path = lockPath dir name)
    (hr : ∀ d, h.held = some d → r = .owner d .stamped) (hout : h.held = none → ∃ e, r = .out e) :
    h.release.Obeys (lockPath dir name) me (Returns (Releases dir name)) r := by
  unfold release
  cases hheld : h.held with
  | none => exact ⟨hpath, hheld, hout hheld⟩
  | some d =>
    obtain rfl := hr d hheld
    have hreleased : h.released.held = none ∧ h.released.path = h.path := by
      simp [released_eq]
    have hremove : (removeFile h.path).Obeys (lockPath dir name) me
        (Returns fun _ r => r = .leaving d none) (.owner d .stamped) := by
      unfold removeFile
      rw [hpath]
      refine .call fun x _ => ⟨_, .unlink, ?_⟩
      cases x with
      | ok => exact rfl
      | error e =>
        dsimp only
        split
        · exact rfl
        · exact neutral_report _ _
    have hclose : (closeFile h.path h.name d).Obeys (lockPath dir name) me
        (Returns fun _ r => r = .out none) (.leaving d none) := by
      unfold closeFile
      refine .call fun x _ => ⟨_, .unlock, ?_⟩
      have hend : (do report (.released h.name); call (.close d) : Program Unit).Obeys
          (lockPath dir name) me (Returns fun _ r => r = .out none) (.leaving d none) :=
        (neutral_report _).then fun _ _ _ => ⟨_, .close, rfl⟩
      cases x with
      | ok => exact hend
      | error e => exact (neutral_report _).then fun _ => hend
    refine hremove.bind ?_
    rintro _ _ rfl
    refine hclose.bind ?_
    rintro _ _ rfl
    exact ⟨hreleased.2.trans hpath, hreleased.1, _, rfl⟩

end Handle

end NamedMutex
