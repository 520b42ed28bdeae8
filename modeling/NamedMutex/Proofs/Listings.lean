/-
  What acquisitions and guards register.

  An acquisition registers the path of its mutex once, when it has locked it, and
  the drop of the guard takes this registration back, when it has released it.
  Nothing else that they do concerns the registry.

  * `Program.Lists` follows a program through what it registers;
  * `start_lists`: an acquisition that polls ends with a guard and a registration,
    or with neither, and never because the process holds the mutex already;
  * `drop_lists`: the drop of a guard ends without a registration;
  * `acquireTimed_eq_ask` and `acquireTimed_lists` say when the registry is asked.
-/
import NamedMutex.Proofs.Answers
import NamedMutex.Timed

namespace NamedMutex

namespace Call

/-- What a program has registered, and not taken back, after a call. -/
def listing : Call → Option Path → Option Path
  | register p, _ => some p
  | unregister _, _ => none
  | _, l => l

/-- The calls that a program may make for the mutex at `path`: it registers that
    path if it has not, and takes the registration back if it has. -/
def Permitted (path : Path) (l : Option Path) : Call → Prop
  | register p => p = path ∧ l = none
  | unregister p => p = path ∧ l = some path
  | _ => True

/-- The registry of a process after a call. -/
def enter (r : Registry) : Call → Registry
  | register p => r.register p
  | unregister p => r.unregister p
  | _ => r

end Call

namespace Program

variable {α β : Type}

/-- Programs that make permitted calls only, and end as `Q` says. -/
def Lists (path : Path) (me : Pid) (Q : Completion α → Option Path → Prop) :
    Program α → Option Path → Prop
  | .done a, l => Q (.returned a) l
  | .halt h, l => Q (.halted h) l
  | .ask c next, l =>
    c.Permitted path l ∧ ∀ x, c.Answers me x → (next x).Lists path me Q (c.listing l)

section Lists
variable {path : Path} {me : Pid} {l : Option Path} {Q : Completion β → Option Path → Prop}

theorem Lists.mono {Q' : Completion β → Option Path → Prop} {p : Program β}
    (hp : p.Lists path me Q l) (hQ : ∀ c l, Q c l → Q' c l) : p.Lists path me Q' l := by
  induction p generalizing l with
  | done | halt => exact hQ _ _ hp
  | ask c next ih => exact ⟨hp.1, fun x hx => ih x (hp.2 x hx)⟩

theorem Lists.bind {R : Completion α → Option Path → Prop} {p : Program α} {f : α → Program β}
    (hp : p.Lists path me R l) (hf : ∀ a l, R (.returned a) l → (f a).Lists path me Q l)
    (hhalt : ∀ h l, R (.halted h) l → Q (.halted h) l) : (p.bind f).Lists path me Q l := by
  induction p generalizing l with
  | done a => exact hf a l hp
  | halt h => exact hhalt h l hp
  | ask c next ih => exact ⟨hp.1, fun x hx => ih x (hp.2 x hx)⟩

theorem Lists.within {p : Program β} (hp : p.Lists path me Q l) (s : Span) :
    (p.within s).Lists path me Q l := by
  induction p generalizing l with
  | done | halt => exact hp
  | ask c next ih =>
    have hstep : c.Permitted path l ∧
        ∀ x, c.Answers me x → ((next x).within s).Lists path me Q (c.listing l) :=
      ⟨hp.1, fun x hx => ih x (hp.2 x hx)⟩
    cases c with
    | say o => cases o <;> exact hstep
    | _ => exact hstep

theorem Lists.report {e : Event} {f : Unit → Program β} (hf : (f ()).Lists path me Q l) :
    (Program.report e >>= f).Lists path me Q l := ⟨trivial, fun _ _ => hf⟩

/-- Between its calls a program has registered the path or nothing, if that is so
    when it ends. -/
theorem Lists.listed {p : Program β} (hp : p.Lists path me Q l)
    (hQ : ∀ c l, Q c l → l = none ∨ l = some path) : l = none ∨ l = some path := by
  induction p generalizing l with
  | done | halt => exact hQ _ _ hp
  | ask c next ih =>
    obtain ⟨hpermitted, hnext⟩ := hp
    obtain ⟨x, hx⟩ := c.exists_answers me
    have hlater := ih x (hnext x hx)
    cases c with
    | register => exact Or.inl hpermitted.2
    | unregister => exact Or.inr hpermitted.2
    | _ => exact hlater

theorem Obeys.lists {path' : Path} {R : Completion β → Role → Prop} {p : Program β} {r : Role}
    (hp : p.Obeys path' me R r) : p.Lists path me (fun c l' => l' = l ∧ ∃ r, R c r) l := by
  induction p generalizing r with
  | done | halt => exact ⟨rfl, r, hp⟩
  | ask c next ih =>
    -- no call that follows the protocol is one to the registry
    have hfollows : ∀ {x r'}, Follows path' me r c x r' → c.Permitted path l ∧ c.listing l = l := by
      intro x r' hf
      cases hf with
      | stamped hstamp | unstamped hstamp => cases hstamp <;> exact ⟨trivial, rfl⟩
      | _ => exact ⟨trivial, rfl⟩
    obtain ⟨x, hx⟩ := c.exists_answers me
    obtain ⟨r', hf, -⟩ := hp x hx
    obtain ⟨hpermitted, hsame⟩ := hfollows hf
    refine ⟨hpermitted, fun x hx => ?_⟩
    obtain ⟨r', -, hnext⟩ := hp x hx
    rw [hsame]
    exact ih x hnext

end Lists

end Program

open Program

section Acquisitions
variable {dir : Path} {name : String} {me : Pid} {options : AcquireOptions}

/-- How an acquisition of the mutex at `path` ends: with a guard that is registered,
    or without either. -/
def AcquireTimed.Settles (path : Path) :
    Completion (Except AcquireError Guard) → Option Path → Prop
  | .returned (.ok g), l => g.handle.path = path ∧ l = some path
  | .returned (.error e), l => l = none ∧ ∀ n, e ≠ .notReentrant n
  | .halted _, l => l = none

/-- How a drop ends. -/
def Guard.Forgets : Completion Unit → Option Path → Prop
  | .returned _, l => l = none
  | .halted _, _ => False

theorem Handle.release_lists {path : Path} {l : Option Path} {h : Handle}
    (hpath : h.path = lockPath dir name) :
    h.release.Lists path me (fun c l' => l' = l ∧ ∃ h', c = .returned h' ∧ h'.path = h.path) l := by
  -- the role of the owner, if the handle holds the mutex
  have hobeys : ∃ r, h.release.Obeys (lockPath dir name) me (Returns (Releases dir name)) r := by
    cases hheld : h.held with
    | none =>
      exact ⟨.out none, release_obeys hpath (fun d hd => by rw [hheld] at hd; cases hd)
        fun _ => ⟨_, rfl⟩⟩
    | some d =>
      refine ⟨.owner d .stamped, release_obeys hpath (fun d' hd => ?_) fun hnone => ?_⟩
      · rw [hheld] at hd
        cases hd
        rfl
      · rw [hheld] at hnone
        cases hnone
  obtain ⟨r, hobeys⟩ := hobeys
  refine hobeys.lists.mono fun c l' hc => ?_
  obtain ⟨hl, r', hreleases⟩ := hc
  cases c with
  | returned h' => exact ⟨hl, h', rfl, hreleases.1.trans hpath.symm⟩
  | halted => exact hreleases.elim

/-- **The drop of a guard takes its registration back.** -/
theorem Guard.drop_lists {g : Guard} (hpath : g.handle.path = lockPath dir name) :
    g.drop.Lists (lockPath dir name) me Guard.Forgets (some (lockPath dir name)) := by
  unfold Guard.drop
  refine (Handle.release_lists hpath).bind (fun h l hh => ?_) fun _ l hh => ?_
  · obtain ⟨rfl, h', heq, hsame⟩ := hh
    cases heq
    exact ⟨⟨hsame.trans hpath, rfl⟩, fun _ _ => rfl⟩
  · obtain ⟨-, h', heq, -⟩ := hh
    cases heq

namespace AcquireTimed

theorem poll_lists (started : Duration) : ∀ n attempts,
    (poll dir name options started n attempts).Lists (lockPath dir name) me
      (Settles (lockPath dir name)) none
  | 0, _ => rfl
  | n + 1, attempts => by
    unfold poll
    refine (Handle.acquire_obeys dir name me).lists.bind (fun result l hresult => ?_)
      fun h l hhalt => ?_
    · obtain ⟨rfl, r, hacquires⟩ := hresult
      cases result with
      | error e => exact ⟨rfl, fun n h => by cases h⟩
      | ok h =>
        obtain ⟨hpath, -⟩ := hacquires
        dsimp only
        split
        · unfold Guard.make
          exact ⟨⟨hpath, rfl⟩, fun _ _ => .report ⟨hpath, congrArg some hpath⟩⟩
        · refine (Handle.release_lists hpath).bind (fun h' l hl => ?_) fun _ l hl => hl.1
          obtain ⟨rfl, -⟩ := hl
          refine ⟨trivial, fun now _ => ?_⟩
          simp only [done_bind]
          split
          · exact .report ⟨rfl, fun n h => by cases h⟩
          · exact ⟨trivial, fun _ _ => poll_lists started n (attempts + 1)⟩
    · exact hhalt.1

/-- **An acquisition that polls registers its guard**, and nothing else; and it is
    not refused for what the process holds. -/
theorem start_lists : (start dir name options).Lists (lockPath dir name) me
    (Settles (lockPath dir name)) none := ⟨trivial, fun started _ => poll_lists started _ _⟩

end AcquireTimed

variable {env : Environment}

/-- An acquisition that looks first whether the process holds the mutex. -/
def AcquireOptions.Looks (options : AcquireOptions) (name : String) : Prop :=
  IsValidName name ∧ options.checkReentrant = true

/-- An acquisition that looks first asks the registry, and polls unless the path is
    registered. -/
theorem acquireTimed_eq_ask (h : options.Looks name) : acquireTimed env name options =
    .ask (.isRegistered (lockPath (options.directory env) name)) fun x =>
      if x then .done (.error (.notReentrant name))
      else (AcquireTimed.start (options.directory env) name options).within
        (.timed name options.timeout) := by
  obtain ⟨hname, hcheck⟩ := h
  simp only [acquireTimed, hname, hcheck, if_true]
  refine congrArg (Program.ask _) (funext fun x => ?_)
  cases x <;> rfl

theorem acquireTimed_lists (h : ¬ options.Looks name) :
    (acquireTimed env name options).Lists (lockPath (options.directory env) name) me
      (AcquireTimed.Settles (lockPath (options.directory env) name)) none := by
  unfold acquireTimed
  refine Lists.within ?_ _
  split
  · rename_i hname
    split
    · rename_i hcheck
      exact absurd ⟨hname, hcheck⟩ h
    · exact AcquireTimed.start_lists
  · exact ⟨rfl, fun n h => by cases h⟩

end Acquisitions

end NamedMutex
