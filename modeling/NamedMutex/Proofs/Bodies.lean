/-
  Bodies that run while a mutex is held.

  A body makes calls to the library in any order, decided by what they yield, and takes in hand
  the handles and guards that it gets.  It may run other bodies while it holds other mutexes, or
  catch their panics.  However it ends, it gives up what it has taken in hand, the latest first.

  * `Body` is a body and `Body.program` what it does, a panic being passed on like a value;
  * `Handed` is what a process has that holds some handles and guards; `Spares` is what a part
    of a body leaves of that and of all else that the process holds;
  * `Handed.turn`: what becomes of it when a call to the library takes something in hand, or
    gives it up; `Handed.call`, `Handed.giveUp` and `Handed.leave` from it.
-/
import NamedMutex.Proofs.Sojourns
import NamedMutex.Proofs.Tenures

namespace NamedMutex

open Program

/-! ## Bodies -/

/-- Calls to the library, by what they yield. -/
inductive Chore : Type → Type
  | attempt (dir : Path) (name : String) : Chore (Except IoError Handle)
  | acquire (env : Environment) (name : String) (options : AcquireOptions) :
    Chore (Except AcquireError Guard)
  | isHeldLocally (dir : Path) (name : String) : Chore Bool
  | readOwner (dir : Path) (name : String) : Chore (Except IoError (Option Owner))
  | isAlive (pid : Pid) : Chore Bool
  | ownPid : Chore Pid

namespace Chore

variable {β : Type}

def program : {β : Type} → Chore β → Program β
  | _, attempt dir name => Handle.acquire dir name
  | _, acquire env name options => acquireTimed env name options
  | _, isHeldLocally dir name => NamedMutex.isHeldLocally dir name
  | _, readOwner dir name => NamedMutex.readOwner dir name
  | _, isAlive pid => NamedMutex.isAlive pid
  | _, ownPid => Program.call .ownPid

/-- What has to be given up some time. -/
def yields? : {β : Type} → Chore β → β → Option Holding
  | _, attempt _ _, x => x.toOption.map .handle
  | _, acquire _ _ _, x => x.toOption.map .guard
  | _, isHeldLocally _ _, _ | _, readOwner _ _, _ | _, isAlive _, _ | _, ownPid, _ => none

end Chore

/-- What bodies have in hand, the latest first: what each call has yielded, until it is given
    up. -/
abbrev Hands := List (Option Holding)

/-- Programs that take something in hand, or give it up. -/
abbrev Acting := StateT Hands Program

/-- A call to the library, whose end is the value. -/
def lib {β : Type} (p : Program β) : Acting (Completion β) := StateT.lift p.capture

/-- Releases a handle, or drops a guard. -/
def Holding.giveUp : Option Holding → Program Unit
  | none => pure ()
  | some (.handle h) => do
    let _ ← h.release
    pure ()
  | some (.guard g) => g.drop

namespace Hands

/-- Gives up what a call has yielded, `k` calls before the latest. -/
def giveUp (k : Nat) : Acting Unit := fun hands => do
  let _ ← (Holding.giveUp hands[k]?.join).capture
  pure ((), hands.set k none)

/-- Gives up all but the first `n` that were taken in hand, the latest first. -/
def leave (n : Nat) : Hands → Program Hands
  | [] => pure []
  | o :: hands =>
    if hands.length < n then pure (o :: hands)
    else do
      let _ ← (Holding.giveUp o).capture
      leave n hands

/-- What is done in a scope of its own: in the end, all that was taken in hand is given up. -/
def enclosed {β : Type} (act : Acting β) : Acting β := fun hands => do
  let (z, hands') ← act hands
  let hands'' ← leave hands.length hands'
  pure (z, hands'')

end Hands

/-- What may run while a mutex is held. -/
inductive Body : Type → Type 1
  | done {α : Type} (a : α) : Body α
  | panic {α : Type} (message : String) : Body α
  | call {α β : Type} (c : Chore β) (next : β → Body α) : Body α
  /-- Releases a handle or drops a guard, one that is in hand. -/
  | giveUp {α : Type} (k : Nat) (next : Body α) : Body α
  /-- Runs a body while a mutex is held. -/
  | within {α β : Type} (env : Environment) (name : String) (options : AcquireOptions)
    (inner : Body β) (next : Except AcquireError β → Body α) : Body α
  /-- Runs a body and goes on with its value, or with the message of its panic. -/
  | catching {α β : Type} (inner : Body β) (next : Except String β → Body α) : Body α

namespace Body

/-- What a body does, and how it ends.  A panic of a call, or of a body that it runs, ends it. -/
def run : {α : Type} → Body α → Acting (Completion α)
  | _, done a => pure (.returned a)
  | _, panic message => pure (.halted (.panicked message))
  | _, call c next => do
    match ← lib c.program with
    | .returned x => do
      modify (c.yields? x :: ·)
      (next x).run
    | .halted h => pure (.halted h)
  | _, giveUp k next => do
    Hands.giveUp k
    next.run
  | _, within env name options inner next => do
    match ← withMutex lib env name options (Hands.enclosed inner.run) with
    | .returned x => (next x).run
    | .halted h => pure (.halted h)
  | _, catching inner next => do
    match ← Hands.enclosed inner.run with
    | .returned x => (next (.ok x)).run
    | .halted (.panicked message) => (next (.error message)).run
    | .halted .unfinished => pure (.halted .unfinished)

/-- A body as a program: it begins with nothing in hand. -/
def program {α : Type} (body : Body α) : Program α := do
  let (z, _) ← Hands.enclosed body.run []
  ofCompletion z

end Body

/-! ## What is in hand -/

/-- The path that a holding has registered. -/
def Holding.listed? : Holding → Option Path
  | handle _ => none
  | guard g => some g.handle.path

namespace Hands

/-- The files that are locked by what is in hand. -/
def files (hands : Hands) : List Descriptor := hands.filterMap fun o => o.bind (·.inner.held)

/-- How often a path is registered by what is in hand. -/
def listed (hands : Hands) (q : Path) : Nat :=
  hands.countP fun o => (o.bind Holding.listed?).any fun p => decide (p.Same q)

variable {hands hands' : Hands} {o : Option Holding} {d : Descriptor}

theorem files_cons : files (o :: hands) = (o.bind (·.inner.held)).toList ++ hands.files := by
  unfold files
  rw [List.filterMap_cons]
  cases o.bind (·.inner.held) <;> rfl

theorem listed_cons (q : Path) :
    listed (o :: hands) q = hands.listed q + tally (o.bind Holding.listed?) q := List.countP_cons

theorem mem_files {o : Holding} (ho : some o ∈ hands) (hd : o.inner.held = some d) :
    d ∈ hands.files := List.mem_filterMap.2 ⟨some o, ho, hd⟩

theorem mem_files_cons :
    d ∈ files (o :: hands) ↔ o.bind (·.inner.held) = some d ∨ d ∈ hands.files := by
  rw [files_cons, List.mem_append, Option.mem_toList]

/-- The same is in hand, in another order or with other gaps. -/
structure Alike (hands hands' : Hands) : Prop where
  mem : ∀ o, some o ∈ hands ↔ some o ∈ hands'
  files : hands.files.Perm hands'.files
  listed : ∀ q, hands.listed q = hands'.listed q

theorem Alike.refl (hands : Hands) : Alike hands hands := ⟨fun _ => Iff.rfl, .refl _, fun _ => rfl⟩

theorem Alike.symm (h : Alike hands hands') : Alike hands' hands :=
  ⟨fun o => (h.mem o).symm, h.files.symm, fun q => (h.listed q).symm⟩

theorem alike_of_perm (h : hands.Perm hands') : Alike hands hands' :=
  ⟨fun _ => h.mem_iff, h.filterMap _, fun _ => h.countP_eq _⟩

theorem alike_cons_none (hands : Hands) : Alike (none :: hands) hands := by
  refine ⟨fun o => ?_, ?_, fun q => ?_⟩
  · simp
  · rw [files_cons]
    exact .refl _
  · rw [listed_cons]
    rfl

end Hands

/-- A machine on which a process has what a holding stands for, in files of its own. -/
structure Holding.Kept (me : Pid) (mine : Descriptor → Prop) (m : Machine) (o : Holding) :
    Prop where
  path : ∃ dir name, o.inner.path = lockPath dir name
  own : ∀ d, o.inner.held = some d → mine d
  retains : ∀ d, o.inner.held = some d → m.Retains me o.inner.path d
  guard : ∀ g, o = .guard g → g.handle.held.isSome = true

/-- What a process has that has something in hand: the mutexes of that, each locked by a file of
    its own, and registrations as far as these are guards.  All other counts are `N`, apart from
    what other threads have registered. -/
structure Handed (me : Pid) (mine : Descriptor → Prop) (N : Path → Nat) (hands : Hands)
    (s : Scene) : Prop where
  wellFormed : s.machine.WellFormed
  sound : (s.machine.registry me).Sound
  count : ∀ q, (s.machine.registry me).count q = s.others q + N q + hands.listed q
  kept : ∀ o, some o ∈ hands → o.Kept me mine s.machine
  nodup : hands.files.Nodup

/-- What a part of a body leaves: what is in hand then, and all else that the process had. -/
structure Spares (me : Pid) (mine : Descriptor → Prop) (N : Path → Nat) (hands : Hands)
    (s : Scene) (trace : List Incident) (hands' : Hands) (s' : Scene) : Prop where
  handed : Handed me mine N hands' s'
  retains : ∀ dir name d, mine d → s.machine.Retains me (lockPath dir name) d → d ∉ hands.files →
    Throughout trace s'.machine (fun m => m.Retains me (lockPath dir name) d) ∧ d ∉ hands'.files
  count : Throughout trace s'.machine fun m => ∀ q, N q ≤ (m.registry me).count q
  shut : ∀ d, mine d → s.machine.Shut d → s'.machine.Shut d
  /-- What is no longer in hand is shut. -/
  released : ∀ d ∈ hands.files, mine d → d ∈ hands'.files ∨ s'.machine.Shut d

section Handed
variable {me : Pid} {mine : Descriptor → Prop} {N : Path → Nat} {hands hands' hands₁ hands₂ : Hands}
  {s s' s₁ : Scene} {m : Machine} {t t' trace : List Incident} {o : Option Holding} {dir : Path}
  {name : String} {r : Role}

theorem Handed.alike (h : Handed me mine N hands s) (ha : hands.Alike hands₁) :
    Handed me mine N hands₁ s where
  wellFormed := h.wellFormed
  sound := h.sound
  count q := by rw [h.count, ha.listed]
  kept o ho := h.kept o ((ha.mem o).2 ho)
  nodup := ha.files.nodup_iff.1 h.nodup

theorem Handed.aside (h : Handed me mine N (o :: hands) s) :
    Handed me mine (fun q => N q + tally (o.bind Holding.listed?) q) hands s where
  wellFormed := h.wellFormed
  sound := h.sound
  count q := by
    rw [h.count, Hands.listed_cons]
    omega
  kept o ho := h.kept o (List.mem_cons_of_mem _ ho)
  nodup := by
    have hnodup := h.nodup
    rw [Hands.files_cons] at hnodup
    exact (List.nodup_append.1 hnodup).2.1

theorem Handed.not_mem_files {d : Descriptor} (h : Handed me mine N (o :: hands) s)
    (hd : o.bind (·.inner.held) = some d) : d ∉ hands.files := by
  have hnodup := h.nodup
  rw [Hands.files_cons] at hnodup
  exact fun hin => (List.nodup_append.1 hnodup).2.2 d (Option.mem_toList.2 hd) d hin rfl

theorem Handed.own {d : Descriptor} (h : Handed me mine N hands s) (hd : d ∈ hands.files) :
    mine d := by
  obtain ⟨o, ho, hheld⟩ := List.mem_filterMap.1 hd
  cases o with
  | none => cases hheld
  | some o => exact (h.kept o ho).own d hheld

/-- What is taken in hand no longer counts as the rest. -/
theorem Handed.cons (h : Handed me mine (fun q => N q + tally (o.bind Holding.listed?) q) hands s)
    (hkept : ∀ o', o = some o' → o'.Kept me mine s.machine)
    (hnew : ∀ d, o.bind (·.inner.held) = some d → d ∉ hands.files) :
    Handed me mine N (o :: hands) s where
  wellFormed := h.wellFormed
  sound := h.sound
  count q := by
    rw [h.count, Hands.listed_cons]
    omega
  kept o' ho' := by
    rcases List.mem_cons.1 ho' with hsame | ho'
    · exact hkept o' hsame.symm
    · exact h.kept o' ho'
  nodup := by
    rw [Hands.files_cons]
    refine List.nodup_append.2 ⟨?_, h.nodup, ?_⟩
    · cases o.bind (·.inner.held) with
      | none => exact List.nodup_nil
      | some d => exact List.pairwise_singleton _ d
    · rintro d hd _ hin rfl
      exact hnew d (Option.mem_toList.1 hd) hin

theorem Handed.refl (h : Handed me mine N hands s) : Spares me mine N hands s [] hands s where
  handed := h
  retains _ _ _ _ hret hd := ⟨.nil hret, hd⟩
  count := .nil fun q => by
    rw [h.count]
    omega
  shut _ _ hd := hd
  released _ hd _ := Or.inl hd

theorem Spares.append (h : Spares me mine N hands s t hands₁ s₁)
    (h' : Spares me mine N hands₁ s₁ t' hands' s') :
    Spares me mine N hands s (t ++ t') hands' s' where
  handed := h'.handed
  retains dir name d hmine hret hd := by
    obtain ⟨hfirst, hd₁⟩ := h.retains dir name d hmine hret hd
    obtain ⟨hrest, hd'⟩ := h'.retains dir name d hmine hfirst.2 hd₁
    exact ⟨hfirst.append hrest, hd'⟩
  count := h.count.append h'.count
  shut d hmine hd := h'.shut d hmine (h.shut d hmine hd)
  released d hd hmine := by
    rcases h.released d hd hmine with hd₁ | hshut
    · exact h'.released d hd₁ hmine
    · exact Or.inr (h'.shut d hmine hshut)

theorem Spares.alike (h : Spares me mine N hands s trace hands' s') (ha : hands.Alike hands₁)
    (ha' : hands'.Alike hands₂) : Spares me mine N hands₁ s trace hands₂ s' where
  handed := h.handed.alike ha'
  retains dir name d hmine hret hd := by
    obtain ⟨hall, hd'⟩ :=
      h.retains dir name d hmine hret fun hin => hd (ha.files.mem_iff.1 hin)
    exact ⟨hall, fun hin => hd' (ha'.files.mem_iff.2 hin)⟩
  count := h.count
  shut := h.shut
  released d hd hmine :=
    (h.released d (ha.files.mem_iff.2 hd) hmine).imp_left ha'.files.mem_iff.1

theorem Spares.tail (h : Spares me mine N hands s trace (none :: hands') s') :
    Spares me mine N hands s trace hands' s' := h.alike (.refl _) (Hands.alike_cons_none _)

theorem Holding.file_of_ends {path : Path} (h : Holding.Ends path (.returned o) r) :
    r.file = o.bind (·.inner.held) := by
  cases o with
  | none => exact h
  | some o =>
    obtain ⟨-, howner, hnone, -⟩ := h
    show r.file = o.inner.held
    cases hd : o.inner.held with
    | none => exact hnone hd
    | some d =>
      rw [howner d hd]
      rfl

theorem Handed.grips (h : Handed me mine N hands s) (ho : o ∈ hands) {path : Path}
    (hends : Holding.Ends path (.returned o) r) : s.machine.Grips me path r := by
  cases hd : r.file with
  | none => exact Machine.grips_of_none hd s.machine path
  | some d =>
    rw [Holding.file_of_ends hends] at hd
    cases o with
    | none => cases hd
    | some o =>
      obtain ⟨rfl, howner, -⟩ := hends
      rw [howner d hd]
      exact ((h.kept o ho).retains d hd).grips .stamped

theorem Holding.kept_of_ends {path : Path} (hpath : path = lockPath dir name)
    (hends : Holding.Ends path (.returned o) r) (hgrips : m.Grips me path r)
    (hmine : ∀ d, r.file = some d → mine d) : ∀ o', o = some o' → o'.Kept me mine m := by
  rintro o' rfl
  obtain ⟨hsame, howner, -, hguard⟩ := hends
  refine ⟨⟨dir, name, hsame.trans hpath⟩, fun d hd => hmine d ?_, fun d hd => ?_, hguard⟩
  · rw [howner d hd]
    rfl
  · rw [hsame]
    rw [howner d hd] at hgrips
    exact hgrips.retains

/-- **What becomes of all that a process has when a program takes something in hand**, or gives
    something up, that heeds the protocol. -/
theorem Handed.turn {β : Type} {p : Program β} {f : Completion β → Option Holding}
    {z : Completion β} (h : Handed me mine N (o :: hands) s)
    (hends : Holding.Ends (lockPath dir name) (.returned o) r)
    (hminds : p.Minds (lockPath dir name) me
      (fun z r => Holding.Ends (lockPath dir name) (.returned (f z)) r) r)
    (hlists : p.Lists (lockPath dir name) me (fun z l => l = (f z).bind Holding.listed?)
      (o.bind Holding.listed?))
    (hs : Sojourn me mine p s trace z s') :
    Spares me mine N (o :: hands) s trace (f z :: hands) s' := by
  have hgrips := h.grips (List.mem_cons_self ..) hends
  have hfile := Holding.file_of_ends hends
  have hmine : ∀ d, r.file = some d → mine d := fun d hd =>
    h.own (Hands.mem_files_cons.2 (Or.inl (hfile ▸ hd)))
  obtain ⟨r', hends', hminded⟩ := hminds.sojourn h.wellFormed hgrips hmine hs
  have henlisted : Enlisted me (fun q => N q + hands.listed q) (o.bind Holding.listed?) s :=
    ⟨h.sound, fun q => by
      rw [h.count, Hands.listed_cons]
      omega⟩
  obtain ⟨l', rfl, hend, hcount⟩ := hlists.sojourn hs henlisted
  have hfile' := Holding.file_of_ends hends'
  have haside := h.aside
  -- all other mutexes in hand are retained, and their files are not the new one
  have hothers : ∀ o', some o' ∈ hands → o'.Kept me mine s'.machine ∧
      ∀ d, o'.inner.held = some d → r'.file ≠ some d := by
    intro o' ho'
    have hkept := haside.kept o' ho'
    obtain ⟨dir', name', hpath'⟩ := hkept.path
    have hall : ∀ d, o'.inner.held = some d → Throughout trace s'.machine
        (fun m => m.Retains me (lockPath dir' name') d) ∧ r'.file ≠ some d := by
      intro d hd
      have hret := hpath' ▸ hkept.retains d hd
      refine hminded.retains dir' name' d (hkept.own d hd) hret fun hr => ?_
      exact h.not_mem_files (hfile ▸ hr) (Hands.mem_files ho' hd)
    refine ⟨⟨hkept.path, hkept.own, fun d hd => ?_, hkept.guard⟩, fun d hd => (hall d hd).2⟩
    rw [hpath']
    exact (hall d hd).1.2
  have hrest : Handed me mine (fun q => N q + tally ((f z).bind Holding.listed?) q) hands s' :=
    ⟨hminded.wellFormed, hend.sound, fun q => by
      rw [hend.count]
      omega, fun o' ho' => (hothers o' ho').1, haside.nodup⟩
  refine ⟨hrest.cons (Holding.kept_of_ends rfl hends' hminded.grips hminded.own)
    fun d hd hin => ?_, fun dir' name' d hmine hret hd => ?_, hcount.imp fun m hq q => ?_,
    hminded.shut, fun d hd _ => ?_⟩
  · obtain ⟨o', ho', hheld⟩ := List.mem_filterMap.1 hin
    cases o' with
    | none => cases hheld
    | some o' => exact (hothers o' ho').2 d hheld (hfile'.trans hd)
  · rw [Hands.mem_files_cons, ← hfile, not_or] at hd
    obtain ⟨hall, hne⟩ := hminded.retains dir' name' d hmine hret hd.1
    rw [Hands.mem_files_cons, ← hfile', not_or]
    exact ⟨hall, hne, hd.2⟩
  · exact Nat.le_trans (Nat.le_add_right _ _) (hq q)
  · rw [Hands.mem_files_cons, ← hfile] at hd
    rw [Hands.mem_files_cons, ← hfile']
    rcases hd with hd | hd
    · exact (hminded.file d hd).imp_left Or.inl
    · exact Or.inl (Or.inr hd)

/-- **What is set aside is still there afterwards.** -/
theorem Spares.beside (h₀ : Handed me mine N (o :: hands) s)
    (h : Spares me mine (fun q => N q + tally (o.bind Holding.listed?) q) hands s trace hands' s') :
    Spares me mine N (o :: hands) s trace (o :: hands') s' := by
  have hretained : ∀ o' d, o = some o' → o'.inner.held = some d →
      s'.machine.Retains me o'.inner.path d ∧ d ∉ hands'.files := by
    rintro o' d rfl hd
    have hkept := h₀.kept o' (List.mem_cons_self ..)
    obtain ⟨dir, name, hpath⟩ := hkept.path
    have hret := h.retains dir name d (hkept.own d hd) (hpath ▸ hkept.retains d hd)
      (h₀.not_mem_files hd)
    exact ⟨hpath ▸ hret.1.2, hret.2⟩
  refine ⟨h.handed.cons (fun o' ho' => ?_) fun d hd => ?_, fun dir name d hmine hret hd => ?_,
    h.count.imp fun m hq q => ?_, h.shut, fun d hd hmine => ?_⟩
  · have hkept := h₀.kept o' (ho' ▸ List.mem_cons_self ..)
    exact ⟨hkept.path, hkept.own, fun d hd => (hretained o' d ho' hd).1, hkept.guard⟩
  · cases o with
    | none => cases hd
    | some o => exact (hretained o d rfl hd).2
  · rw [Hands.mem_files_cons, not_or] at hd ⊢
    obtain ⟨hall, hd'⟩ := h.retains dir name d hmine hret hd.2
    exact ⟨hall, hd.1, hd'⟩
  · exact Nat.le_trans (Nat.le_add_right _ _) (hq q)
  · rw [Hands.mem_files_cons] at hd ⊢
    rcases hd with hd | hd
    · exact Or.inl (Or.inl hd)
    · exact (h.released d hd hmine).imp_left Or.inr

end Handed

/-! ## Calls to the library -/

section Chores
variable {β : Type} {me : Pid} {mine : Descriptor → Prop} {N : Path → Nat} {hands : Hands}
  {s s' : Scene} {trace : List Incident}

/-- What is in hand after a call. -/
def Chore.left? (c : Chore β) : Completion β → Option Holding
  | .returned x => c.yields? x
  | .halted _ => none

theorem Program.Neutral.heeds {path : Path} {p : Program β} (hp : Neutral path me p) :
    p.Minds path me (fun _ r => r.file = none) .ready ∧
      p.Lists path me (fun _ l => l = none) none := by
  refine ⟨(hp .ready).minds.mono fun z r hz => ?_, (hp .ready).lists.mono fun z l hl => hl.1⟩
  cases z with
  | returned x =>
    obtain rfl : r = .ready := hz
    rfl
  | halted => exact hz.elim

theorem neutral_readOwner {path : Path} (dir : Path) (name : String) :
    Neutral path me (readOwner dir name) := by
  unfold readOwner
  split
  · refine Neutral.bind (fun _ _ _ => ⟨_, .readPath, rfl⟩) fun x => ?_
    split
    · exact (neutral_ownerOf _).bind fun _ => .pure _
    · exact .pure _
  · exact .pure _

theorem neutral_ownPid {path : Path} : Neutral path me (Program.call .ownPid) := by
  intro r x hx
  obtain rfl : x = me := hx
  exact ⟨_, .ownPid, rfl⟩

/-- An acquisition registers its guard and nothing else, whether it looks at the registry first
    or not. -/
theorem acquireTimed_enlists (env : Environment) (name : String) (options : AcquireOptions) :
    (acquireTimed env name options).Lists (lockPath (options.directory env) name) me
      (fun z l => l = ((Chore.acquire env name options).left? z).bind Holding.listed?) none := by
  have hsettles : ∀ z l, AcquireTimed.Settles (lockPath (options.directory env) name) z l →
      l = ((Chore.acquire env name options).left? z).bind Holding.listed? := by
    intro z l hz
    cases z with
    | halted => exact hz
    | returned x =>
      cases x with
      | error e => exact hz.1
      | ok g =>
        obtain ⟨hpath, rfl⟩ := hz
        exact congrArg some hpath.symm
  by_cases hlooks : options.Looks name
  · rw [acquireTimed_eq_ask hlooks]
    refine ⟨trivial, fun x _ => ?_⟩
    cases x with
    | true => exact rfl
    | false => exact (AcquireTimed.start_lists.within _).mono hsettles
  · exact (acquireTimed_lists hlooks).mono hsettles

/-- A call heeds the protocol of a mutex, and ends in the role of what it takes in hand. -/
def Chore.Heeds (c : Chore β) (me : Pid) : Prop := ∃ dir name r, r.file = none ∧
  c.program.Minds (lockPath dir name) me
    (fun z r => Holding.Ends (lockPath dir name) (.returned (c.left? z)) r) r ∧
  c.program.Lists (lockPath dir name) me (fun z l => l = (c.left? z).bind Holding.listed?) none

theorem Chore.heeds_of_neutral {c : Chore β} (hyields : ∀ x, c.yields? x = none)
    (hp : ∀ path, Neutral path me c.program) : c.Heeds me := by
  have hleft : ∀ z, c.left? z = none := by
    intro z
    cases z with
    | returned x => exact hyields x
    | halted => rfl
  obtain ⟨hminds, hlists⟩ := (hp (lockPath ⟨[]⟩ "")).heeds
  refine ⟨⟨[]⟩, "", .ready, rfl, hminds.mono fun z r hr => ?_, hlists.mono fun z l hl => ?_⟩
  · rw [hleft]
    exact hr
  · rw [hleft]
    exact hl

/-- **Every call to the library heeds a protocol.** -/
theorem Chore.heeds (c : Chore β) (me : Pid) : c.Heeds me := by
  cases c with
  | attempt dir name =>
    refine ⟨dir, name, .start (lockPath dir name), Role.file_start _,
      (Handle.acquire_obeys dir name me).minds.mono fun z r hz => ?_,
      (Handle.acquire_obeys dir name me).lists.mono fun z l hl => hl.1.trans ?_⟩
    · cases z with
      | halted => exact Handle.file_of_acquires hz nofun
      | returned x =>
        cases x with
        | error e => exact Handle.file_of_acquires hz nofun
        | ok h => exact Holding.ends_of_acquires hz
    · cases z with
      | halted => rfl
      | returned x => cases x <;> rfl
  | acquire env name options =>
    refine ⟨options.directory env, name, .ready, rfl,
      (acquireTimed_minds rfl rfl).mono fun z r hz => ?_, acquireTimed_enlists env name options⟩
    cases z with
    | halted => exact hz
    | returned x =>
      cases x with
      | error e => exact hz
      | ok g => exact Holding.ends_of_keeps hz
  | isHeldLocally dir name =>
    exact ⟨dir, name, .ready, rfl, .aside trivial fun _ => rfl, trivial, fun _ _ => rfl⟩
  | readOwner dir name => exact heeds_of_neutral (fun _ => rfl) fun _ => neutral_readOwner dir name
  | isAlive pid => exact heeds_of_neutral (fun _ => rfl) fun _ => neutral_isAlive pid
  | ownPid => exact heeds_of_neutral (fun _ => rfl) fun _ => neutral_ownPid

/-- **What a call to the library leaves.** -/
theorem Handed.chore {c : Chore β} {z : Completion β} (h : Handed me mine N hands s)
    (hs : Sojourn me mine c.program s trace z s') :
    Spares me mine N hands s trace (c.left? z :: hands) s' := by
  obtain ⟨dir, name, r, hr, hminds, hlists⟩ := c.heeds me
  have hgap := Hands.alike_cons_none hands
  exact ((h.alike hgap.symm).turn (o := none) hr hminds hlists hs).alike hgap (.refl _)

/-- **What other threads of the process do with the library is considerate**, and accounts for
    what it registers. -/
theorem Chore.considerate {m m' : Machine} {c : Chore β} {z : Completion β} (hw : m.WellFormed)
    (hsound : (m.registry me).Sound) (h : m.run me c.program = (z, m')) (mine : Descriptor → Prop)
    (n : Path → Nat) : Machine.Considerate me mine m m' ∧
      Scene.Accounts me ⟨m, n⟩ ⟨m', fun q => n q + tally ((c.left? z).bind Holding.listed?) q⟩ := by
  obtain ⟨dir, name, r, hr, hminds, hlists⟩ := c.heeds me
  have hgrips : m.Grips me (lockPath dir name) r := Machine.grips_of_none hr _ _
  have hafter : (m.run me c.program).2 = m' := congrArg Prod.snd h
  refine ⟨?_, fun q => ?_⟩
  · rw [← hafter]
    refine .of_given (hminds.considerate hw hgrips (fun _ hd => hd.2) fun d hd => ?_) hw
    rw [hr] at hd
    cases hd
  · have hlisted : Enlisted me (fun q => (m.registry me).count q) none ⟨m, fun _ => 0⟩ :=
      ⟨hsound, fun q => (Nat.zero_add _).symm⟩
    obtain ⟨trace, halone⟩ := Sojourn.alone (fun _ => 0) h
    obtain ⟨l, rfl, hend, -⟩ := hlists.sojourn halone hlisted
    have hcount := hend.count q
    simp only at hcount ⊢
    omega

theorem Chore.ends {c : Chore β} {z : Completion β} (hs : Sojourn me mine c.program s trace z s') :
    z ≠ .halted .unfinished := by
  obtain ⟨told, hdialogue⟩ := hs.dialogue
  have hneutral : (∀ path, Neutral path me c.program) → z ≠ .halted .unfinished := by
    intro hp
    obtain ⟨r, -, hr⟩ := hdialogue.proceeds (hp ⟨[]⟩ .ready)
    rintro rfl
    exact hr.elim
  cases c with
  | attempt dir name =>
    rcases hs.attempt_ends with ⟨x, rfl⟩ | ⟨-, rfl⟩ <;> exact nofun
  | acquire env name options =>
    obtain ⟨x, rfl⟩ := hs.acquireTimed_returns
    exact nofun
  | isHeldLocally dir name =>
    cases hs with
    | ask _ _ _ _ hrest =>
      cases hrest
      exact nofun
  | readOwner dir name => exact hneutral fun _ => neutral_readOwner dir name
  | isAlive pid => exact hneutral fun _ => neutral_isAlive pid
  | ownPid => exact hneutral fun _ => neutral_ownPid

end Chores

/-! ## Giving up -/

section GivingUp
variable {me : Pid} {mine : Descriptor → Prop} {N : Path → Nat} {hands hands' : Hands}
  {s s' : Scene} {trace : List Incident} {o : Option Holding}

/-- **What the release of a handle or the drop of a guard leaves.** -/
theorem Handed.giveUp {z : Completion Unit} (h : Handed me mine N (o :: hands) s)
    (hs : Sojourn me mine (Holding.giveUp o) s trace z s') :
    Spares me mine N (o :: hands) s trace (none :: hands) s' := by
  cases o with
  | none =>
    obtain ⟨rfl, rfl, rfl⟩ := hs.of_pure
    exact h.refl
  | some o =>
    obtain ⟨⟨dir, name, hpath⟩, -, hretains, hguard⟩ := h.kept o (List.mem_cons_self ..)
    obtain ⟨r, hends⟩ : ∃ r, Holding.Ends (lockPath dir name) (.returned (some o)) r := by
      cases hd : o.inner.held with
      | none =>
        refine ⟨.ready, hpath, fun d hd' => ?_, fun _ => rfl, hguard⟩
        rw [hd] at hd'
        cases hd'
      | some d =>
        refine ⟨.owner d .stamped, hpath, fun d' hd' => ?_, fun hnone => ?_, hguard⟩
        · rw [hd] at hd'
          cases hd'
          rfl
        · rw [hd] at hnone
          cases hnone
    obtain ⟨-, howner, hnone, -⟩ := hends
    refine h.turn (f := fun _ => none) ⟨hpath, howner, hnone, hguard⟩ ?_ ?_ hs
    · cases o with
      | handle h =>
        exact (Handle.release_minds hpath howner hnone).bind (fun _ _ hr => hr.2.2)
          fun _ _ hz => hz.elim
      | guard g =>
        refine (Guard.drop_minds hpath howner hnone).mono fun z r hz => ?_
        cases z with
        | returned => exact hz
        | halted => exact hz.elim
    · cases o with
      | handle h =>
        refine (Handle.release_lists hpath).bind (fun _ l hl => hl.1) fun _ l hl => hl.1
      | guard g =>
        have hpath : g.handle.path = lockPath dir name := hpath
        show (g.drop).Lists _ me _ (some g.handle.path)
        rw [hpath]
        refine (Guard.drop_lists hpath).mono fun z l hz => ?_
        cases z with
        | returned => exact hz
        | halted => exact hz.elim

/-- What is given up `k` calls after it was taken in hand. -/
theorem Handed.giveUpAt {k : Nat} {z : Completion (Unit × Hands)} (h : Handed me mine N hands s)
    (hs : Sojourn me mine (Hands.giveUp k hands) s trace z s') :
    ∃ hands', z = .returned ((), hands') ∧ hands'.length = hands.length ∧
      Spares me mine N hands s trace hands' s' := by
  obtain ⟨y, t₁, s₁, t₂, hgive, hend, rfl⟩ := hs.of_capture_bind
  obtain ⟨rfl, rfl, rfl⟩ := hend.of_pure
  refine ⟨hands.set k none, rfl, List.length_set, ?_⟩
  rw [List.append_nil]
  by_cases hk : k < hands.length
  · obtain ⟨before, after, hhands, -, hset⟩ :
        ∃ before after, hands = before ++ hands[k] :: after ∧ before.length = k ∧
          hands.set k none = before ++ none :: after := List.exists_of_set hk
    rw [List.getElem?_eq_getElem hk, Option.join_some] at hgive
    rw [hset]
    have hhead : hands.Alike (hands[k] :: (before ++ after)) :=
      Hands.alike_of_perm ((List.Perm.of_eq hhands).trans List.perm_middle)
    exact ((h.alike hhead).giveUp hgive).alike hhead.symm
      (Hands.alike_of_perm List.perm_middle.symm)
  · have hout := Nat.le_of_not_lt hk
    rw [List.getElem?_eq_none hout] at hgive
    rw [List.set_eq_of_length_le hout]
    obtain ⟨rfl, -, rfl⟩ := Sojourn.of_pure hgive
    exact h.refl

/-- **What is left when all but the first things in hand are given up.** -/
theorem Handed.leave {n : Nat} {z : Completion Hands} (h : Handed me mine N hands s)
    (hs : Sojourn me mine (Hands.leave n hands) s trace z s') : ∃ hands', z = .returned hands' ∧
      (n ≤ hands.length → hands'.length = n) ∧ Spares me mine N hands s trace hands' s' := by
  induction hands generalizing s trace with
  | nil =>
    obtain ⟨rfl, rfl, rfl⟩ := hs.of_pure
    exact ⟨[], rfl, fun hn => (Nat.le_zero.1 hn).symm, h.refl⟩
  | cons o hands ih =>
    rw [Hands.leave] at hs
    split at hs
    · rename_i hlt
      obtain ⟨rfl, rfl, rfl⟩ := hs.of_pure
      exact ⟨_, rfl, fun hn => Nat.le_antisymm hlt hn, h.refl⟩
    · rename_i hge
      obtain ⟨y, t₁, s₁, t₂, hgive, hrest, rfl⟩ := hs.of_capture_bind
      have hfirst := (h.giveUp hgive).tail
      obtain ⟨hands', rfl, hlength, hlater⟩ := ih hfirst.handed hrest
      exact ⟨hands', rfl, fun _ => hlength (Nat.le_of_not_lt hge), hfirst.append hlater⟩

end GivingUp

end NamedMutex
