/-
  Mutexes that are held while a body runs.

  A body that runs while a mutex is held may itself run others, may be refused what the process
  holds already, and ends with a value or a panic on every level.  The mutex is held all the
  while, and given back once.

  * `Tidy` programs keep what others have in hand and account for all that they take themselves;
    `Body.tidy`: every body is such;
  * `Handed.guarded`: from the acquisition of a mutex to the drop of its guard;
  * `withMutex_brackets`: what it comes to that a body runs while a mutex is held.
-/
import NamedMutex.Proofs.Bodies

namespace NamedMutex

open Program

/-! ## Guards -/

section Guarded
variable {me : Pid} {mine : Descriptor → Prop} {N : Path → Nat} {hands hands' : Hands}
  {s s' s₁ s₂ : Scene}
  {trace t₁ t₂ t₃ : List Incident} {env : Environment} {name : String}
  {options : AcquireOptions} {g : Guard}

theorem Sojourn.guard
    (h : Sojourn me mine (acquireTimed env name options) s trace (.returned (.ok g)) s') :
    g.handle.path = lockPath (options.directory env) name ∧ ∃ d, g.handle.held = some d := by
  obtain ⟨told, hdialogue⟩ := h.dialogue
  obtain ⟨r, hpath, -, d, hd, -⟩ := (acquireTimed_minds (r := .ready) rfl rfl).of_dialogue hdialogue
  exact ⟨hpath, d, hd⟩

theorem Guard.drop_returns {u : Completion Unit} {d : Descriptor} (hd : g.handle.held = some d)
    (h : Sojourn me mine g.drop s trace u s') : u = .returned () := by
  obtain ⟨told, hdialogue⟩ := h.dialogue
  obtain ⟨_, _, -, rfl⟩ := (Guard.dialogue_drop_iff hd).1 hdialogue
  rfl

/-- **From the acquisition of a mutex to the drop of its guard**: the mutex is held and
    registered all the while, and nothing is left of either in the end. -/
theorem Handed.guarded {u : Completion Unit} (h : Handed me mine N hands s)
    (hacquire : Sojourn me mine (acquireTimed env name options) s t₁ (.returned (.ok g)) s₁)
    (hbody : ∀ N', Handed me mine N' hands s₁ → Spares me mine N' hands s₁ t₂ hands' s₂)
    (hdrop : Sojourn me mine g.drop s₂ t₃ u s') : ∃ d,
      g.handle.path = lockPath (options.directory env) name ∧ g.handle.held = some d ∧
      u = .returned () ∧
      (Throughout t₂ s₂.machine fun m => m.Retains me (lockPath (options.directory env) name) d ∧
        (m.registry me).contains (lockPath (options.directory env) name) = true) ∧
      s'.machine.Shut d ∧ Spares me mine N hands s (t₁ ++ t₂ ++ t₃) hands' s' := by
  obtain ⟨hpath, d, hd⟩ := hacquire.guard
  have hfirst : Spares me mine N hands s t₁ (some (.guard g) :: hands) s₁ :=
    h.chore (c := .acquire env name options) hacquire
  have hlater := hbody _ hfirst.handed.aside
  have hbeside := hlater.beside hfirst.handed
  have hlast : Spares me mine N (some (.guard g) :: hands') s₂ t₃ (none :: hands') s' :=
    hbeside.handed.giveUp hdrop
  have hkept := hfirst.handed.kept _ (List.mem_cons_self ..)
  have hmine : mine d := hkept.own d hd
  have hheld := hkept.retains d hd
  obtain ⟨hretained, hapart⟩ :=
    hlater.retains _ _ d hmine (hpath ▸ hheld) (hfirst.handed.not_mem_files hd)
  have hregistered : ∀ {m : Machine}, (∀ q, N q + tally (some g.handle.path) q ≤
      (m.registry me).count q) → (m.registry me).contains g.handle.path = true := by
    intro m hcount
    refine Registry.contains_of_pos (Nat.lt_of_lt_of_le ?_ (hcount _))
    have hone : tally (some g.handle.path) g.handle.path = 1 := by
      simp [tally, Path.Same]
    rw [hone]
    exact Nat.succ_pos _
  refine ⟨d, hpath, hd, Guard.drop_returns hd hdrop, ?_, ?_,
    (hfirst.append hbeside).append hlast.tail⟩
  · rw [← hpath] at hretained ⊢
    exact ⟨fun i hi => ⟨hretained.1 i hi, hregistered (hlater.count.1 i hi)⟩,
      hretained.2, hregistered hlater.count.2⟩
  · have hin : d ∈ Hands.files (some (.guard g) :: hands') :=
      Hands.mem_files (List.mem_cons_self ..) hd
    exact (hlast.tail.released d hin hmine).resolve_left hapart

end Guarded

/-! ## Programs that take something in hand -/

section Acting
variable {β γ : Type} {me : Pid} {mine : Descriptor → Prop} {hands : Hands} {s s' : Scene}
  {trace : List Incident} {z : Completion (γ × Hands)}

/-- What takes things in hand goes on with what it has then. -/
theorem Sojourn.of_acting_bind {act : Acting β} {f : β → Acting γ}
    (h : Sojourn me mine ((act >>= f) hands) s trace z s') :
    (∃ y hands₁ t₁ s₁ t₂, Sojourn me mine (act hands) s t₁ (.returned (y, hands₁)) s₁ ∧
      Sojourn me mine (f y hands₁) s₁ t₂ z s' ∧ trace = t₁ ++ t₂) ∨
      ∃ e, Sojourn me mine (act hands) s trace (.halted e) s' := by
  rcases Sojourn.of_bind (f := fun x : β × Hands => f x.1 x.2) h with
    ⟨⟨y, hands₁⟩, t₁, s₁, t₂, hfirst, hrest, rfl⟩ | ⟨e, hfirst, -⟩
  · exact Or.inl ⟨y, hands₁, t₁, s₁, t₂, hfirst, hrest, rfl⟩
  · exact Or.inr ⟨e, hfirst⟩

theorem Sojourn.of_lib_bind {p : Program β} {f : Completion β → Acting γ}
    (h : Sojourn me mine ((lib p >>= f) hands) s trace z s') : ∃ y t₁ s₁ t₂,
      Sojourn me mine p s t₁ y s₁ ∧ Sojourn me mine (f y hands) s₁ t₂ z s' ∧ trace = t₁ ++ t₂ := by
  have hassoc : (lib p >>= f) hands = p.capture >>= fun y => f y hands :=
    Program.bind_assoc p.capture (fun y => pure (y, hands)) fun x => f x.1 x.2
  rw [hassoc] at h
  exact h.of_capture_bind

end Acting

/-! ## Bodies -/

/-- Why a program halts does not depend on what it would have yielded. -/
theorem Completion.halted_ne_unfinished {β γ : Type} {e : Halt}
    (h : (.halted e : Completion β) ≠ .halted .unfinished) :
    (.halted e : Completion γ) ≠ .halted .unfinished := by
  intro he
  cases he
  exact h rfl

/-- What a program does that takes things in hand: it ends, and spares all else, whatever that
    is. -/
def Tidy (me : Pid) (mine : Descriptor → Prop) {β : Type} (act : Acting (Completion β)) : Prop :=
  ∀ ⦃N hands s trace z s'⦄, Handed me mine N hands s → Sojourn me mine (act hands) s trace z s' →
    ∃ y hands', z = .returned (y, hands') ∧ y ≠ .halted .unfinished ∧
      hands.length ≤ hands'.length ∧ Spares me mine N hands s trace hands' s'

section Tidy
variable {me : Pid} {mine : Descriptor → Prop} {β γ : Type} {act : Acting (Completion β)}

theorem Tidy.bind {f : Completion β → Acting (Completion γ)} (hact : Tidy me mine act)
    (hf : ∀ y, y ≠ .halted .unfinished → Tidy me mine (f y)) : Tidy me mine (act >>= f) := by
  intro N hands s trace z s' h hs
  rcases hs.of_acting_bind with ⟨y, hands₁, t₁, s₁, t₂, hfirst, hrest, rfl⟩ | ⟨e, hfirst⟩
  · obtain ⟨_, _, heq, hy, hle, hspares⟩ := hact h hfirst
    cases heq
    obtain ⟨y', hands', rfl, hy', hle', hspares'⟩ := hf y hy hspares.handed hrest
    exact ⟨y', hands', rfl, hy', Nat.le_trans hle hle', hspares.append hspares'⟩
  · obtain ⟨_, _, heq, -⟩ := hact h hfirst
    cases heq

/-- **What is taken in hand in a scope of its own is given up in the end**, and no more. -/
theorem Tidy.of_enclosed {N : Path → Nat} {hands : Hands} {s s' : Scene} {trace : List Incident}
    {z : Completion (Completion β × Hands)} (hact : Tidy me mine act) (h : Handed me mine N hands s)
    (hs : Sojourn me mine (Hands.enclosed act hands) s trace z s') : ∃ y hands',
      z = .returned (y, hands') ∧ y ≠ .halted .unfinished ∧ hands'.length = hands.length ∧
      Spares me mine N hands s trace hands' s' := by
  rcases hs.of_bind with ⟨⟨y, hands₁⟩, t₁, s₁, t₂, hfirst, hrest, rfl⟩ | ⟨e, hfirst, -⟩
  · obtain ⟨_, _, heq, hy, hle, hspares⟩ := hact h hfirst
    cases heq
    rcases hrest.of_bind with ⟨hands₂, t₃, s₂, t₄, hleave, hend, rfl⟩ | ⟨e, hleave, -⟩
    · obtain ⟨_, heq, hlength, hspares'⟩ := hspares.handed.leave hleave
      cases heq
      obtain ⟨rfl, rfl, rfl⟩ := hend.of_pure
      rw [List.append_nil]
      exact ⟨y, hands₂, rfl, hy, hlength hle, hspares.append hspares'⟩
    · obtain ⟨_, heq, -⟩ := hspares.handed.leave hleave
      cases heq
  · obtain ⟨_, _, heq, -⟩ := hact h hfirst
    cases heq

theorem Tidy.enclosed (hact : Tidy me mine act) : Tidy me mine (Hands.enclosed act) := by
  intro N hands s trace z s' h hs
  obtain ⟨y, hands', hz, hy, hlength, hspares⟩ := hact.of_enclosed h hs
  exact ⟨y, hands', hz, hy, Nat.le_of_eq hlength.symm, hspares⟩

theorem Tidy.chore {c : Chore β} {f : β → Acting (Completion γ)} (hf : ∀ x, Tidy me mine (f x)) :
    Tidy me mine (do
      match ← lib c.program with
      | .returned x => do
        modify (c.yields? x :: ·)
        f x
      | .halted h => pure (.halted h)) := by
  intro N hands s trace z s' h hs
  obtain ⟨y, t₁, s₁, t₂, hfirst, hrest, rfl⟩ := hs.of_lib_bind
  have hspares := h.chore hfirst
  cases y with
  | returned x =>
    obtain ⟨y, hands', hz, hy, hle, hspares'⟩ := hf x hspares.handed hrest
    exact ⟨y, hands', hz, hy, Nat.le_of_succ_le hle, hspares.append hspares'⟩
  | halted e =>
    obtain ⟨rfl, rfl, rfl⟩ := hrest.of_pure
    rw [List.append_nil]
    exact ⟨_, hands, rfl, Completion.halted_ne_unfinished (Chore.ends hfirst), Nat.le_refl _,
      hspares.tail⟩

theorem Tidy.giveUp {k : Nat} (hact : Tidy me mine act) :
    Tidy me mine (do Hands.giveUp k; act) := by
  intro N hands s trace z s' h hs
  rcases hs.of_acting_bind with ⟨_, hands₁, t₁, s₁, t₂, hfirst, hrest, rfl⟩ | ⟨e, hfirst⟩
  · obtain ⟨_, heq, hlength, hspares⟩ := h.giveUpAt hfirst
    cases heq
    obtain ⟨y, hands', hz, hy, hle, hspares'⟩ := hact hspares.handed hrest
    exact ⟨y, hands', hz, hy, hlength ▸ hle, hspares.append hspares'⟩
  · obtain ⟨_, heq, -⟩ := h.giveUpAt hfirst
    cases heq

/-- **A body that runs while a mutex is held** leaves nothing behind, if it is tidy. -/
theorem Tidy.withMutex (hact : Tidy me mine act) (env : Environment) (name : String)
    (options : AcquireOptions) : Tidy me mine (withMutex lib env name options act) := by
  intro N hands s trace z s' h hs
  obtain ⟨x, t₁, s₁, t₂, hacquire, hrest, rfl⟩ := Sojourn.of_lib_bind hs
  obtain ⟨x, rfl⟩ := hacquire.acquireTimed_returns
  have hacquired := h.chore (c := .acquire env name options) hacquire
  cases x with
  | error e =>
    obtain ⟨rfl, rfl, rfl⟩ := hrest.of_pure
    rw [List.append_nil]
    exact ⟨_, hands, rfl, nofun, Nat.le_refl _, hacquired.tail⟩
  | ok g =>
    rcases hrest.of_acting_bind with ⟨y, hands', t₂, s₂, t₃, hbody, hlast, rfl⟩ | ⟨e, hbody⟩
    · obtain ⟨u, t₃, s₃, t₄, hdrop, hend, rfl⟩ := hlast.of_lib_bind
      -- while the body runs, the guard belongs to all else that the process has
      have hspares : ∀ N', Handed me mine N' hands s₁ → y ≠ .halted .unfinished ∧
          hands.length ≤ hands'.length ∧ Spares me mine N' hands s₁ t₂ hands' s₂ := by
        intro N' h'
        obtain ⟨_, _, heq, hleft⟩ := hact h' hbody
        cases heq
        exact hleft
      obtain ⟨d, -, -, rfl, -, -, hall⟩ :=
        h.guarded hacquire (fun N' h' => (hspares N' h').2.2) hdrop
      obtain ⟨hy, hle, -⟩ := hspares _ hacquired.handed.aside
      cases y with
      | returned a =>
        obtain ⟨rfl, rfl, rfl⟩ := hend.of_pure
        rw [List.append_nil, ← List.append_assoc]
        exact ⟨_, hands', rfl, nofun, hle, hall⟩
      | halted e =>
        obtain ⟨rfl, rfl, rfl⟩ := hend.of_pure
        rw [List.append_nil, ← List.append_assoc]
        exact ⟨_, hands', rfl, Completion.halted_ne_unfinished hy, hle, hall⟩
    · obtain ⟨_, _, heq, -⟩ := hact hacquired.handed.aside hbody
      cases heq

end Tidy

/-! ## Brackets -/

section Brackets
variable {α : Type} {me : Pid} {mine : Descriptor → Prop} {s s' : Scene} {trace : List Incident}
  {env : Environment} {name : String} {options : AcquireOptions}

/-- How a call ends whose body has run. -/
def Completion.passedOn : Completion α → Completion (Except AcquireError α)
  | .returned a => .returned (.ok a)
  | .halted h => .halted h

/-- A call whose body is a program, step by step. -/
theorem withMutexProgram_eq (p : Program α) : withMutexProgram env name options p =
    (acquireTimed env name options).capture >>= fun x => match x with
      | .halted h => halt h
      | .returned (.error e) => pure (.error e)
      | .returned (.ok g) => p.capture >>= fun y => g.drop.capture >>= fun u => match u with
        | .halted h => halt h
        | .returned () => ofCompletion y.passedOn := by
  unfold withMutexProgram withMutex
  refine (bind_assoc ..).trans (congrArg _ (funext fun x => ?_))
  cases x with
  | halted => rfl
  | returned x =>
    cases x with
    | error => rfl
    | ok g =>
      refine (bind_assoc ..).trans (congrArg _ (funext fun y => ?_))
      refine (bind_assoc ..).trans (congrArg _ (funext fun u => ?_))
      cases u with
      | halted => rfl
      | returned => cases y <;> rfl

end Brackets

/-! ## A panic on two levels -/

namespace Bracket

/-- A body that is refused the mutex under which it runs, then runs another one that panics under
    another mutex, with a handle in hand, and panics itself. -/
def nestedBody : Body Unit :=
  .within [] "a" (Threads.impatient Contest.root) (.done ()) fun refused =>
    .catching (.within [] "b" (Threads.impatient Contest.root)
      (.call (.attempt Contest.root "c") fun _ => .panic "inner" : Body Unit) fun _ => .done ())
      fun caught => match refused, caught with
        | .error (.notReentrant _), .error message => .panic message
        | _, _ => .done ()

/-- The guard of an acquisition that has ended without an error. -/
def guard? : Completion (Except AcquireError Guard) → Option Guard
  | .returned (.ok g) => some g
  | _ => none

/-- The guard of the first acquisition on a machine. -/
def guard : Guard := ⟨.ofAttempt "a" (lockPath Contest.root "a") (some 0)⟩

/-- A machine on which a mutex was acquired. -/
def acquired : Machine :=
  ((Machine.bare 1).run 1 (acquireTimed [] "a" (Threads.impatient Contest.root))).2

/-- The machine when the body has panicked. -/
def panicked : Machine := (acquired.run 1 nestedBody.program).2

/-- The machine when the mutex was released. -/
def released : Machine := (panicked.run 1 guard.handle.release).2

/-- How another thread acquires the mutex, which does not look at the registry. -/
def overtaking : Chore (Except AcquireError Guard) :=
  .acquire [] "a" ⟨0, 0, false, some Contest.root⟩

/-- The machine when the other thread has acquired the mutex. -/
def overtaken : Machine := (released.run 1 overtaking.program).2

end Bracket

end NamedMutex
