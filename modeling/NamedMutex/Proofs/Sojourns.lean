/-
  Programs among considerate others.

  A sojourn of a program is a course in which others, threads of the same process among them, do
  not use the files that the program opens and do not remove a lock file that it has locked.  Then
  a mutex that the program holds stays held, as long as the program does not give it up itself.

  * `Sojourn` is a sojourn, with every call that was made and the machine that it met;
    `Sojourn.bind`, `Sojourn.of_bind`, `Sojourn.of_within` put sojourns together and take them
    apart;
  * `Throughout`: something holds of all these machines, and of the last one;
  * `Minds.sojourn`: what becomes of the file of a role, and of all other lock files;
  * `Lists.sojourn`: what becomes of the counts of the registry;
  * `Sojourn.acquireTimed_returns`: an acquisition within a time budget returns, with an error or a
    guard.
-/
import NamedMutex.Proofs.Linkage

namespace NamedMutex

open Program

/-! ## Sojourns -/

/-- A machine, and how often other threads of a process have registered each path. -/
structure Scene where
  machine : Machine
  others : Path → Nat

/-- What has become of the counts of a registry is what other threads of the process have
    registered since, or taken back. -/
def Scene.Accounts (me : Pid) (s s' : Scene) : Prop := ∀ q,
  (s'.machine.registry me).count q + s.others q = (s.machine.registry me).count q + s'.others q

/-- The sojourns of a program of the process `me`, with what others do after each call: other
    processes, and other threads of this one, which account for what they register.  All files
    that are opened for the program are `mine`. -/
inductive Sojourn (me : Pid) (mine : Descriptor → Prop) {α : Type} :
    Program α → Scene → List Incident → Completion α → Scene → Prop
  | done {a : α} {s : Scene} : Sojourn me mine (.done a) s [] (.returned a) s
  | halt {h : Halt} {s : Scene} : Sojourn me mine (.halt h) s [] (.halted h) s
  | ask {c : Call} {next : c.Answer → Program α} {s s₁ s' : Scene} {m : Machine} {manner : Manner}
      {x : c.Answer} {trace : List Incident} {z : Completion α} :
      Replies s.machine me manner c x m → (∀ d ∈ c.opened x, mine d) →
      Machine.Considerate me mine m s₁.machine → Scene.Accounts me ⟨m, s.others⟩ s₁ →
      Sojourn me mine (next x) s₁ trace z s' →
      Sojourn me mine (.ask c next) s (⟨s.machine, c, x⟩ :: trace) z s'

/-- Something holds whenever a call is made, and in the end. -/
def Throughout (trace : List Incident) (m' : Machine) (P : Machine → Prop) : Prop :=
  (∀ i ∈ trace, P i.machine) ∧ P m'

section Throughout
variable {trace t t' : List Incident} {m m' : Machine} {P Q : Machine → Prop}

theorem Throughout.nil (h : P m) : Throughout [] m P := ⟨List.forall_mem_nil _, h⟩

theorem Throughout.cons {c : Call} {x : c.Answer} (h : P m) (h' : Throughout trace m' P) :
    Throughout (⟨m, c, x⟩ :: trace) m' P := ⟨List.forall_mem_cons.2 ⟨h, h'.1⟩, h'.2⟩

theorem Throughout.append (h : Throughout t m P) (h' : Throughout t' m' P) :
    Throughout (t ++ t') m' P := ⟨List.forall_mem_append.2 ⟨h.1, h'.1⟩, h'.2⟩

theorem Throughout.imp (h : Throughout trace m P) (hPQ : ∀ m, P m → Q m) :
    Throughout trace m Q := ⟨fun i hi => hPQ _ (h.1 i hi), hPQ _ h.2⟩

end Throughout

section Sojourn
variable {α β : Type} {me : Pid} {mine : Descriptor → Prop} {s s' : Scene} {p : Program α}
  {f : α → Program β} {trace : List Incident}

theorem Scene.Accounts.refl (me : Pid) (s : Scene) : s.Accounts me s := fun _ => rfl

/-- **What a program does alone is a sojourn of it.** -/
theorem Sojourn.alone {m m' : Machine} {z : Completion α} (n : Path → Nat)
    (h : m.run me p = (z, m')) :
    ∃ trace, Sojourn me (fun _ => True) p ⟨m, n⟩ trace z ⟨m', n⟩ := by
  induction p generalizing m with
  | done =>
    cases h
    exact ⟨[], .done⟩
  | halt =>
    cases h
    exact ⟨[], .halt⟩
  | ask c next ih =>
    obtain ⟨trace, hrest⟩ := ih _ h
    exact ⟨_, .ask .answered (fun _ _ => trivial) (.refl me _ _) (.refl me _) hrest⟩

theorem Sojourn.clock {z : Completion α} (h : Sojourn me mine p s trace z s') :
    s.machine.clock ≤ s'.machine.clock := by
  induction h with
  | done | halt => exact Nat.le_refl _
  | ask hreply _ hothers _ _ ih =>
    exact Nat.le_trans (Nat.le_trans hreply.clock hothers.clock) ih

theorem Sojourn.dialogue {z : Completion α} (h : Sojourn me mine p s trace z s') :
    ∃ told, Dialogue me p told z := by
  induction h with
  | done => exact ⟨[], .done⟩
  | halt => exact ⟨[], .halt⟩
  | ask hreply _ _ _ _ ih =>
    obtain ⟨told, htold⟩ := ih
    exact ⟨_, .ask hreply.answers htold⟩

theorem Sojourn.of_bind {z : Completion β} (h : Sojourn me mine (p >>= f) s trace z s') :
    (∃ a t₁ s₁ t₂, Sojourn me mine p s t₁ (.returned a) s₁ ∧ Sojourn me mine (f a) s₁ t₂ z s' ∧
      trace = t₁ ++ t₂) ∨ ∃ e, Sojourn me mine p s trace (.halted e) s' ∧ z = .halted e := by
  induction p generalizing s trace with
  | done a => exact Or.inl ⟨a, [], s, trace, .done, h, rfl⟩
  | halt e =>
    cases h
    exact Or.inr ⟨e, .halt, rfl⟩
  | ask c next ih =>
    cases h with
    | ask hreply hmine hothers haccounts hrest =>
      rcases ih _ hrest with ⟨a, t₁, s₁, t₂, hfirst, hsecond, rfl⟩ | ⟨e, hfirst, rfl⟩
      · exact Or.inl
          ⟨a, _, s₁, t₂, .ask hreply hmine hothers haccounts hfirst, hsecond, rfl⟩
      · exact Or.inr ⟨e, .ask hreply hmine hothers haccounts hfirst, rfl⟩

theorem Sojourn.of_capture_bind {z : Completion β} {f : Completion α → Program β}
    (h : Sojourn me mine (p.capture >>= f) s trace z s') : ∃ y t₁ s₁ t₂,
      Sojourn me mine p s t₁ y s₁ ∧ Sojourn me mine (f y) s₁ t₂ z s' ∧ trace = t₁ ++ t₂ := by
  induction p generalizing s trace with
  | done a => exact ⟨_, [], s, trace, .done, h, rfl⟩
  | halt e => exact ⟨_, [], s, trace, .halt, h, rfl⟩
  | ask c next ih =>
    cases h with
    | ask hreply hmine hothers haccounts hrest =>
      obtain ⟨y, t₁, s₁, t₂, hfirst, hsecond, rfl⟩ := ih _ hrest
      exact ⟨y, _, s₁, t₂, .ask hreply hmine hothers haccounts hfirst, hsecond, rfl⟩

theorem Sojourn.bind {a : α} {z : Completion β} {s₁ : Scene} {t₁ t₂ : List Incident}
    (hp : Sojourn me mine p s t₁ (.returned a) s₁) (hf : Sojourn me mine (f a) s₁ t₂ z s') :
    Sojourn me mine (p >>= f) s (t₁ ++ t₂) z s' := by
  induction p generalizing s t₁ with
  | done =>
    cases hp
    exact hf
  | halt => cases hp
  | ask c next ih =>
    cases hp with
    | ask hreply hmine hothers haccounts hrest =>
      exact .ask hreply hmine hothers haccounts (ih _ hrest)

theorem Scene.Accounts.trans {s₁ : Scene} (h : s.Accounts me s₁) (h' : s₁.Accounts me s') :
    s.Accounts me s' := by
  intro q
  have hfirst := h q
  have hsecond := h' q
  omega

theorem Sojourn.of_pure {a : α} {z : Completion α}
    (h : Sojourn me mine (pure a) s trace z s') : trace = [] ∧ z = .returned a ∧ s' = s := by
  cases h
  exact ⟨rfl, rfl, rfl⟩

theorem Sojourn.of_within {z : Completion α} {span : Span}
    (h : Sojourn me mine (p.within span) s trace z s') : ∃ t, Sojourn me mine p s t z s' := by
  induction p generalizing s trace with
  | done | halt => exact ⟨trace, h⟩
  | ask c next ih =>
    cases c with
    | say output =>
      cases output with
      | event scope e =>
        cases h with
        | ask hreply hmine hothers haccounts hrest =>
          obtain ⟨t, hrest⟩ := ih _ hrest
          cases hreply with
          | answered => exact ⟨_, .ask .answered nofun hothers.of_said haccounts hrest⟩
          | failed he => cases he
      | line | errorLine =>
        cases h with
        | ask hreply hmine hothers haccounts hrest =>
          obtain ⟨t, hrest⟩ := ih _ hrest
          exact ⟨_, .ask hreply hmine hothers haccounts hrest⟩
    | _ =>
      cases h with
      | ask hreply hmine hothers haccounts hrest =>
        obtain ⟨t, hrest⟩ := ih _ hrest
        exact ⟨_, .ask hreply hmine hothers haccounts hrest⟩

end Sojourn

/-! ## Files -/

/-- What a program that heeds the protocol leaves, by the role in which it ends. -/
structure Minded (me : Pid) (mine : Descriptor → Prop) (path : Path) (m : Machine) (r : Role)
    (trace : List Incident) (m' : Machine) (r' : Role) : Prop where
  wellFormed : m'.WellFormed
  grips : m'.Grips me path r'
  own : ∀ d, r'.file = some d → mine d
  /-- All other lock files are retained. -/
  retains : ∀ dir name d, mine d → m.Retains me (lockPath dir name) d → r.file ≠ some d →
    Throughout trace m' (fun m => m.Retains me (lockPath dir name) d) ∧ r'.file ≠ some d
  shut : ∀ d, mine d → m.Shut d → m'.Shut d
  file : ∀ d, r.file = some d → r'.file = some d ∨ m'.Shut d

/-- **A program that heeds the protocol** keeps to it among considerate others, and retains all
    other lock files of its process that are locked by what is not theirs. -/
theorem Program.Minds.sojourn {α : Type} {p : Program α} {dir : Path} {name : String} {me : Pid}
    {mine : Descriptor → Prop} {r : Role} {Q : Completion α → Role → Prop} {s s' : Scene}
    {trace : List Incident} {z : Completion α} (hp : p.Minds (lockPath dir name) me Q r)
    (hw : s.machine.WellFormed) (hgrips : s.machine.Grips me (lockPath dir name) r)
    (hmine : ∀ d, r.file = some d → mine d) (h : Sojourn me mine p s trace z s') :
    ∃ r', Q z r' ∧ Minded me mine (lockPath dir name) s.machine r trace s'.machine r' := by
  induction h generalizing r with
  | done | halt =>
    exact ⟨r, hp, hw, hgrips, hmine, fun _ _ _ _ hret hne => ⟨.nil hret, hne⟩, fun _ _ hd => hd,
      fun _ hd => Or.inl hd⟩
  | @ask c next s s₁ s' m manner x trace z hreply hopened hothers _ _ ih =>
    obtain ⟨r₁, hheeds, hnext⟩ := hp x hreply.answers
    have hw₁ := hreply.wellFormed hw
    have hgrips₁ := hgrips.reply hw hheeds hreply
    have hmine₁ : ∀ d, r₁.file = some d → mine d := by
      intro d hd
      rcases hheeds.file_or_opened hd with hbefore | hnew
      · exact hmine d hbefore
      · cases hnew
        exact hopened d (List.mem_singleton_self d)
    obtain ⟨r', hQ, hminded⟩ :=
      ih hnext (hothers.wellFormed hw₁) (hgrips₁.considerate hw₁ hmine₁ hothers) hmine₁
    refine ⟨r', hQ, hminded.wellFormed, hminded.grips, hminded.own,
      fun dir' name' d hd hret hne => ?_, fun d hmine hd => ?_, fun d hd => ?_⟩
    · have hret₁ := hret.reply hgrips hne hw hheeds hreply
      have hne₁ : r₁.file ≠ some d := by
        intro hd
        rcases hheeds.file_or_fresh hreply hd with hsame | hnew
        · exact hne hsame
        · exact Nat.ne_of_lt (hret.lt hw) hnew
      obtain ⟨hrest, hne'⟩ := hminded.retains _ _ d hd (hothers.linked _ _ d hd hret₁) hne₁
      exact ⟨hrest.cons hret, hne'⟩
    · exact hminded.shut d hmine (hothers.shut hmine (hd.reply hreply hw))
    · rcases hheeds.file_or_shut hreply hgrips.backs hw hd with hfile | hshut
      · exact hminded.file d hfile
      · exact Or.inr (hminded.shut d (hmine d hd) (hothers.shut (hmine d hd) hshut))

/-! ## Registrations -/

/-- What a registration adds to the count of a path. -/
def tally (l : Option Path) (q : Path) : Nat := if l.any (fun p => decide (p.Same q)) then 1 else 0

/-- What a program does to the counts of the registry that has registered a path, or none: it
    changes them by its own registration.  Other threads have theirs. -/
structure Enlisted (me : Pid) (N : Path → Nat) (l : Option Path) (s : Scene) : Prop where
  sound : (s.machine.registry me).Sound
  count : ∀ q, (s.machine.registry me).count q = s.others q + N q + tally l q

section Enlisted
variable {me : Pid} {mine : Descriptor → Prop} {N : Path → Nat} {l : Option Path} {s s' : Scene}
  {m : Machine}

theorem Enlisted.le (h : Enlisted me N l s) (q : Path) :
    N q ≤ (s.machine.registry me).count q := by
  rw [h.count]
  omega

theorem Enlisted.call {path : Path} {c : Call} {x : c.Answer} {manner : Manner}
    (h : Enlisted me N l s) (hc : c.Permitted path l)
    (hr : Replies s.machine me manner c x m) : Enlisted me N (c.listing l) ⟨m, s.others⟩ := by
  refine ⟨hr.registry ▸ h.sound.enter c, fun q => ?_⟩
  have hcount := h.count q
  rw [hr.registry]
  cases c with
  | register p =>
    obtain ⟨rfl, rfl⟩ := hc
    simp [Call.enter, Registry.count_register, Call.listing, tally, hcount]
  | unregister p =>
    obtain ⟨rfl, rfl⟩ := hc
    simp [Call.enter, Registry.count_unregister h.sound.distinct, Call.listing, tally, hcount]
  | _ => exact hcount

theorem Enlisted.accounts (h : Enlisted me N l s)
    (hm : Machine.Considerate me mine s.machine s'.machine) (ha : s.Accounts me s') :
    Enlisted me N l s' := by
  refine ⟨hm.sound h.sound, fun q => ?_⟩
  have hcount := h.count q
  have hothers := ha q
  omega

/-- **The counts of a program that registers only what is permitted**: they are changed by its
    own registration, and at no time is one less than it was without that. -/
theorem Program.Lists.sojourn {α : Type} {p : Program α} {path : Path}
    {Q : Completion α → Option Path → Prop} {trace : List Incident} {z : Completion α}
    (hp : p.Lists path me Q l) (h : Sojourn me mine p s trace z s') (hl : Enlisted me N l s) :
    ∃ l', Q z l' ∧ Enlisted me N l' s' ∧
      Throughout trace s'.machine fun m => ∀ q, N q ≤ (m.registry me).count q := by
  induction h generalizing l with
  | done | halt => exact ⟨l, hp, hl, .nil hl.le⟩
  | ask hreply _ hothers haccounts _ ih =>
    have hafter := (hl.call hp.1 hreply).accounts hothers haccounts
    obtain ⟨l', hQ, hend, hrest⟩ := ih (hp.2 _ hreply.answers) hafter
    exact ⟨l', hQ, hend, hrest.cons hl.le⟩

end Enlisted

/-! ## Acquisitions that return -/

section Finishes
variable {dir : Path} {name : String} {me : Pid} {mine : Descriptor → Prop} {s s' : Scene}
  {options : AcquireOptions} {trace : List Incident}

theorem Sojourn.attempt_ends {z : Completion (Except IoError Handle)}
    (h : Sojourn me mine (Handle.acquire dir name) s trace z s') :
    (∃ x, z = .returned x) ∨
      (¬ IsValidName name ∧ z = .halted (.panicked (AcquireError.invalidName name).message)) := by
  by_cases hname : IsValidName name
  · obtain ⟨told, hdialogue⟩ := h.dialogue
    obtain ⟨r, -, hacquires⟩ := hdialogue.proceeds (Handle.acquire_obeys dir name me)
    cases z with
    | returned x => exact Or.inl ⟨x, rfl⟩
    | halted => exact absurd hname hacquires.1
  · rw [Handle.acquire, if_neg hname] at h
    obtain ⟨t, h⟩ := h.of_within
    cases h
    exact Or.inr ⟨hname, rfl⟩

namespace AcquireTimed

theorem make_returns {h : Handle} {attempts : Nat} {z : Completion (Except AcquireError Guard)}
    (hmake : Sojourn me mine (Guard.make h attempts) s trace z s') : ∃ x, z = .returned x := by
  cases hmake with
  | ask _ _ _ _ hreport =>
    cases hreport with
    | ask _ _ _ _ hend =>
      cases hend
      exact ⟨_, rfl⟩

theorem giveUp_returns {elapsed : Duration} {attempts : Nat}
    {z : Completion (Except AcquireError Guard)}
    (hend : Sojourn me mine (giveUp name elapsed attempts) s trace z s') :
    ∃ x, z = .returned x := by
  cases hend with
  | ask _ _ _ _ hend =>
    cases hend
    exact ⟨_, rfl⟩

/-- A round of a series is the last one, or time goes on until the next. -/
theorem of_round {started : Duration} {rounds attempts : Nat}
    {z : Completion (Except AcquireError Guard)} (hname : IsValidName name)
    (h : Sojourn me mine (poll dir name options started (rounds + 1) attempts) s trace z s') :
    (∃ x, z = .returned x) ∨ ∃ clock s₁ t, s.machine.clock ≤ clock ∧
      ¬ options.timeout < clock + Machine.callTime - started ∧
      clock + Machine.callTime + Machine.callTime + options.pollInterval ≤ s₁.machine.clock ∧
      Sojourn me mine (poll dir name options started rounds (attempts + 1)) s₁ t z s' := by
  rw [poll] at h
  rcases h.of_bind with ⟨x, t₁, s₁, t₂, hattempt, hrest, -⟩ | ⟨e, hattempt, -⟩
  · cases x with
    | error e =>
      cases hrest
      exact Or.inl ⟨_, rfl⟩
    | ok handle =>
      dsimp only at hrest
      cases hacquired : handle.isAcquired with
      | true =>
        rw [hacquired, if_pos rfl] at hrest
        exact Or.inl (make_returns hrest)
      | false =>
        simp only [hacquired, Bool.false_eq_true, if_false,
          Handle.release_of_not_acquired hacquired] at hrest
        cases hrest with
        | @ask _ _ _ s₂ _ _ _ _ t₂ _ hread _ hothers _ hrest =>
          obtain ⟨rfl, rfl⟩ := hread.of_aside trivial
          have hclock : s₁.machine.clock + Machine.callTime ≤ s₂.machine.clock := hothers.clock
          change Sojourn me mine (if options.timeout < s₁.machine.clock + Machine.callTime - started
            then giveUp name (s₁.machine.clock + Machine.callTime - started) attempts
            else do
              call (.sleep options.pollInterval)
              poll dir name options started rounds (attempts + 1)) s₂ t₂ z s' at hrest
          by_cases hlate : options.timeout < s₁.machine.clock + Machine.callTime - started
          · rw [if_pos hlate] at hrest
            exact Or.inl (giveUp_returns hrest)
          · rw [if_neg hlate] at hrest
            cases hrest with
            | @ask _ _ _ s₃ _ _ _ _ _ _ hsleep _ hothers' _ hrest =>
              obtain ⟨rfl, rfl⟩ := hsleep.of_aside trivial
              have hslept : s₂.machine.clock + Machine.callTime + options.pollInterval ≤
                  s₃.machine.clock := hothers'.clock
              refine Or.inr ⟨s₁.machine.clock, s₃, _, hattempt.clock, hlate, ?_, hrest⟩
              exact Nat.le_trans (Nat.add_le_add_right (Nat.add_le_add_right hclock _) _) hslept
  · rcases hattempt.attempt_ends with ⟨x, hx⟩ | ⟨hnot, -⟩
    · cases hx
    · exact absurd hname hnot

/-- **A series of attempts ends before its rounds are used up**, whatever else the process has. -/
theorem poll_returns {started : Duration} (hname : IsValidName name) (rounds : Nat) :
    ∀ attempts s trace z s', started ≤ s.machine.clock →
      options.timeout < s.machine.clock - started + rounds * Machine.pause options + 1 →
      Sojourn me mine (poll dir name options started (rounds + 1) attempts) s trace z s' →
      ∃ x, z = .returned x := by
  have hcall : 0 < Machine.callTime := by decide
  induction rounds with
  | zero =>
    intro attempts s trace z s' hstart hleft h
    rcases of_round hname h with hend | ⟨clock, _, _, hle, hin, -⟩
    · exact hend
    · exact absurd (Machine.spent_after_last hcall hstart hleft hle) hin
  | succ rounds ih =>
    intro attempts s trace z s' hstart hleft h
    rcases of_round hname h with hend | ⟨clock, s₁, t, hle, -, hlater, hrest⟩
    · exact hend
    · obtain ⟨hstart', hleft'⟩ := Machine.left_after_round hcall hstart hleft hle
      refine ih (attempts + 1) s₁ t z s' (Nat.le_trans hstart' hlater) ?_ hrest
      refine Nat.lt_of_lt_of_le hleft' ?_
      exact Nat.add_le_add_right (Nat.add_le_add_right (Nat.sub_le_sub_right hlater _) _) _

theorem start_returns {z : Completion (Except AcquireError Guard)} (hname : IsValidName name)
    (h : Sojourn me mine (start dir name options) s trace z s') : ∃ x, z = .returned x := by
  obtain ⟨rounds, hrounds, hbudget⟩ := Machine.exists_patience options
  cases h with
  | @ask _ _ _ s₂ _ _ _ _ _ _ hread _ hothers _ hrest =>
    obtain ⟨rfl, rfl⟩ := hread.of_aside trivial
    have hclock : s.machine.clock + Machine.callTime ≤ s₂.machine.clock := hothers.clock
    have hpoll : Sojourn me mine (poll dir name options (s.machine.clock + Machine.callTime)
        (rounds + 1) 1) s₂ _ z s' := hrounds ▸ hrest
    refine poll_returns hname rounds 1 s₂ _ z s' hclock ?_ hpoll
    exact Nat.lt_succ_of_lt (Nat.lt_of_lt_of_le hbudget (Nat.le_add_left _ _))

end AcquireTimed

/-- **An acquisition within a time budget returns**, whatever fails and whatever others do. -/
theorem Sojourn.acquireTimed_returns {env : Environment}
    {z : Completion (Except AcquireError Guard)}
    (h : Sojourn me mine (acquireTimed env name options) s trace z s') : ∃ x, z = .returned x := by
  rw [acquireTimed] at h
  obtain ⟨t, h⟩ := h.of_within
  split at h
  · rename_i hname
    simp only at h
    split at h
    · cases h with
      | @ask _ _ _ _ _ _ _ held _ _ _ _ _ _ hrest =>
        cases held with
        | true =>
          cases hrest
          exact ⟨_, rfl⟩
        | false => exact AcquireTimed.start_returns hname hrest
    · exact AcquireTimed.start_returns hname h
  · cases h
    exact ⟨_, rfl⟩

end Finishes

end NamedMutex
