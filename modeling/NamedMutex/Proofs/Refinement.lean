/-
  The library is a table of locks.

  Each demand is answered alike by a site and a table that match, and leaves them
  matching.

  * `Matches.attempt`, `Matches.acquire`, `Matches.giveUp`, `Matches.owner` and
    `Matches.isHeld` are the cases of the step `Matches.serve`; `Matches.serveAll` is the run;
  * `refines_lockTable` is the main statement.
-/
import NamedMutex.Proofs.Matching

namespace NamedMutex

/-- Demands for names of lock files in a directory. -/
def Demand.IsFor (dir : Path) : Demand → Prop
  | attempt _ name | owner _ name | isHeld _ name => Fits dir name
  | acquire _ env name options => Fits dir name ∧ options.directory env = dir
  | _ => True

variable {dir : Path} {D : Inode} {s : Site} {T : LockTable} {m m' : Machine} {name : String}
  {me pid : Pid} {k : Nat} {c c' : Client}

/-! ## Demands -/

/-- Replies are the same, and what they leave matches. -/
def Alike {ρ : Type} (dir : Path) (D : Inode) (x : ρ × Site) (y : ρ × LockTable) : Prop :=
  x.1 = y.1 ∧ Matches dir D x.2 y.2

namespace Matches

/-- A process that runs is answered according to how its program ends. -/
theorem answering {α : Type} {p : Program α} {f : Completion α → Machine → Reply × Site}
    {y : Reply × LockTable} (h : Matches dir D s T) (hends : me.IsProper → ∃ Q, s.machine.Ends me p Q ∧
      ∀ a m', Q a m' → ∀ clock said, Alike dir D (f (.returned a) (m'.moment clock said)) y) :
    Alike dir D (s.answering me p f) (T.answering me y) := by
  by_cases hrun : T.processes.get? me = some .running
  · obtain ⟨Q, hends, hf⟩ := hends (h.proper me hrun)
    obtain ⟨a, m', clock, said, -, heq, hQ⟩ := hends.run
    have hrun' : s.machine.processes.get? me = some .running := h.processes ▸ hrun
    rw [Site.answering, LockTable.answering, if_pos hrun, if_pos hrun', heq]
    exact hf a m' hQ clock said
  · have hrun' : s.machine.processes.get? me ≠ some .running := h.processes ▸ hrun
    rw [Site.answering, LockTable.answering, if_neg hrun, if_neg hrun']
    exact ⟨rfl, h⟩

theorem attempt (h : Matches dir D s T) (hf : Fits dir name) (me : Pid) :
    Alike dir D (s.serve dir (.attempt me name)) (T.serve (.attempt me name)) := by
  refine h.answering fun hme => ?_
  cases hw : (T.standing name).isHeld with
  | true =>
    obtain ⟨_, _, _, -, -, -, -, hshows, -⟩ := h.holder hf hw
    refine ⟨_, h.orderly.acquire_held hf hshows me, ?_⟩
    rintro _ _ ⟨rfl, rfl⟩ clock said
    exact ⟨rfl, ((h.skip 1).join rfl rfl).moment clock said⟩
  | false =>
    obtain ⟨st, hst, hreflects⟩ := h.standing name hf
    obtain ⟨m', hgives, ho, hshows, hspares⟩ :=
      h.orderly.acquire hf hst (hreflects.not_held hw) hme
    have hregistries : m'.CountsGuards dir (T.give name me false).standing := by
      refine h.registries.congr hspares.registries fun n _ pid => ?_
      by_cases hn : n = name
      · subst hn
        rw [Standing.isGuardOf_of_not_isHeld hw]
        simp [LockTable.give]
      · simp only [LockTable.give, if_neg hn]
    refine ⟨_, hgives, ?_⟩
    rintro _ _ ⟨rfl, rfl⟩ clock said
    exact ⟨rfl, (h.give hf hw rfl rfl ho hshows hspares.others hspares.processes
      hregistries).moment clock said⟩

theorem busy (h : Matches dir D s T) (hf : Fits dir name) (hw : (T.standing name).isHeld = true)
    (me : Pid) : s.machine.Busy me dir name := by
  obtain ⟨_, _, _, -, -, -, -, hshows, -⟩ := h.holder hf hw
  exact fun n => ⟨n + 1, (h.orderly.skip n).acquire_held hf (hshows.congr rfl rfl rfl) me⟩

theorem acquire (h : Matches dir D s T) (hf : Fits dir name) {env : Environment}
    {options : AcquireOptions} (hdir : options.directory env = dir) (me : Pid) :
    Alike dir D (s.serve dir (.acquire me env name options))
      (T.serve (.acquire me env name options)) := by
  have hcontains := h.registries.contains hf me
  refine h.answering fun hme => ?_
  by_cases hcheck : options.checkReentrant = true ∧ (T.standing name).isGuardOf me = true
  · rw [if_pos hcheck]
    refine ⟨_, Machine.gives_notReentrant hf.valid hdir hcheck.1 (hcontains.trans hcheck.2), ?_⟩
    rintro _ _ ⟨rfl, rfl⟩ clock said
    exact ⟨rfl, h.moment clock said⟩
  rw [if_neg hcheck]
  have hlook : options.checkReentrant = true →
      (s.machine.registry me).contains (lockPath dir name) = false := fun hc =>
    hcontains.trans (Bool.eq_false_iff.2 fun hg => hcheck ⟨hc, hg⟩)
  cases hw : (T.standing name).isHeld with
  | true =>
    refine ⟨_, Machine.ends_acquireTimed_of_start hf.valid hdir hlook
      (Machine.ends_start (h.busy hf hw me)), ?_⟩
    rintro _ _ ⟨elapsed, n, rfl, -, rfl⟩ clock said
    exact ⟨rfl, (h.skip n).moment clock said⟩
  | false =>
    obtain ⟨st, hst, hreflects⟩ := h.standing name hf
    obtain ⟨m', hgives, ho, hshows, hspares⟩ :=
      h.orderly.acquire hf hst (hreflects.not_held hw) hme
    have hregistries : (m'.registered me (lockPath dir name)).CountsGuards dir
        (T.give name me true).standing :=
      (h.registries.congr hspares.registries fun _ _ _ => rfl).register (k := T.handles) hf hw
        (by simp only [LockTable.give, if_true]) fun n hn => by simp only [LockTable.give, if_neg hn]
    have hgiven : Matches dir D ⟨m'.registered me (lockPath dir name), s.clients ++
        [⟨me, .ofAttempt name (lockPath dir name) (some s.machine.nextDescriptor), true, true⟩]⟩
        (T.give name me true) :=
      h.give hf hw rfl rfl (ho.congr rfl rfl rfl (Nat.le_refl _)) (hshows.congr rfl rfl rfl)
        (fun e he st hst => (hspares.others e he st hst).congr rfl rfl rfl) hspares.processes
        hregistries
    refine ⟨_, Machine.ends_acquireTimed_of_start hf.valid hdir hlook
      (Machine.gives_start hgives rfl), ?_⟩
    rintro _ _ ⟨rfl, rfl⟩ clock said
    exact ⟨rfl, hgiven.moment clock said⟩

theorem owner (h : Matches dir D s T) (hf : Fits dir name) (me : Pid) :
    Alike dir D (s.serve dir (.owner me name)) (T.serve (.owner me name)) := by
  refine h.answering fun _ => ⟨_, Machine.gives_readOwner s.machine me hf.valid, ?_⟩
  obtain ⟨st, hst, hreflects⟩ := h.standing name hf
  rintro _ _ ⟨rfl, rfl⟩ clock said
  rw [h.orderly.ownerAt hf hst, hreflects.owner, h.processes]
  exact ⟨rfl, h.moment clock said⟩

theorem isHeld (h : Matches dir D s T) (hf : Fits dir name) (me : Pid) :
    Alike dir D (s.serve dir (.isHeld me name)) (T.serve (.isHeld me name)) := by
  refine h.answering fun _ => ⟨_, Machine.gives_call rfl rfl, ?_⟩
  rintro _ _ ⟨rfl, rfl⟩ clock said
  exact ⟨congrArg Reply.truth (h.registries.contains hf me), h.moment clock said⟩

/-! ### Handles and guards that are given up -/

section GiveUp
variable {whole : Bool}

theorem givenUp_self (hw : T.standing name = .held k c.process c.timed)
    (hwhole : c.timed = true → whole = true) :
    (T.revise (.givenUp k whole)).standing name = .free := by
  show (T.standing name).givenUp k whole = .free
  rw [hw]
  exact if_pos ⟨rfl, hwhole⟩

theorem givenUp_other (h : Matches dir D s T) (hf : Fits dir name) {timed : Bool}
    (hw : T.standing name = .held k pid timed) {n : String} (hf' : Fits dir n) (hn : n ≠ name) :
    (T.revise (.givenUp k whole)).standing n = T.standing n :=
  Standing.givenUp_of_ne fun _ _ hw' => hn (h.name_unique hf' hf hw' hw)

/-- The holder of a name is given up, and its lock file goes. -/
theorem takeBack_name (h : Matches dir D s T) (hf : Fits dir name)
    (hw : T.standing name = .held k c.process c.timed) (hwhole : c.timed = true → whole = true)
    (hidle : c'.alive = true → c'.handle.held = none ∧ c'.timed = false) (ho : m'.Orderly dir D)
    (hshows : m'.Shows D (lockEntry name) .free)
    (hothers : ∀ e ≠ lockEntry name, ∀ st, s.machine.Shows D e st → m'.Shows D e st)
    (hprocesses : m'.processes = s.machine.processes)
    (hregistries : m'.CountsGuards dir (T.revise (.givenUp k whole)).standing) :
    Matches dir D ⟨m', s.clients.set k c'⟩ (T.revise (.givenUp k whole)) := by
  refine h.takeBack hidle (fun n hf' pid timed hn => ?_) (fun n hf' hn st hst => ?_) ho hprocesses
    hregistries
  · obtain rfl := h.name_unique hf' hf hn hw
    rw [hw] at hn
    cases hn
    exact ⟨hwhole, hshows⟩
  · refine hothers _ (fun he => ?_) st hst
    obtain rfl := lockEntry_injective he
    exact hn _ _ hw

/-- What gives a handle or guard up that holds a name: its lock file goes, and the
    registration of a guard. -/
theorem gives_giveUp (h : Matches dir D s T) (hf : Fits dir name) (hk : s.clients[k]? = some c)
    (hw : T.standing name = .held k c.process c.timed) (hwhole : c.timed = true → whole = true) :
    ∃ x m', s.machine.Gives c.process c.giveUp x m' ∧
      Matches dir D ⟨m', s.clients.set k { c with handle := x, alive := !whole }⟩
        (T.revise (.givenUp k whole)) := by
  obtain ⟨_, d, hk', -, hpath, hd, hshows, -⟩ := h.holder_of_eq hf hw
  obtain rfl := Option.some.inj (hk.symm.trans hk')
  obtain ⟨m', hrelease, ho, hfree, hspares⟩ := h.orderly.release hf hshows hd hpath c.process
  have hself := givenUp_self hw hwhole
  cases htimed : c.timed with
  | false =>
    have hreleased : c.handle.released.held = none := by rw [Handle.released_eq]
    refine ⟨c.handle.released, m', ?_, h.takeBack_name hf hw hwhole (fun _ => ⟨hreleased, rfl⟩) ho
      hfree hspares.others hspares.processes (h.registries.congr hspares.registries fun n hf' pid => ?_)⟩
    · rw [Client.giveUp, htimed]
      exact hrelease
    · -- the registries do not know of handles
      by_cases hn : n = name
      · subst hn
        rw [hself, hw, htimed]
        rfl
      · rw [h.givenUp_other hf hw hf' hn]
  | true =>
    obtain rfl := hwhole htimed
    have hdrop : s.machine.Gives c.process (Guard.mk c.handle).drop ()
        (m'.unregistered c.process (lockPath dir name)) := hpath ▸ Machine.gives_drop hrelease
    have hregistries : m'.CountsGuards dir T.standing :=
      h.registries.congr hspares.registries fun _ _ _ => rfl
    refine ⟨c.handle, m'.unregistered c.process (lockPath dir name), ?_,
      h.takeBack_name hf hw hwhole (fun halive => by cases halive)
        (ho.congr rfl rfl rfl (Nat.le_refl _)) (hfree.congr rfl rfl rfl)
        (fun e he st hst => (hspares.others e he st hst).congr rfl rfl rfl) hspares.processes
        (hregistries.unregister hf (htimed ▸ hw) hself fun n => h.givenUp_other hf hw)⟩
    rw [Client.giveUp, htimed]
    exact hdrop.bind (Machine.gives_pure _)

theorem gives_giveUp_idle (h : Matches dir D s T) (hk : s.clients[k]? = some c)
    (halive : c.alive = true) (hd : c.handle.held = none) :
    ∃ x m', s.machine.Gives c.process c.giveUp x m' ∧
      Matches dir D ⟨m', s.clients.set k { c with handle := x, alive := !whole }⟩
        (T.revise (.givenUp k whole)) := by
  have htimed : c.timed = false := by
    refine Bool.eq_false_iff.2 fun htimed => ?_
    have hacq := h.guards k c hk halive htimed
    rw [Handle.isAcquired, hd] at hacq
    cases hacq
  have hnone : ∀ n, Fits dir n → ∀ pid timed, T.standing n ≠ .held k pid timed := by
    intro n hf pid timed hw
    obtain ⟨_, d, hk', -, -, hd', -⟩ := h.holder_of_eq hf hw
    rw [hk] at hk'
    cases hk'
    rw [hd] at hd'
    cases hd'
  refine ⟨c.handle, s.machine, ?_, h.takeBack (fun _ => ⟨hd, htimed⟩)
    (fun n hf pid timed hw => absurd hw (hnone n hf pid timed)) (fun _ _ _ _ hst => hst) h.orderly
    rfl (h.registries.congr rfl fun n hf pid => ?_)⟩
  · rw [Client.giveUp, htimed, Handle.release, hd]
    exact Machine.gives_pure _
  · exact congrArg (Standing.isGuardOf pid) (Standing.givenUp_of_ne (hnone n hf))

/-- A handle or guard stays that cannot be given up so, or that is not there. -/
theorem revise_idle (h : Matches dir D s T)
    (hnone : ∀ n, Fits dir n → ∀ pid timed, T.standing n = .held k pid timed →
      timed = true ∧ whole = false) : Matches dir D s (T.revise (.givenUp k whole)) := by
  refine h.congr rfl rfl fun n hf => ?_
  simp only [LockTable.revise]
  cases hw : T.standing n with
  | free | abandoned => rfl
  | held j pid timed =>
    refine if_neg ?_
    rintro ⟨rfl, hwhole⟩
    obtain ⟨rfl, rfl⟩ := hnone n hf pid timed hw
    cases hwhole rfl

theorem giveUp (h : Matches dir D s T) (k : Nat) (whole : Bool) :
    Alike dir D (s.giveUp k whole) (.done, T.revise (.givenUp k whole)) := by
  unfold Site.giveUp
  cases hk : s.clients[k]? with
  | none =>
    refine ⟨rfl, h.revise_idle fun n hf pid timed hw => ?_⟩
    obtain ⟨_, _, hk', -⟩ := h.holder_of_eq hf hw
    rw [hk] at hk'
    cases hk'
  | some c =>
    by_cases hc : c.alive = true ∧ (c.timed = true → whole = true)
    · obtain ⟨x, m', hgives, hmatches⟩ : ∃ x m', s.machine.Gives c.process c.giveUp x m' ∧
          Matches dir D ⟨m', s.clients.set k { c with handle := x, alive := !whole }⟩
            (T.revise (.givenUp k whole)) := by
        cases hd : c.handle.held with
        | some d =>
          obtain ⟨n, hf, hw⟩ := h.holders k c d hk hc.1 hd
          exact h.gives_giveUp hf hk hw hc.2
        | none => exact h.gives_giveUp_idle hk hc.1 hd
      obtain ⟨clock, said, -, hrun⟩ := hgives.run
      simp only [if_pos hc, hrun]
      exact ⟨rfl, hmatches.moment clock said⟩
    · simp only [if_neg hc]
      refine ⟨rfl, h.revise_idle fun n hf pid timed hw => ?_⟩
      obtain ⟨c', _, hk', halive, -, -, -, -, rfl⟩ := h.holder_of_eq hf hw
      rw [hk] at hk'
      cases hk'
      obtain ⟨htimed, hwhole⟩ := Classical.not_imp.1 fun hall => hc ⟨halive, hall⟩
      exact ⟨htimed, Bool.eq_false_iff.2 hwhole⟩

end GiveUp

/-! ### All demands -/

/-- **One demand**: the replies are the same, and what is left matches. -/
theorem serve (h : Matches dir D s T) {demand : Demand} (hfor : demand.IsFor dir) :
    Alike dir D (s.serve dir demand) (T.serve demand) := by
  cases demand with
  | attempt me name => exact h.attempt hfor me
  | acquire me env name options => exact h.acquire hfor.1 hfor.2 me
  | release k => exact h.giveUp k false
  | drop k => exact h.giveUp k true
  | owner me name => exact h.owner hfor me
  | isHeld me name => exact h.isHeld hfor me
  | kill pid =>
    simp only [Site.serve, LockTable.serve, h.processes]
    split
    · exact ⟨rfl, h.kill pid⟩
    · exact ⟨rfl, h⟩
  | start pid foreign =>
    simp only [Site.serve, LockTable.serve, h.processes]
    split
    · rename_i hpid
      refine ⟨rfl, h.populate _ fun q hq => ?_⟩
      rw [Table.get?_insert] at hq
      split at hq
      · rename_i hqp
        exact hqp ▸ hpid.1
      · exact h.proper q hq
    · exact ⟨rfl, h⟩
  | finish pid =>
    simp only [Site.serve, LockTable.serve, Machine.reap, h.processes]
    split
    · exact ⟨rfl, h⟩
    · refine ⟨rfl, h.populate _ fun q hq => ?_⟩
      rw [Table.get?_erase] at hq
      split at hq
      · cases hq
      · exact h.proper q hq

/-- **One demand after the other.** -/
theorem serveAll (h : Matches dir D s T) {demands : List Demand}
    (hfor : ∀ demand ∈ demands, demand.IsFor dir) :
    Alike dir D (serveAll (Site.serve · dir) demands s) (serveAll LockTable.serve demands T) := by
  induction demands generalizing s T with
  | nil => exact ⟨rfl, h⟩
  | cons demand demands ih =>
    obtain ⟨hdemand, hfor⟩ := List.forall_mem_cons.1 hfor
    obtain ⟨hreply, hleft⟩ := h.serve hdemand
    obtain ⟨hreplies, hend⟩ := ih hleft hfor
    exact ⟨List.cons_eq_cons.2 ⟨hreply, hreplies⟩, hend⟩

end Matches

/-! ## Starts -/

theorem matches_fresh (hw : m.WellFormed) (hhome : m.tree.Home dir D) {parent : Inode}
    (hempty : m.tree.directory? D = some (parent, .empty))
    (hregistries : ∀ pid, m.registry pid = .empty)
    (hproper : ∀ pid, m.processes.get? pid = some .running → pid.IsProper) :
    Matches dir D ⟨m, []⟩ (.fresh m.processes) where
  orderly := by
    refine ⟨hw, hhome, ?_⟩
    rintro e e' i ⟨-, -, _, _, hd, he⟩
    rw [hempty] at hd
    cases hd
    cases he
  processes := rfl
  proper := hproper
  handles := rfl
  standing name hf := ⟨.free, ⟨hhome.search, hf.isLookedUp, parent, .empty, hempty, rfl⟩, .free⟩
  holders _ _ _ hk := by cases hk
  guards _ _ hk := by cases hk
  registries pid := by
    rw [hregistries pid]
    exact ⟨Registry.sound_empty, fun _ _ => rfl⟩

/-- **The library is a table of locks.**  In an empty directory, whose names fit, it
    replies to all demands what a `LockTable` replies.  Whenever, there is a lock file
    exactly for each name that is not free, and a handle that has not been given up says
    that it holds exactly when some name is held through it. -/
theorem refines_lockTable (hw : m.WellFormed) (hhome : m.tree.Home dir D) {parent : Inode}
    (hempty : m.tree.directory? D = some (parent, .empty))
    (hregistries : ∀ pid, m.registry pid = .empty)
    (hproper : ∀ pid, m.processes.get? pid = some .running → pid.IsProper)
    (demands : List Demand) (hfor : ∀ demand ∈ demands, demand.IsFor dir) :
    let done := serveAll (Site.serve · dir) demands ⟨m, []⟩
    let told := serveAll LockTable.serve demands (.fresh m.processes)
    done.1 = told.1 ∧
      (∀ name, Fits dir name → ((∃ i, done.2.machine.tree.Leads (lockPath dir name) i) ↔
        told.2.standing name ≠ .free)) ∧
      ∀ (k : Nat) (c : Client), done.2.clients[k]? = some c → c.alive = true →
        (c.handle.isAcquired = true ↔
          ∃ name, Fits dir name ∧ told.2.standing name = .held k c.process c.timed) := by
  intro done told
  obtain ⟨hreplies, hend⟩ := (matches_fresh hw hhome hempty hregistries hproper).serveAll hfor
  refine ⟨hreplies, fun name hf => ?_, fun k c hk halive => ⟨fun hacq => ?_, ?_⟩⟩
  · obtain ⟨st, hst, hreflects⟩ := hend.standing name hf
    exact (hend.orderly.leads_iff hf hst).trans hreflects.ne_free_iff
  · obtain ⟨d, hd⟩ := Option.isSome_iff_exists.1 hacq
    exact hend.holders k c d hk halive hd
  · rintro ⟨name, hf, hheld⟩
    obtain ⟨c', d, hk', -, -, hd, -⟩ := hend.holder_of_eq hf hheld
    obtain rfl := Option.some.inj (hk.symm.trans hk')
    rw [Handle.isAcquired, hd, Option.isSome_some]

/-- A process that holds a name is killed, and its number leaves the process table. -/
theorem refines_lockTable_of_kill :
    let options : AcquireOptions := ⟨0, 0, true, some Contest.root⟩
    (serveAll (Site.serve · Contest.root)
      [.attempt 1 "a", .start 2 false, .acquire 2 [] "a" options, .release 0,
        .acquire 2 [] "a" options, .isHeld 2 "a", .acquire 2 [] "a" options, .kill 2,
        .owner 1 "a", .finish 2, .owner 1 "a", .attempt 1 "a", .drop 2, .owner 1 "a"]
      ⟨.bare 1, []⟩).1 =
    [.attempted true, .done, .timeout "a", .done, .acquired, .truth true, .notReentrant "a", .done,
      .owner (some ⟨2, true⟩), .done, .owner (some ⟨2, false⟩), .attempted true, .done,
      .owner none] := by
  have hf : Fits Contest.root "a" := ⟨by decide, by decide, by decide⟩
  have hhome : (Machine.bare 1).tree.Home Contest.root 0 :=
    ⟨⟨none, .here⟩, rfl, rfl, rfl⟩
  refine (refines_lockTable (Machine.bare_wellFormed 1) hhome rfl (fun _ => rfl) ?_ _ ?_).1.trans rfl
  · intro pid hpid
    rw [Machine.processes_bare] at hpid
    split at hpid
    · rename_i h
      subst h
      decide
    · cases hpid
  · simp [Demand.IsFor, AcquireOptions.directory, hf]

end NamedMutex
