/-
  Lock files, handles and registries that are to a table what they should be.

  A site and a table match (`Matches`) if every lock file, with the handle that has it
  locked, reflects the standing of its name (`Reflects`), and every registry counts the
  guards of its process (`CountsGuards`).

  * `CountsGuards.contains`: a process finds in its registry what it holds by guards;
  * `Matches.join`, `Matches.give`, `Matches.takeBack`, `Matches.kill`: a site and a table
    go on to match when handles come and go, and when processes die.
-/
import NamedMutex.Proofs.LockTable
import NamedMutex.Proofs.Patience

namespace NamedMutex

/-- How a lock file stands, with the handle that has it locked, if its name stands so. -/
inductive Reflects (clients : List Client) (path : Path) : LockState → Standing → Prop
  | free : Reflects clients path .free .free
  | left {pid : Pid} : Reflects clients path (.left pid) (.abandoned pid)
  | held {k : Nat} {c : Client} {d : Descriptor} : clients[k]? = some c → c.alive = true →
      c.handle.path = path → c.handle.held = some d →
      Reflects clients path (.held d c.process) (.held k c.process c.timed)

/-- Each registry counts the guards of its process. -/
def Machine.CountsGuards (m : Machine) (dir : Path) (standing : String → Standing) : Prop :=
  ∀ pid, (m.registry pid).Sound ∧ ∀ name, Fits dir name →
    (m.registry pid).count (lockPath dir name) = if (standing name).isGuardOf pid then 1 else 0

/-- A site does what a table says. -/
structure Matches (dir : Path) (D : Inode) (s : Site) (T : LockTable) : Prop where
  orderly : s.machine.Orderly dir D
  processes : s.machine.processes = T.processes
  proper : ∀ pid, T.processes.get? pid = some .running → pid.IsProper
  handles : s.clients.length = T.handles
  standing : ∀ name, Fits dir name → ∃ st, s.machine.Shows D (lockEntry name) st ∧
    Reflects s.clients (lockPath dir name) st (T.standing name)
  /-- A handle holds what it says it holds. -/
  holders : ∀ (k : Nat) (c : Client) (d : Descriptor), s.clients[k]? = some c → c.alive = true →
    c.handle.held = some d → ∃ name, Fits dir name ∧ T.standing name = .held k c.process c.timed
  guards : ∀ (k : Nat) (c : Client), s.clients[k]? = some c → c.alive = true → c.timed = true →
    c.handle.isAcquired = true
  registries : s.machine.CountsGuards dir T.standing

variable {dir : Path} {D : Inode} {s : Site} {T : LockTable} {m m' : Machine} {name : String}
  {me pid : Pid} {k : Nat} {c c' : Client} {d : Descriptor} {st : LockState} {w : Standing}
  {clients clients' : List Client} {path : Path}

/-! ## Handles and names -/

namespace Reflects

theorem not_held (h : Reflects clients path st w) (hw : w.isHeld = false) (d : Descriptor)
    (pid : Pid) : st ≠ .held d pid := by
  cases h with
  | free | left => exact LockState.noConfusion
  | held => cases hw

theorem of_isHeld (h : Reflects clients path st w) (hw : w.isHeld = true) :
    ∃ (k : Nat) (c : Client) (d : Descriptor), clients[k]? = some c ∧ c.alive = true ∧
      c.handle.path = path ∧ c.handle.held = some d ∧ st = .held d c.process ∧
      w = .held k c.process c.timed := by
  cases h with
  | free | left => cases hw
  | @held k c d hk halive hpath hd => exact ⟨k, c, d, hk, halive, hpath, hd, rfl, rfl⟩

/-- A held name stays so while its holder does. -/
theorem mono (h : Reflects clients path st w)
    (hkeep : ∀ (k : Nat) (c : Client), w = .held k c.process c.timed → clients[k]? = some c →
      clients'[k]? = some c) :
    Reflects clients' path st w := by
  cases h with
  | free => exact .free
  | left => exact .left
  | held hk halive hpath hd => exact .held (hkeep _ _ rfl hk) halive hpath hd

theorem ne_free_iff (h : Reflects clients path st w) : st ≠ .free ↔ w ≠ .free := by
  cases h <;> simp

theorem owner (h : Reflects clients path st w) : st.stamp? = w.owner? := by
  cases h <;> rfl

end Reflects

namespace Standing

@[simp] theorem isGuardOf_free (pid : Pid) : free.isGuardOf pid = false := rfl

@[simp] theorem isGuardOf_abandoned (q pid : Pid) : (abandoned q).isGuardOf pid = false := rfl

@[simp] theorem isGuardOf_held (k : Nat) (q : Pid) (timed : Bool) (pid : Pid) :
    (held k q timed).isGuardOf pid = (timed && decide (q = pid)) := rfl

theorem isGuardOf_of_not_isHeld (hw : w.isHeld = false) (pid : Pid) : w.isGuardOf pid = false := by
  cases w with
  | held => cases hw
  | free | abandoned => rfl

theorem givenUp_of_ne {whole : Bool} (h : ∀ pid timed, w ≠ .held k pid timed) :
    w.givenUp k whole = w := by
  cases w with
  | held j pid timed =>
    refine if_neg fun hk => h pid timed ?_
    rw [hk.1]
  | free | abandoned => rfl

theorem isGuardOf_afterDeath (w : Standing) (pid q : Pid) :
    (w.afterDeath pid).isGuardOf q = if q = pid then false else w.isGuardOf q := by
  cases w with
  | held k p timed =>
    by_cases hp : p = pid
    · subst hp
      by_cases hq : q = p
      · simp [afterDeath, hq]
      · simp [afterDeath, hq, Ne.symm hq]
    · by_cases hq : q = pid
      · subst hq
        simp [afterDeath, hp]
      · simp [afterDeath, hp, hq]
  | free | abandoned => simp [afterDeath]

end Standing

theorem getElem?_concat {c' : Client} : (clients ++ [c])[k]? = some c' ↔
    clients[k]? = some c' ∨ k = clients.length ∧ c = c' := by
  rcases Nat.lt_trichotomy k clients.length with h | rfl | h
  · rw [List.getElem?_append_left h]
    exact ⟨Or.inl, fun h' => h'.resolve_right fun h' => Nat.ne_of_lt h h'.1⟩
  · simp
  · have hout : (clients ++ [c]).length ≤ k := by simpa using Nat.succ_le_of_lt h
    rw [List.getElem?_eq_none hout, List.getElem?_eq_none (Nat.le_of_lt h)]
    simp [Nat.ne_of_gt h]

theorem eq_of_getElem?_set (h : (clients.set k c')[k]? = some c) : c = c' := by
  obtain ⟨_, h⟩ := List.getElem?_eq_some_iff.1 h
  rw [List.getElem_set_self] at h
  exact h.symm

/-! ## Registries -/

namespace Machine

theorem registry_kill (m : Machine) (pid q : Pid) :
    (m.kill pid).registry q = if q = pid then .empty else m.registry q := by
  simp only [registry, registries_kill, Table.get?_erase]
  split <;> rfl

namespace CountsGuards

variable {standing standing' : String → Standing}

theorem congr (h : m.CountsGuards dir standing) (hm : m'.registries = m.registries)
    (hs : ∀ name, Fits dir name → ∀ pid,
      (standing' name).isGuardOf pid = (standing name).isGuardOf pid) :
    m'.CountsGuards dir standing' := by
  intro pid
  have hr : m'.registry pid = m.registry pid := by simp only [registry, hm]
  obtain ⟨hsound, hcount⟩ := h pid
  refine ⟨hr ▸ hsound, fun name hf => ?_⟩
  rw [hr, hcount name hf, hs name hf pid]

/-- **A process finds in its registry what it holds by guards.** -/
theorem contains (h : m.CountsGuards dir standing) (hf : Fits dir name) (pid : Pid) :
    (m.registry pid).contains (lockPath dir name) = (standing name).isGuardOf pid := by
  obtain ⟨hsound, hcount⟩ := h pid
  rw [Bool.eq_iff_iff, hsound.contains_iff, hcount name hf]
  split
  · rename_i hg
    simp [hg]
  · rename_i hg
    simp [hg]

/-- A process enters one name in its registry otherwise, or not at all. -/
theorem reenter (h : m.CountsGuards dir standing) {r : Registry} (hsound : r.Sound)
    (hcount : ∀ n, Fits dir n → r.count (lockPath dir n) =
      if n = name then if (standing' name).isGuardOf me then 1 else 0
      else (m.registry me).count (lockPath dir n))
    (hguards : ∀ pid ≠ me, (standing' name).isGuardOf pid = (standing name).isGuardOf pid)
    (hothers : ∀ n, Fits dir n → n ≠ name → standing' n = standing n) :
    (m.setRegistry me r).CountsGuards dir standing' := by
  intro pid
  rw [registry_setRegistry]
  by_cases hpid : pid = me
  · subst hpid
    rw [if_pos rfl]
    refine ⟨hsound, fun n hf => ?_⟩
    rw [hcount n hf]
    by_cases hn : n = name
    · rw [if_pos hn, hn]
    · rw [if_neg hn, (h pid).2 n hf, hothers n hf hn]
  · rw [if_neg hpid]
    refine ⟨(h pid).1, fun n hf => ?_⟩
    rw [(h pid).2 n hf]
    by_cases hn : n = name
    · rw [hn, hguards pid hpid]
    · rw [hothers n hf hn]

theorem register (h : m.CountsGuards dir standing) (hf : Fits dir name)
    (hfree : (standing name).isHeld = false) (hname : standing' name = .held k me true)
    (hothers : ∀ n ≠ name, standing' n = standing n) :
    (m.registered me (lockPath dir name)).CountsGuards dir standing' := by
  have hfree' := Standing.isGuardOf_of_not_isHeld hfree
  refine h.reenter ((h me).1.register _) (fun n hf' => ?_) (fun pid hpid => ?_) fun n _ => hothers n
  · rw [Registry.count_register]
    by_cases hn : n = name
    · subst hn
      simp [(h me).2 n hf, hfree', hname, Path.Same]
    · rw [if_neg hn, if_neg (mt (same_lockPath_iff hf.valid hf'.valid).1 (Ne.symm hn))]
      rfl
  · simp [hname, hfree', Ne.symm hpid]

theorem unregister (h : m.CountsGuards dir standing) (hf : Fits dir name)
    (hguard : standing name = .held k me true) (hname : standing' name = .free)
    (hothers : ∀ n, Fits dir n → n ≠ name → standing' n = standing n) :
    (m.unregistered me (lockPath dir name)).CountsGuards dir standing' := by
  refine h.reenter ((h me).1.unregister _) (fun n hf' => ?_) (fun pid hpid => ?_) hothers
  · rw [Registry.count_unregister (h me).1.distinct]
    by_cases hn : n = name
    · subst hn
      simp [(h me).2 n hf, hguard, hname, Path.Same]
    · rw [if_neg hn, if_neg (mt (same_lockPath_iff hf.valid hf'.valid).1 (Ne.symm hn))]
      rfl
  · simp [hname, hguard, Ne.symm hpid]

theorem kill (h : m.CountsGuards dir standing) (pid : Pid) :
    (m.kill pid).CountsGuards dir fun name => (standing name).afterDeath pid := by
  intro q
  rw [registry_kill]
  by_cases hq : q = pid
  · rw [if_pos hq]
    refine ⟨Registry.sound_empty, fun n _ => ?_⟩
    simp only [Standing.isGuardOf_afterDeath, if_pos hq]
    rfl
  · rw [if_neg hq]
    refine ⟨(h q).1, fun n hf => ?_⟩
    simp only [Standing.isGuardOf_afterDeath, if_neg hq]
    exact (h q).2 n hf

end CountsGuards

end Machine

/-! ## What demands do -/

namespace Matches

theorem congr (h : Matches dir D s T) {T' : LockTable} (hprocesses : T'.processes = T.processes)
    (hhandles : T'.handles = T.handles)
    (hstanding : ∀ name, Fits dir name → T'.standing name = T.standing name) :
    Matches dir D s T' where
  orderly := h.orderly
  processes := h.processes.trans hprocesses.symm
  proper := hprocesses ▸ h.proper
  handles := h.handles.trans hhandles.symm
  standing name hf := hstanding name hf ▸ h.standing name hf
  holders k c d hk halive hd := by
    obtain ⟨name, hf, hw⟩ := h.holders k c d hk halive hd
    exact ⟨name, hf, (hstanding name hf).trans hw⟩
  guards := h.guards
  registries := h.registries.congr rfl fun name hf pid => by rw [hstanding name hf]

theorem moment (h : Matches dir D s T) (clock : Duration) (said : List (Pid × Output)) :
    Matches dir D ⟨s.machine.moment clock said, s.clients⟩ T :=
  { h with orderly := h.orderly.congr rfl rfl rfl (Nat.le_refl _) }

theorem skip (h : Matches dir D s T) (n : Nat) : Matches dir D ⟨s.machine.skip n, s.clients⟩ T :=
  { h with orderly := h.orderly.skip n }

theorem holder (h : Matches dir D s T) (hf : Fits dir name)
    (hw : (T.standing name).isHeld = true) : ∃ (k : Nat) (c : Client) (d : Descriptor),
      s.clients[k]? = some c ∧ c.alive = true ∧ c.handle.path = lockPath dir name ∧
      c.handle.held = some d ∧ s.machine.Shows D (lockEntry name) (.held d c.process) ∧
      T.standing name = .held k c.process c.timed := by
  obtain ⟨st, hshows, hreflects⟩ := h.standing name hf
  obtain ⟨k, c, d, hk, halive, hpath, hd, rfl, hw⟩ := hreflects.of_isHeld hw
  exact ⟨k, c, d, hk, halive, hpath, hd, hshows, hw⟩

theorem holder_of_eq (h : Matches dir D s T) (hf : Fits dir name) {timed : Bool}
    (hw : T.standing name = .held k pid timed) : ∃ (c : Client) (d : Descriptor),
      s.clients[k]? = some c ∧ c.alive = true ∧ c.handle.path = lockPath dir name ∧
      c.handle.held = some d ∧ s.machine.Shows D (lockEntry name) (.held d c.process) ∧
      c.process = pid ∧ c.timed = timed := by
  obtain ⟨j, c, d, hk, halive, hpath, hd, hshows, hw'⟩ := h.holder hf (by rw [hw]; rfl)
  rw [hw] at hw'
  cases hw'
  exact ⟨c, d, hk, halive, hpath, hd, hshows, rfl, rfl⟩

theorem name_unique (h : Matches dir D s T) {a b : String} {pid q : Pid} {timed timed' : Bool}
    (ha : Fits dir a) (hb : Fits dir b) (hwa : T.standing a = .held k pid timed)
    (hwb : T.standing b = .held k q timed') : a = b := by
  obtain ⟨c, _, hk, -, hpath, -⟩ := h.holder_of_eq ha hwa
  obtain ⟨c', _, hk', -, hpath', -⟩ := h.holder_of_eq hb hwb
  rw [hk] at hk'
  cases hk'
  rw [hpath] at hpath'
  exact (same_lockPath_iff ha.valid hb.valid).1 (congrArg Path.components hpath')

/-- **A new handle that holds nothing.** -/
theorem join (h : Matches dir D s T) (hnone : c.handle.held = none) (htimed : c.timed = false) :
    Matches dir D ⟨s.machine, s.clients ++ [c]⟩ { T with handles := T.handles + 1 } where
  orderly := h.orderly
  processes := h.processes
  proper := h.proper
  handles := by simp [h.handles]
  standing name hf := by
    obtain ⟨st, hshows, hreflects⟩ := h.standing name hf
    exact ⟨st, hshows, hreflects.mono fun _ _ _ hk => getElem?_concat.2 (Or.inl hk)⟩
  holders k c' d hk halive hd := by
    rcases getElem?_concat.1 hk with hk | ⟨-, rfl⟩
    · exact h.holders k c' d hk halive hd
    · rw [hnone] at hd
      cases hd
  guards k c' hk halive hc := by
    rcases getElem?_concat.1 hk with hk | ⟨-, rfl⟩
    · exact h.guards k c' hk halive hc
    · rw [htimed] at hc
      cases hc
  registries := h.registries

/-- **A new handle or guard that holds a name.** -/
theorem give (h : Matches dir D s T) (hf : Fits dir name) (hfree : (T.standing name).isHeld = false)
    {handle : Handle} {timed : Bool} (hpath : handle.path = lockPath dir name)
    (hd : handle.held = some d) (ho : m'.Orderly dir D)
    (hshows : m'.Shows D (lockEntry name) (.held d me))
    (hothers : ∀ e ≠ lockEntry name, ∀ st, s.machine.Shows D e st → m'.Shows D e st)
    (hprocesses : m'.processes = s.machine.processes)
    (hregistries : m'.CountsGuards dir (T.give name me timed).standing) :
    Matches dir D ⟨m', s.clients ++ [⟨me, handle, timed, true⟩]⟩ (T.give name me timed) where
  orderly := ho
  processes := hprocesses.trans h.processes
  proper := h.proper
  handles := by simp [LockTable.give, h.handles]
  standing n hf' := by
    by_cases hn : n = name
    · subst hn
      refine ⟨_, hshows, ?_⟩
      simp only [LockTable.give, if_true, ← h.handles]
      exact .held (getElem?_concat.2 (Or.inr ⟨rfl, rfl⟩)) rfl hpath hd
    · obtain ⟨st, hst, hreflects⟩ := h.standing n hf'
      simp only [LockTable.give, if_neg hn]
      exact ⟨st, hothers _ (fun he => hn (lockEntry_injective he)) st hst,
        hreflects.mono fun _ _ _ hk => getElem?_concat.2 (Or.inl hk)⟩
  holders k c' d' hk halive hd' := by
    rcases getElem?_concat.1 hk with hk | ⟨rfl, rfl⟩
    · obtain ⟨n, hf', hw⟩ := h.holders k c' d' hk halive hd'
      refine ⟨n, hf', ?_⟩
      have hn : n ≠ name := by
        rintro rfl
        rw [hw] at hfree
        cases hfree
      simp only [LockTable.give, if_neg hn, hw]
    · exact ⟨name, hf, by simp only [LockTable.give, if_true, h.handles]⟩
  guards k c' hk halive hc := by
    rcases getElem?_concat.1 hk with hk | ⟨-, rfl⟩
    · exact h.guards k c' hk halive hc
    · simp only [Handle.isAcquired, hd, Option.isSome_some]
  registries := hregistries

/-- **A handle or guard that is given up**: what it holds is free. -/
theorem takeBack (h : Matches dir D s T) {whole : Bool} (hidle : c'.alive = true →
      c'.handle.held = none ∧ c'.timed = false)
    (hfree : ∀ n, Fits dir n → ∀ pid timed, T.standing n = .held k pid timed →
      (timed = true → whole = true) ∧ m'.Shows D (lockEntry n) .free)
    (hothers : ∀ n, Fits dir n → (∀ pid timed, T.standing n ≠ .held k pid timed) →
      ∀ st, s.machine.Shows D (lockEntry n) st → m'.Shows D (lockEntry n) st)
    (ho : m'.Orderly dir D) (hprocesses : m'.processes = s.machine.processes)
    (hregistries : m'.CountsGuards dir (T.revise (.givenUp k whole)).standing) :
    Matches dir D ⟨m', s.clients.set k c'⟩ (T.revise (.givenUp k whole)) where
  orderly := ho
  processes := hprocesses.trans h.processes
  proper := h.proper
  handles := by simp [LockTable.revise, h.handles]
  standing n hf := by
    simp only [LockTable.revise]
    by_cases hn : ∃ pid timed, T.standing n = .held k pid timed
    · obtain ⟨pid, timed, hw⟩ := hn
      obtain ⟨hwhole, hshows⟩ := hfree n hf pid timed hw
      rw [hw, Standing.givenUp, if_pos ⟨rfl, hwhole⟩]
      exact ⟨_, hshows, .free⟩
    · have hne : ∀ pid timed, T.standing n ≠ .held k pid timed := fun pid timed hw =>
        hn ⟨pid, timed, hw⟩
      obtain ⟨st, hst, hreflects⟩ := h.standing n hf
      rw [Standing.givenUp_of_ne hne]
      refine ⟨st, hothers n hf hne st hst, hreflects.mono fun j c hw hj => ?_⟩
      rwa [List.getElem?_set_ne]
      rintro rfl
      exact hne _ _ hw
  holders j c d hj halive hd := by
    by_cases hjk : k = j
    · subst hjk
      obtain rfl := eq_of_getElem?_set hj
      rw [(hidle halive).1] at hd
      cases hd
    · rw [List.getElem?_set_ne hjk] at hj
      obtain ⟨n, hf, hw⟩ := h.holders j c d hj halive hd
      refine ⟨n, hf, ?_⟩
      simp only [LockTable.revise]
      rw [Standing.givenUp_of_ne, hw]
      intro pid timed hw'
      rw [hw] at hw'
      cases hw'
      exact hjk rfl
  guards j c hj halive hc := by
    by_cases hjk : k = j
    · subst hjk
      obtain rfl := eq_of_getElem?_set hj
      rw [(hidle halive).2] at hc
      cases hc
    · rw [List.getElem?_set_ne hjk] at hj
      exact h.guards j c hj halive hc
  registries := hregistries

/-- **A process that is killed** abandons what it holds. -/
theorem kill (h : Matches dir D s T) (pid : Pid) :
    Matches dir D ⟨s.machine.kill pid, s.clients.map (.afterDeath pid)⟩
      { T.revise (.afterDeath pid) with processes := T.processes.insert pid .zombie } where
  orderly := h.orderly.kill pid
  processes := by rw [Machine.processes_kill h.orderly.wellFormed, h.processes]
  proper q hq := by
    rw [Table.get?_insert] at hq
    split at hq
    · cases hq
    · exact h.proper q hq
  handles := by simp [LockTable.revise, h.handles]
  standing n hf := by
    obtain ⟨st, hst, hreflects⟩ := h.standing n hf
    refine ⟨st.afterDeath pid, hst.kill h.orderly.wellFormed pid, ?_⟩
    simp only [LockTable.revise]
    generalize T.standing n = w at hreflects
    cases hreflects with
    | free => exact .free
    | left => exact .left
    | @held k c d hk halive hpath hd =>
      by_cases hc : c.process = pid
      · simp only [LockState.afterDeath, Standing.afterDeath, if_pos hc]
        exact .left
      · simp only [LockState.afterDeath, Standing.afterDeath, if_neg hc]
        refine .held (c := c.afterDeath pid) ?_ ?_ hpath hd
        · rw [List.getElem?_map, hk, Option.map_some]
        · simp [Client.afterDeath, halive, hc]
  holders k _ d hk' halive hd := by
    rw [List.getElem?_map] at hk'
    obtain ⟨c, hk, rfl⟩ := Option.map_eq_some_iff.1 hk'
    simp only [Client.afterDeath, Bool.and_eq_true, Bool.not_eq_true', decide_eq_false_iff_not]
      at halive
    obtain ⟨n, hf, hw⟩ := h.holders k c d hk halive.1 hd
    refine ⟨n, hf, ?_⟩
    simp only [LockTable.revise, hw, Standing.afterDeath, if_neg halive.2]
    rfl
  guards k _ hk' halive hc := by
    rw [List.getElem?_map] at hk'
    obtain ⟨c, hk, rfl⟩ := Option.map_eq_some_iff.1 hk'
    simp only [Client.afterDeath, Bool.and_eq_true] at halive
    exact h.guards k c hk halive.1 hc
  registries := h.registries.kill pid

theorem populate (h : Matches dir D s T) (processes : Table Pid ProcessState)
    (hproper : ∀ pid, processes.get? pid = some .running → pid.IsProper) :
    Matches dir D ⟨{ s.machine with processes := processes }, s.clients⟩
      { T with processes := processes } :=
  { h with
    orderly := h.orderly.congr rfl rfl rfl (Nat.le_refl _)
    processes := rfl
    proper := hproper }

end Matches

end NamedMutex
