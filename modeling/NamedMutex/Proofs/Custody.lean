/-
  Who answers for the lock file.

  If there is no lock file at first, no call fails and nobody dies, then no lock
  file is ever left alone: the duty to remove it passes from party to party.  A
  party that is refused leaves it to the one that has the lock, and one that finds
  its file orphaned leaves a file to which the path does not lead.

  * `Yields` says how a party may give its file up;
  * `Custody` is what holds of all states, and `Play.custody` that it does;
  * `no_leak` is the main statement.
-/
import NamedMutex.Proofs.Contention

namespace NamedMutex

/-- Whether an answer tells of a failure, contention for the lock apart. -/
def Call.spoils : (c : Call) → c.Answer → Bool
  | unlink _, .error _ => true
  | c, x => c.troubles x

/-- What happens where nobody dies and no call fails. -/
def Move.Flawless : Move → Prop
  | death _ => False
  | reply _ manner c x => manner = .answered ∧ c.spoils x = false
  | spawn _ | reap _ | attempt _ | release _ => True

/-- A reply that refuses the lock to the party number `k`, or answers its request to
    remove the file. -/
def Move.Dismisses (k : Nat) : Move → Prop
  | reply j _ (.tryLock _) (.error _) | reply j _ (.unlink _) _ => j = k
  | _ => False

theorem Move.Dismisses.eq {j k : Nat} {manner : Manner} {c : Call} {x : c.Answer}
    (h : (reply j manner c x).Dismisses k) : j = k := by
  unfold Dismisses at h
  split at h
  · rename_i heq
    cases heq
    exact h
  · rename_i heq
    cases heq
    exact h
  · exact h.elim

namespace Role

/-- The roles that have the file `d`, and have not given it up. -/
def Keeps (d : Descriptor) : Role → Prop
  | opened d' | locked d' | owner d' _ => d' = d
  | outside | ready | leaving _ _ | out _ => False

/-- The roles that were refused the lock, or have removed the file, or failed. -/
def Dismissed (r : Role) : Prop :=
  ∃ e, e ≠ some .orphaned ∧ ((∃ d, r = .leaving d e) ∨ r = .out e)

variable {path : Path} {me : Pid} {r r' : Role} {c : Call} {x : c.Answer} {d : Descriptor}

theorem Keeps.seeks_or_owner (h : r.Keeps d) : r.Seeks d ∨ ∃ w, r = .owner d w := by
  cases r with
  | opened | locked | owner =>
    cases h
    simp [Seeks]
  | outside | ready | leaving | out => exact h.elim

theorem Keeps.file (h : r.Keeps d) : r.file = some d := by
  rcases h.seeks_or_owner with h | ⟨w, rfl⟩
  · exact h.file
  · rfl

theorem Keeps.not_dismissed (h : r.Keeps d) : ¬ r.Dismissed := by
  rintro ⟨e, -, ⟨d', rfl⟩ | rfl⟩ <;> exact h

theorem Dismissed.follows (h : r.Dismissed) (hf : Follows path me r c x r') : r'.Dismissed := by
  obtain ⟨e, he, ⟨d, rfl⟩ | rfl⟩ := h
  · cases hf with
    | say | ownPid | probe | readPath | unlock => exact ⟨e, he, Or.inl ⟨d, rfl⟩⟩
    | close => exact ⟨e, he, Or.inr rfl⟩
    | opened h | unopened h => rcases h with h | h <;> cases h
  · cases hf with
    | say | ownPid | probe | readPath => exact ⟨e, he, Or.inr rfl⟩
    | opened h | unopened h =>
      rcases h with h | h <;> cases h
      exact absurd rfl he

end Role

theorem Move.Dismisses.role {path : Path} {me : Pid} {r r' : Role} {manner : Manner} {c : Call}
    {x : c.Answer} {k : Nat} (h : (reply k manner c x).Dismisses k) (hf : Follows path me r c x r') :
    r'.Dismissed := by
  cases hf with
  | @unlocked d e =>
    refine ⟨some (.ofLock e), ?_, Or.inl ⟨d, rfl⟩⟩
    unfold Excuse.ofLock
    split <;> simp
  | unlink => exact ⟨none, by simp, Or.inl ⟨_, rfl⟩⟩
  | stamped hstamp | unstamped hstamp => cases hstamp <;> exact h.elim
  | say | ownPid | probe | readPath | made | unmade | opened | unopened | locked | linked | orphaned
  | seen | illegible | unread | unlock | close => exact h.elim

/-! ## Calls and nodes -/

namespace Machine

/-- Only calls that open files or make directories make nodes. -/
theorem isSome_node?_answer {m : Machine} {pid : Pid} {c : Call} {i : Inode}
    (hdirs : ∀ p, c ≠ .makeDirs p) (hfile : ∀ p, c ≠ .openFile p) :
    ((m.answer pid c).2.tree.node? i).isSome = (m.tree.node? i).isSome := by
  cases c with
  | makeDirs p => exact absurd rfl (hdirs p)
  | openFile p => exact absurd rfl (hfile p)
  | tryLock d =>
    obtain ⟨x, m', hx⟩ : ∃ x m', m.tryLock d = (x, m') := ⟨_, _, rfl⟩
    simp only [answer, hx]
    rcases tryLock_cases hx with ⟨_, -, rfl⟩ | ⟨f, -, -, ⟨-, rfl⟩ | ⟨-, rfl⟩⟩ <;> rfl
  | read d =>
    simp only [answer, read]
    split <;> rfl
  | truncate d =>
    obtain ⟨x, m', hx⟩ : ∃ x m', m.truncate d = (x, m') := ⟨_, _, rfl⟩
    simp only [answer, hx]
    rcases truncate_cases hx with ⟨_, -, rfl⟩ | ⟨f, _, _, _, -, -, -, rfl⟩
    · rfl
    · exact FileTree.node?_setContent
  | rewind d =>
    simp only [answer, rewind]
    split <;> rfl
  | write d bytes =>
    obtain ⟨x, m', hx⟩ : ∃ x m', m.write d bytes = (x, m') := ⟨_, _, rfl⟩
    simp only [answer, hx]
    rcases write_cases hx with rfl | ⟨f, _, _, _, -, -, -, rfl⟩
    · rfl
    · exact FileTree.node?_setContent
  | unlink p =>
    simp only [answer]
    split
    · rename_i h
      obtain ⟨_, dir, name, -, -, -, rfl⟩ := FileTree.unlink_cases h
      exact FileTree.node?_remove dir name i
    · rfl
  | unlock d =>
    simp only [answer]
    split <;> rfl
  | leadsTo | readPath | close | ownPid | probe | now | sleep | isRegistered | register | unregister
  | say => rfl

end Machine

section Replies
variable {path : Path} {me : Pid} {r r' : Role} {m m' : Machine} {c : Call} {x : c.Answer}
  {i : Inode}

theorem Replies.leads_or_opened (h : Replies m me .answered c x m') (hf : Follows path me r c x r')
    (hw : m.WellFormed) (hh : Holds path me m r) (hs : m.tree.Settled path)
    (hl : m'.tree.Leads path i) :
    m.tree.Leads path i ∨ ∃ d f, r' = .opened d ∧ m'.opened.get? d = some f ∧ f.inode = i := by
  have ht := h.turn hf hw hh
  rcases ht.tree.linked hs i hl with hold | ⟨hnone, hnode⟩
  · exact Or.inl hold
  have hm' : (m.tick.answer me c).2 = m' := congrArg Prod.snd h.perform
  have hnone' : m.tick.tree.node? i = none := hnone
  by_cases hdirs : ∃ p, c = .makeDirs p
  · -- the directory is there, so none is made
    obtain ⟨p, rfl⟩ := hdirs
    have hsame : m'.tree = m.tree := by
      have hdir : path.parent? = some p := by
        cases hf with
        | made hp | unmade hp => exact hp
        | stamped hstamp | unstamped hstamp => cases hstamp
      rw [← hm']
      exact congrArg Prod.fst (FileTree.makeDirs_of_isThere (hs p hdir))
    rw [hsame, hnone] at hnode
    cases hnode
  by_cases hfile : ∃ p, c = .openFile p
  · obtain ⟨p, rfl⟩ := hfile
    cases hf with
    | @opened _ d hopens =>
      have hseeks : (Role.opened d).Seeks d := Or.inl rfl
      rcases h.seeks (.opened hopens) hw hseeks with ⟨-, hsame, -⟩ | ⟨f, hopened, hl'⟩
      · rw [hsame, hnone] at hnode
        cases hnode
      · exact Or.inr ⟨d, f, rfl, hopened, hl'.unique hl⟩
    | @unopened _ e hopens =>
      have hsame : m' = m.tick := Machine.answer_failed (e := e) h.perform rfl (fun p hp => by cases hp)
      rw [hsame, hnone'] at hnode
      cases hnode
    | stamped hstamp | unstamped hstamp => cases hstamp
  · have hsome : ((m.tick.answer me c).2.tree.node? i).isSome = (m.tick.tree.node? i).isSome :=
      Machine.isSome_node?_answer (fun p hp => hdirs ⟨p, hp⟩) fun p hp => hfile ⟨p, hp⟩
    rw [hm', hnode, hnone'] at hsome
    cases hsome

end Replies

namespace Contest

/-- How a party may give up the file `d`: to whoever has the lock, or because the
    path does not lead to it, or leads nowhere any more. -/
inductive Yields (path : Path) (m m' : Machine) (d : Descriptor) : Role → Prop
  | refused {f : OpenFile} {d' : Descriptor} : m'.tree = m.tree → m.opened.get? d = some f →
      d' ≠ d → m.locks.get? f.inode = some d' →
      Yields path m m' d (.leaving d (some .refused))
  | orphaned {f : OpenFile} : m'.tree = m.tree → m.opened.get? d = some f →
      ¬ m.tree.Leads path f.inode → Yields path m m' d (.leaving d (some .orphaned))
  | removed : (∀ i, ¬ m'.tree.Leads path i) → Yields path m m' d (.leaving d none)

variable {dir : Path} {name : String} {m m' : Machine} {past : Past} {s s' : Contest}
  {ρ ρ' : Roles} {move : Move} {k : Nat} {P : Party} {r : Role} {c : Call} {x : c.Answer}
  {d : Descriptor} {i : Inode}

/-- **A party keeps its file, or yields it.** -/
theorem Sound.keeps_or_yields (hs : Sound dir name s ρ)
    (hkept : Kept (lockPath dir name) m past s ρ) (hk : s.Live k P)
    (hreply : Replies s.machine P.process .answered c x m')
    (hf : Follows (lockPath dir name) P.process (ρ k) c x r) (hx : c.spoils x = false)
    (hd : (ρ k).Keeps d) : r.Keeps d ∨ Yields (lockPath dir name) s.machine m' d r := by
  have hold := hs.holds k P hk
  generalize hrole : ρ k = q at hf hd hold
  cases hf with
  | say | ownPid | probe | readPath => exact Or.inl hd
  | locked | linked | seen | stamped => exact Or.inl hd
  | @unlocked _ e =>
    cases hd
    obtain ⟨f, hopened, -⟩ := hold.file d rfl
    obtain ⟨d', hne, hlock⟩ := hreply.refused hopened
    have he : e.IsContention := by simpa [Call.spoils, Call.troubles] using hx
    have hexcuse : Excuse.ofLock e = .refused := if_pos he
    have hsame : m' = s.machine.tick :=
      Machine.answer_failed (e := e) hreply.perform rfl fun p hp => by cases hp
    rw [hexcuse, hsame]
    exact Or.inr (.refused rfl hopened hne hlock)
  | orphaned =>
    cases hd
    obtain ⟨f, hopened, -⟩ := hold.file d rfl
    have hnot := hreply.orphaned hopened
    have hsame : m' = s.machine.tick := (congrArg Prod.snd hreply.perform).symm
    rw [hsame]
    exact Or.inr (.orphaned rfl hopened hnot)
  | illegible hbytes =>
    have htext := hs.legible hkept hk hrole hreply
    rw [hbytes] at htext
    cases htext
  | unlink =>
    cases hd
    have hanswer := hreply.perform
    simp only [Machine.perform, Machine.answer] at hanswer
    split at hanswer <;> cases hanswer
    · rename_i hunlink
      exact Or.inr (.removed (FileTree.unlink_leads hunlink hs.wellFormed.tree))
    · cases hx
  | unread => cases hx
  | unstamped hstamp => cases hstamp <;> cases hx
  | opened hopens | unopened hopens =>
    have hnone := hd.file
    rcases hopens with rfl | rfl <;> cases hnone
  | made | unmade | unlock | close => exact hd.elim

/-! ## Custody -/

/-- The party number `k` was refused the lock, or has removed its file. -/
def Dismissed (past : Past) (k : Nat) : Prop := ∃ y ∈ past, y.2.Dismisses k

/-- The party number `k` lives, and keeps a file of the node `i`. -/
def Minds (s : Contest) (ρ : Roles) (k : Nat) (i : Inode) : Prop :=
  ∃ P d f, s.Live k P ∧ (ρ k).Keeps d ∧ s.machine.opened.get? d = some f ∧ f.inode = i

/-- What holds of all states of a contest that begins without a lock file, while
    nobody dies and no call fails. -/
structure Custody (path : Path) (past : Past) (s : Contest) (ρ : Roles) : Prop where
  minded : ∀ i, s.machine.tree.Leads path i → ∃ k, s.Minds ρ k i
  /-- Who has the lock of the linked file does not give it up. -/
  locked : ∀ k P d i, s.Live k P → (ρ k).file = some d → s.machine.locks.get? i = some d →
    s.machine.tree.Leads path i → (ρ k).Keeps d
  dismissed : ∀ k, Dismissed past k → k < s.parties.length ∧ (ρ k).Dismissed

/-- Steps that leave the files and the locks alone.  A party that is new has no
    file. -/
theorem Custody.congr {path : Path} (h : Custody path past s ρ)
    (hmachine : s'.machine.tree = s.machine.tree ∧ s'.machine.opened = s.machine.opened ∧
      s'.machine.locks = s.machine.locks)
    (hlen : s.parties.length ≤ s'.parties.length)
    (hroles : ∀ k, k < s.parties.length → ρ' k = ρ k)
    (hlive : ∀ k P, s.Live k P → ∃ P', s'.Live k P')
    (hback : ∀ k P' d, s'.Live k P' → (ρ' k).file = some d → ∃ P, s.Live k P)
    (hmove : ∀ k, ¬ move.Dismisses k) :
    Custody path ((s, move) :: past) s' ρ' := by
  obtain ⟨htree, hopened, hlocks⟩ := hmachine
  have hrole : ∀ {k P}, s.Live k P → ρ' k = ρ k :=
    fun hk => hroles _ (List.getElem?_eq_some_iff.1 hk.1).1
  refine ⟨fun i hl => ?_, fun k P' d i hk' hd hlock hl => ?_, fun k hk => ?_⟩
  · rw [htree] at hl
    obtain ⟨k, P, d, f, hk, hkeeps, hf, hi⟩ := h.minded i hl
    obtain ⟨P', hk'⟩ := hlive k P hk
    exact ⟨k, P', d, f, hk', (hrole hk).symm ▸ hkeeps, hopened.symm ▸ hf, hi⟩
  · obtain ⟨P, hk⟩ := hback k P' d hk' hd
    rw [hrole hk] at hd ⊢
    rw [hlocks] at hlock
    rw [htree] at hl
    exact h.locked k P d i hk hd hlock hl
  · have hold : Dismissed past k := by simpa [Dismissed, hmove k] using hk
    obtain ⟨hlt, hgone⟩ := h.dismissed k hold
    exact ⟨Nat.lt_of_lt_of_le hlt hlen, (hroles k hlt).symm ▸ hgone⟩

/-- Whoever keeps a file to which the path leads now, minds it. -/
theorem Sound.minds (hs' : Sound dir name s' ρ') (hk : s'.Live k P) (hd : (ρ' k).Keeps d)
    (hseeks : (ρ' k).Seeks d → ∃ f, s'.machine.opened.get? d = some f ∧ f.inode = i)
    (hl : s'.machine.tree.Leads (lockPath dir name) i) : s'.Minds ρ' k i := by
  rcases hd.seeks_or_owner with hseek | ⟨w, hrole⟩
  · obtain ⟨f, hf, hi⟩ := hseeks hseek
    exact ⟨P, d, f, hk, hd, hf, hi⟩
  · obtain ⟨f, hf, -, -, hl'⟩ := hs'.owner hk hrole
    have hd' : (ρ' k).file = some d := hd.file
    exact ⟨P, d, f, hk, hd, hf, hl'.unique hl⟩

/-! ## Replies -/

theorem live_told (hk : s.Live k P) (m' : Machine) (stage : Stage) {j : Nat} {Q : Party} :
    (s.put m' k (P.told c x stage)).Live j Q ↔
      (j = k ∧ Q = P.told c x stage) ∨ (j ≠ k ∧ s.Live j Q) := by
  have halive : (P.told c x stage).alive = true := hk.2
  exact live_put hk m' halive

section Reply
variable {next : c.Answer → Stage}
  (habsent : m.tree.Absent (lockPath dir name))
  (hs : Sound dir name s ρ) (hs' : Sound dir name (s.put m' k (P.told c x (next x))) (ρ.set k r))
  (hkept : Kept (lockPath dir name) m past s ρ) (hcustody : Custody (lockPath dir name) past s ρ)
  (hk : s.Live k P) (hreply : Replies s.machine P.process .answered c x m')
  (hf : Follows (lockPath dir name) P.process (ρ k) c x r)
  (ht : Turn (lockPath dir name) P.process (Manner.answered.Leaves P.process) (ρ k) s.machine r m')
  (hx : c.spoils x = false)

include habsent hkept ht in
theorem Kept.settled (hl : m'.tree.Leads (lockPath dir name) i) :
    s.machine.tree.Settled (lockPath dir name) := by
  refine Classical.byContradiction fun hnot => ?_
  have hprepared := ht.tree.prepared hnot (hkept.tree.resolve_left hnot)
  exact habsent _ i hprepared hl

include hs hkept hcustody in
/-- The rival that refuses the lock of the linked file keeps that file. -/
theorem Custody.rival {d' : Descriptor} (hd : (ρ k).file = some d) (hne : d' ≠ d)
    (hlock : s.machine.locks.get? i = some d') (hl : s.machine.tree.Leads (lockPath dir name) i) :
    ∃ j, j ≠ k ∧ s.Minds ρ j i := by
  rcases hkept.locks i d' hlock with ⟨j, Q, hj, hjd⟩ | hstart
  · obtain ⟨f, hopened, hi⟩ := hs.wellFormed.locked hlock
    refine ⟨j, ?_, Q, d', f, hj, hcustody.locked j Q d' i hj hjd hlock hl, hopened, hi⟩
    rintro rfl
    rw [hd] at hjd
    exact hne (Option.some.inj hjd).symm
  · rw [hkept.free s (List.mem_cons_self ..) i hl] at hstart
    cases hstart

include hs hk ht in
theorem Minds.spared {j : Nat} (h : s.Minds ρ j i) (hjk : j ≠ k) :
    (s.put m' k (P.told c x (next x))).Minds (ρ.set k r) j i := by
  obtain ⟨Q, d, f, hj, hkeeps, hopened, hi⟩ := h
  refine ⟨Q, d, f, (live_told hk m' _).2 (Or.inr ⟨hjk, hj⟩), ?_, ?_, hi⟩
  · rwa [Roles.set_ne ρ r hjk]
  · refine (ht.opened d (hs.wellFormed.opened hopened).1 fun hd => hjk ?_).trans hopened
    exact hs.apart j k Q P d hj hk hkeeps.file hd

include habsent hs hs' hkept hcustody hk hreply hf ht hx

/-- **Whatever is linked after a reply, is minded.** -/
theorem Custody.minded_told (hl : m'.tree.Leads (lockPath dir name) i) :
    ∃ j, (s.put m' k (P.told c x (next x))).Minds (ρ.set k r) j i := by
  have hk' : (s.put m' k (P.told c x (next x))).Live k (P.told c x (next x)) :=
    (live_told hk m' _).2 (Or.inl ⟨rfl, rfl⟩)
  have hself : (ρ.set k r) k = r := Roles.set_self ρ k r
  -- who keeps its file, and was given it or finds it where the path leads, minds that file
  have hkeeps : ∀ d, r.Keeps d →
      (r.Seeks d → ∃ f, m'.opened.get? d = some f ∧ f.inode = i) →
      ∃ j, (s.put m' k (P.told c x (next x))).Minds (ρ.set k r) j i := by
    intro d hd hseeks
    rw [← hself] at hd hseeks
    exact ⟨k, hs'.minds hk' hd hseeks hl⟩
  have hsettled := hkept.settled habsent ht hl
  rcases hreply.leads_or_opened hf hs.wellFormed (hs.holds k P hk) hsettled hl with
    hold | ⟨d, f, rfl, hopened, hi⟩
  · obtain ⟨j, hminds⟩ := hcustody.minded i hold
    by_cases hjk : j = k
    · subst hjk
      obtain ⟨_, d, f, -, hd, hopened, hi⟩ := hminds
      rcases hs.keeps_or_yields hkept hk hreply hf hx hd with hstill | hyields
      · refine hkeeps d hstill fun hseek => ?_
        rcases hreply.seeks hf hs.wellFormed hseek with ⟨-, -, hsame⟩ | ⟨f', hf', hl'⟩
        · exact ⟨f, hsame ▸ hopened, hi⟩
        · exact ⟨f', hf', hl'.unique hl⟩
      · cases hyields with
        | @refused f' d' _ hf' hne hlock =>
          obtain rfl := Option.some.inj (hopened.symm.trans hf')
          obtain ⟨j', hne', hminds⟩ :=
            hcustody.rival hs hkept hd.file hne (hi ▸ hlock) hold
          exact ⟨j', hminds.spared hs hk ht hne'⟩
        | orphaned _ hf' hnot =>
          obtain rfl := Option.some.inj (hopened.symm.trans hf')
          exact absurd (hi ▸ hold) hnot
        | removed hnowhere => exact absurd hl (hnowhere i)
    · exact ⟨j, hminds.spared hs hk ht hjk⟩
  · exact hkeeps d rfl fun _ => ⟨f, hopened, hi⟩

/-- Who has the lock of the linked file after a reply, keeps the file. -/
theorem Custody.locked_told {j : Nat} {Q : Party}
    (hj : (s.put m' k (P.told c x (next x))).Live j Q) (hd : ((ρ.set k r) j).file = some d)
    (hlock : m'.locks.get? i = some d) (hl : m'.tree.Leads (lockPath dir name) i) :
    ((ρ.set k r) j).Keeps d := by
  have hsettled := hkept.settled habsent ht hl
  rcases ht.taken i d hlock with hold | rfl
  · -- the lock is an old one, so the file was linked
    have hnode := hs.wellFormed.lockNode hold
    have hlinked : s.machine.tree.Leads (lockPath dir name) i := by
      rcases ht.tree.linked hsettled i hl with h | ⟨hnone, -⟩
      · exact h
      · rw [hnone] at hnode
        cases hnode
    rcases (live_told hk m' _).1 hj with ⟨rfl, -⟩ | ⟨hjk, hj⟩
    · rw [Roles.set_self] at hd ⊢
      obtain ⟨f, hopened, hi⟩ := hs.wellFormed.locked hold
      have hmine : (ρ j).file = some d := by
        rcases ht.fresh d hd with h | hge
        · exact h
        · exact absurd (hs.wellFormed.opened hopened).1 (Nat.not_lt.2 hge)
      have hkept' := hcustody.locked j P d i hk hmine hold hlinked
      refine (hs.keeps_or_yields hkept hk hreply hf hx hkept').resolve_right fun hyields => ?_
      cases hyields with
      | refused _ hf' hne hlock' =>
        obtain rfl := Option.some.inj (hopened.symm.trans hf')
        rw [hi, hold] at hlock'
        exact hne (Option.some.inj hlock').symm
      | orphaned _ hf' hnot =>
        obtain rfl := Option.some.inj (hopened.symm.trans hf')
        exact hnot (hi ▸ hlinked)
      | removed hnowhere => exact hnowhere i hl
    · rw [Roles.set_ne ρ r hjk] at hd ⊢
      exact hcustody.locked j Q d i hj hd hold hlinked
  · rcases (live_told hk m' _).1 hj with ⟨rfl, -⟩ | ⟨hjk, hj'⟩
    · rw [Roles.set_self]
      exact rfl
    · refine absurd (hs'.apart j k Q _ d hj ((live_told hk m' _).2 (Or.inl ⟨rfl, rfl⟩)) hd ?_) hjk
      rw [Roles.set_self]
      rfl

theorem Custody.reply :
    Custody (lockPath dir name) ((s, .reply k .answered c x) :: past)
      (s.put m' k (P.told c x (next x))) (ρ.set k r) := by
  refine ⟨fun i hl => ?_, fun j Q d i hj hd hlock hl => ?_, fun j hj => ?_⟩
  · exact hcustody.minded_told habsent hs hs' hkept hk hreply hf ht hx hl
  · exact hcustody.locked_told habsent hs hs' hkept hk hreply hf ht hx hj hd hlock hl
  · have hlen : (s.put m' k (P.told c x (next x))).parties.length = s.parties.length := by
      simp [put]
    have hcases : (Move.reply k .answered c x).Dismisses j ∨ Dismissed past j := by
      simpa [Dismissed] using hj
    rw [hlen]
    by_cases hjk : j = k
    · subst hjk
      rw [Roles.set_self]
      refine ⟨(List.getElem?_eq_some_iff.1 hk.1).1, ?_⟩
      rcases hcases with hnow | hbefore
      · exact hnow.role hf
      · exact (hcustody.dismissed j hbefore).2.follows hf
    · rw [Roles.set_ne ρ r hjk]
      exact hcustody.dismissed j (hcases.resolve_left fun hnow => hjk hnow.eq.symm)

end Reply

/-! ## Steps and runs -/

theorem Custody.step (habsent : m.tree.Absent (lockPath dir name)) (hs : Sound dir name s ρ)
    (hs' : Sound dir name s' ρ') (hkept : Kept (lockPath dir name) m past s ρ)
    (h : Custody (lockPath dir name) past s ρ) (hc : Change dir name s ρ move s' ρ')
    (hmove : move.Flawless) : Custody (lockPath dir name) ((s, move) :: past) s' ρ' := by
  cases hc with
  | spawn | reap =>
    exact h.congr ⟨rfl, rfl, rfl⟩ (Nat.le_refl _) (fun _ _ => rfl) (fun k P hk => ⟨P, hk⟩)
      (fun k P d hk _ => ⟨P, hk⟩) fun _ => id
  | death => exact hmove.elim
  | @attempt pid =>
    refine h.congr ⟨rfl, rfl, rfl⟩ (by simp [enter]) (fun k hk => ?_) (fun k P hk => ?_)
      (fun k P d hk hd => ?_) fun _ => id
    · exact Roles.set_ne ρ _ (Nat.ne_of_lt hk)
    · exact ⟨P, (live_enter rfl).2 (Or.inr hk)⟩
    · rcases (live_enter rfl).1 hk with ⟨rfl, -⟩ | hold
      · rw [Roles.set_self, Role.file_start] at hd
        cases hd
      · exact ⟨P, hold⟩
  | @release k P handle hk hh =>
    have halive : ({ P with stage := .releasing handle.release } : Party).alive = true := hk.2
    refine h.congr ⟨rfl, rfl, rfl⟩ (by simp [put]) (fun _ _ => rfl) (fun j Q hj => ?_)
      (fun j Q d hj _ => ?_) fun _ => id
    · by_cases hjk : j = k
      · exact ⟨_, (live_put hk _ halive).2 (Or.inl ⟨hjk, rfl⟩)⟩
      · exact ⟨Q, (live_put hk _ halive).2 (Or.inr ⟨hjk, hj⟩)⟩
    · rcases (live_put hk _ halive).1 hj with ⟨rfl, -⟩ | ⟨-, hj⟩
      · exact ⟨P, hk⟩
      · exact ⟨Q, hj⟩
  | reply hk hasks hreply hf ht =>
    obtain ⟨rfl, hx⟩ := hmove
    exact h.reply habsent hs hs' hkept hk hreply hf ht hx

/-- **Custody is kept up**, from a start without a lock file on. -/
theorem Play.custody (hw : m.WellFormed) (habsent : m.tree.Absent (lockPath dir name))
    (h : Play dir name m past s ρ) (hflawless : ∀ y ∈ past, y.2.Flawless) :
    Custody (lockPath dir name) past s ρ := by
  induction h with
  | start =>
    refine ⟨fun i hl => absurd hl (habsent _ i .start), fun k P d i hk => ?_, fun k hk => ?_⟩
    · cases hk.1
    · obtain ⟨y, hy, -⟩ := hk
      cases hy
  | next hplay hc hs' ih =>
    have hs := hplay.sound hw
    have hkept := hplay.kept (.of_absent hw habsent)
    have hcustody := ih fun y hy => hflawless y (List.mem_cons_of_mem _ hy)
    exact hcustody.step habsent hs hs' hkept hc (hflawless _ (List.mem_cons_self ..))

/-- **The party number `k` answers for the node `i`.**  It lives, and has a file of
    that node.  Its attempt is under way, and was not refused the lock; or it has the
    lock, with a handle that it holds or releases, and has not removed the file. -/
def InCharge (past : Past) (s : Contest) (k : Nat) (i : Inode) : Prop :=
  ∃ P d f, s.Live k P ∧ d ∈ P.files ∧ s.machine.opened.get? d = some f ∧ f.inode = i ∧
    ¬ Dismissed past k ∧
    (P.stage.Attempts ∨ (¬ P.stage.Attempts ∧ P.Busy ∧ s.machine.locks.get? i = some d))

theorem Minds.inCharge {path : Path} (hs : Sound dir name s ρ) (hcustody : Custody path past s ρ)
    (hclosing : ∀ P, s.Live k P → ∀ c next, P.stage = .releasing (.ask c next) → (ρ k).Closing)
    (h : s.Minds ρ k i) : s.InCharge past k i := by
  obtain ⟨P, d, f, hk, hkeeps, hopened, hi⟩ := h
  refine ⟨P, d, f, hk, hs.given k P d hk.1 hkeeps.file, hopened, hi, fun hdismissed => ?_, ?_⟩
  · exact hkeeps.not_dismissed (hcustody.dismissed k hdismissed).2
  by_cases hattempts : P.stage.Attempts
  · exact Or.inl hattempts
  -- whoever is not at its attempt is the owner of the file
  refine Or.inr ⟨hattempts, hs.busy hk.1 hkeeps.file, ?_⟩
  rcases hkeeps.seeks_or_owner with hseeks | ⟨w, hrole⟩
  · obtain ⟨P', hk', hattempts'⟩ := hs.attempts hk (hclosing P hk) hseeks.file hseeks.not_closing
    obtain rfl := Option.some.inj (hk'.1.symm.trans hk.1)
    exact absurd hattempts' hattempts
  · obtain ⟨f', hf', -, hlock, -⟩ := hs.owner hk hrole
    obtain rfl := Option.some.inj (hopened.symm.trans hf')
    exact hi ▸ hlock

/-- **No lock file is left alone.**  In every state of a run that begins without a
    lock file, in which nobody dies and no call fails but for the lock of another:
    to whatever file the path leads, some party answers for it.  And whenever all
    parties have done, the path leads nowhere, and no file to which it has ever led
    is locked: all locks were there at the beginning. -/
theorem no_leak (hw : m.WellFormed) (habsent : m.tree.Absent (lockPath dir name))
    (hrun : Run dir name m past s) (hflawless : ∀ y ∈ past, y.2.Flawless) :
    (∀ i, s.machine.tree.Leads (lockPath dir name) i → ∃ k, s.InCharge past k i) ∧
    ((∀ P ∈ s.parties, ¬ P.Busy) →
      (∀ i, ¬ s.machine.tree.Leads (lockPath dir name) i) ∧
      (∀ u ∈ states past s, ∀ i, u.machine.tree.Leads (lockPath dir name) i →
        s.machine.locks.get? i = none) ∧
      ∀ i d, s.machine.locks.get? i = some d → m.locks.get? i = some d) := by
  have hfit : Fit (lockPath dir name) m := .of_absent hw habsent
  obtain ⟨ρ, hplay⟩ := hrun.play hw
  have hs := hplay.sound hw
  have hkept := hplay.kept hfit
  have hcustody := hplay.custody hw habsent hflawless
  refine ⟨fun i hl => ?_, fun hdone => ?_⟩
  · obtain ⟨k, hminds⟩ := hcustody.minded i hl
    exact ⟨k, hminds.inCharge hs hcustody fun P hk => (hplay.grounds hfit k P hk).closing⟩
  have hlocks : ∀ i d, s.machine.locks.get? i = some d → m.locks.get? i = some d := by
    intro i d hlock
    rcases hkept.locks i d hlock with ⟨k, P, hk, hd⟩ | hstart
    · exact absurd (hs.busy hk.1 hd) (hdone P (List.mem_of_getElem? hk.1))
    · exact hstart
  refine ⟨fun i hl => ?_, fun u hu i hl => ?_, hlocks⟩
  · obtain ⟨k, P, d, f, hk, hd, -⟩ := hcustody.minded i hl
    exact hdone P (List.mem_of_getElem? hk.1) (hs.busy hk.1 hd.file)
  · cases hlock : s.machine.locks.get? i with
    | none => rfl
    | some d =>
      have hstart := hlocks i d hlock
      rw [hkept.free u hu i hl] at hstart
      cases hstart

/-- What a party that goes on alone is answered spoils nothing, if no answer of its
    transcript does. -/
theorem Alone.flawless {α : Type} {stage : Program α → Stage} {p : Program α} {new : Past}
    {P' : Party} (h : Alone dir name m past s k P stage p new s' P')
    (hcalls : ∀ y ∈ s.machine.transcript P.process p, y.1.spoils y.2 = false) :
    ∀ y ∈ new, y.2.Flawless := by
  intro y hy
  obtain ⟨c, x, hmove, hmem⟩ := h.moves y.1 y.2 hy
  rw [hmove]
  exact ⟨rfl, hcalls _ hmem⟩

/-- **An attempt that acquires the mutex, and its release**, with nobody else at
    work. -/
theorem exists_release : ∃ past s past' s' P P' h,
    Run root "a" (.bare 1) past s ∧ (∀ y ∈ past, y.2.Flawless) ∧ s.Live 0 P ∧
    P.stage = .attempting (.done (.ok h)) ∧ h.isAcquired = true ∧
    Run root "a" (.bare 1) past' s' ∧ (∀ y ∈ past', y.2.Flawless) ∧ past' ≠ [] ∧
    (∀ Q ∈ s'.parties, Q = P') ∧ P'.stage = .releasing (.done h.released) := by
  have hstart : Run root "a" (.bare 1) [] ⟨.bare 1, []⟩ := .start
  have hpid : (Machine.bare 1).processes.get? 1 = some .running := rfl
  obtain ⟨new, s, P, halone⟩ := hstart.attempt_alone hpid
  have halone : Alone root "a" (.bare 1) [(⟨.bare 1, []⟩, .attempt 1)]
    (enter ⟨.bare 1, []⟩ (entrant root "a" 1)) 0 (entrant root "a" 1) .attempting
    (Handle.acquire root "a") new s P := halone
  have hflawless : ∀ y ∈ new ++ [((⟨.bare 1, []⟩ : Contest), Move.attempt 1)], y.2.Flawless := by
    intro y hy
    rcases List.mem_append.1 hy with hy | hy
    · exact halone.flawless (by decide +kernel) y hy
    · rw [List.mem_singleton.1 hy]
      trivial
  have hmachine : s.machine = ((Machine.bare 1).run 1 (Handle.acquire root "a")).2 := halone.machine
  let h : Handle := Handle.ofAttempt "a" (lockPath root "a") (some 0)
  have hstage : P.stage = .attempting (.done (.ok h)) := halone.stage
  -- the release
  obtain ⟨new', s', P', halone'⟩ := halone.run.release_alone (h := h) halone.live (by rw [hstage]; rfl)
  have hcalls : ∀ y ∈ s.machine.transcript 1 h.release, y.1.spoils y.2 = false := by
    rw [hmachine]
    decide +kernel
  have hend : (s.machine.run 1 h.release).1 = .returned h.released := by
    rw [hmachine]
    rfl
  rw [← show P.process = 1 from halone.process] at hcalls hend
  refine ⟨_, s, _, s', P, P', h, halone.run, hflawless, halone.live, hstage, rfl, halone'.run,
    fun y hy => ?_, by simp, fun Q hQ => ?_, ?_⟩
  · rcases List.mem_append.1 hy with hy | hy
    · exact halone'.flawless hcalls y hy
    · rcases List.mem_cons.1 hy with rfl | hy
      · trivial
      · exact hflawless y hy
  · obtain ⟨j, hj⟩ := List.getElem?_of_mem hQ
    by_cases hj0 : j = 0
    · subst hj0
      exact Option.some.inj (hj.symm.trans halone'.live.1)
    · rw [halone'.others s' (List.mem_cons_self ..) j hj0, get_put halone.live, if_neg hj0,
        halone.others s (List.mem_cons_self ..) j hj0, get_enter] at hj
      simp [hj0] at hj
  · exact halone'.stage.trans (congrArg (fun c => Stage.releasing (.ofCompletion c)) hend)

/-- An attempt that acquires the mutex answers for the file; once that is released,
    there is no file. -/
theorem no_leak_of_release :
    (∃ past s i k, Run root "a" (.bare 1) past s ∧ s.machine.tree.Leads (lockPath root "a") i ∧
      s.InCharge past k i) ∧
    ∃ past s, Run root "a" (.bare 1) past s ∧ past ≠ [] ∧
      (∀ i, ¬ s.machine.tree.Leads (lockPath root "a") i) ∧
      ∀ u ∈ states past s, ∀ i, u.machine.tree.Leads (lockPath root "a") i →
        s.machine.locks.get? i = none := by
  have hw := Machine.bare_wellFormed 1
  have habsent := absent_bare 1
  obtain ⟨past, s, past', s', P, P', h, hrun, hflawless, hlive, hstage, hacq, hrun', hflawless',
    hpast, hparties, hstage'⟩ := exists_release
  constructor
  · obtain ⟨ρ, hplay⟩ := hrun.play hw
    have hs := hplay.sound hw
    obtain ⟨d, -, hrole⟩ := hs.acquired hlive hstage hacq
    obtain ⟨f, -, -, -, hleads⟩ := hs.owner hlive hrole
    obtain ⟨k, hcharge⟩ := (no_leak hw habsent hrun hflawless).1 _ hleads
    exact ⟨past, s, f.inode, k, hrun, hleads, hcharge⟩
  · have hdone : ∀ Q ∈ s'.parties, ¬ Q.Busy := by
      intro Q hQ
      rw [hparties Q hQ]
      rintro (⟨c, next, hasks⟩ | ⟨h', hh', hacq'⟩)
      · rw [hstage'] at hasks
        cases hasks
      · rw [hstage'] at hh'
        cases hh'
        simp [Handle.released_eq, Handle.isAcquired] at hacq'
    obtain ⟨hnone, hlocks, -⟩ := (no_leak hw habsent hrun' hflawless').2 hdone
    exact ⟨past', s', hrun', hpast, hnone, hlocks⟩

end Contest

end NamedMutex
