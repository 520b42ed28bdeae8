/-
  Why an attempt does not acquire the mutex.

  An attempt that gives up without a failure had a rival: another party, alive and
  busy, that had the lock of a node to which the path led at some moment of the
  attempt.  So nothing that dead processes leave behind can refuse the mutex.

  * `Grounds` says what the role of a party is evidence of, and `Play.grounds`
    that it always is;
  * `Sound.rivalry` finds the rival behind a lock;
  * `Run.acquires_alone`: an attempt with nobody else at work acquires the mutex;
  * `refusal_and_recovery` is the main statement.
-/
import NamedMutex.Proofs.Answers
import NamedMutex.Proofs.Exclusion

namespace NamedMutex

/-- The roles in which a handle is released. -/
def Role.Closing (r : Role) : Prop := r.Unlinks ∨ r.Gone

/-- The roles that have given up, for some reason. -/
def Role.Excused (r : Role) : Prop := ∃ e, (∃ d, r = .leaving d (some e)) ∨ r = .out (some e)

theorem Role.Seeks.not_closing {d : Descriptor} {r : Role} (h : r.Seeks d) : ¬ r.Closing := by
  rcases h with rfl | rfl
  · rintro (⟨_, h⟩ | ⟨_, h⟩ | h) <;> cases h
  · rintro (⟨_, h⟩ | ⟨_, h⟩ | h) <;> cases h

theorem Role.Closing.told {path : Path} {me : Pid} {r r' : Role} {m m' : Machine} {manner : Manner}
    {c : Call} {x : c.Answer} (h : r.Closing) (hreply : Replies m me manner c x m')
    (hf : Follows path me r c x r') : r'.Closing := by
  rcases h with hu | hg
  · rcases hreply.unlinks hf hu with ⟨rfl, -⟩ | hg
    · exact Or.inl hu
    · exact Or.inr hg
  · exact Or.inr (hg.follows hf)

namespace Contest

/-- An attempt is under way: the party number `k` lives, and has a call of its
    attempt to make. -/
def Attempts (s : Contest) (k : Nat) : Prop := ∃ P, s.Live k P ∧ P.stage.Attempts

/-- A call of the party number `k` has failed, contention for the lock apart. -/
def Troubled (past : Past) (k : Nat) : Prop :=
  ∃ u manner c x, (u, Move.reply k manner c x) ∈ past ∧
    (manner ≠ .answered ∨ c.troubles x = true)

/-- **The attempt of the party number `k` had a rival**: while it was under way,
    another party that was alive, and busy with its attempt, its handle or its
    release, had the lock of a node to which the path led while the attempt was
    under way. -/
def Rivalry (path : Path) (past : Past) (s : Contest) (k : Nat) : Prop :=
  ∃ u ∈ states past s, ∃ v ∈ states past s, u.Attempts k ∧ v.Attempts k ∧
    ∃ j Q d i, j ≠ k ∧ u.Live j Q ∧ Q.Busy ∧ d ∈ Q.files ∧
      u.machine.locks.get? i = some d ∧ v.machine.tree.Leads path i

/-- What the party number `k` is evidence of, in the role `r`. -/
structure Grounds (path : Path) (past : Past) (s : Contest) (k : Nat) (P : Party) (r : Role) :
    Prop where
  /-- The path led to the file of a party; who took it from there is a rival. -/
  seeks : ∀ d, r.Seeks d → ∃ v ∈ states past s, v.Attempts k ∧
    ∃ f, s.machine.opened.get? d = some f ∧ v.machine.tree.Leads path f.inode ∧
      (s.machine.tree.Leads path f.inode ∨ Rivalry path past s k)
  excused : r.Excused → Troubled past k ∨ Rivalry path past s k
  closing : ∀ c next, P.stage = .releasing (.ask c next) → r.Closing
  unopened : r = .outside ∨ r = .ready → P.files = []
  /-- Nobody opens the path again without a reason. -/
  once : P.files.length ≤ 1 ∨ Troubled past k ∨ Rivalry path past s k

variable {dir : Path} {name : String} {path : Path} {m : Machine} {past : Past} {s s' : Contest}
  {ρ ρ' : Roles} {move : Move} {k : Nat} {P : Party}

theorem Troubled.next (h : Troubled past k) : Troubled ((s, move) :: past) k := by
  obtain ⟨u, manner, c, x, hmem, hbad⟩ := h
  exact ⟨u, manner, c, x, List.mem_cons_of_mem _ hmem, hbad⟩

theorem Rivalry.next (h : Rivalry path past s k) : Rivalry path ((s, move) :: past) s' k := by
  obtain ⟨u, hu, v, hv, h⟩ := h
  exact ⟨u, mem_states.2 (Or.inr hu), v, mem_states.2 (Or.inr hv), h⟩

/-! ## Parties that have a file -/

theorem Sound.attempts (hs : Sound dir name s ρ) (hk : s.Live k P)
    (hclosing : ∀ c next, P.stage = .releasing (.ask c next) → (ρ k).Closing) {d : Descriptor}
    (hd : (ρ k).file = some d) (hnot : ¬ (ρ k).Closing) : s.Attempts k := by
  have hobeys := hs.obeys k P hk.1
  refine ⟨P, hk, ?_⟩
  rcases hs.busy hk.1 hd with ⟨c, next, hasks⟩ | ⟨h, hhandle, hacq⟩
  · cases hstage : P.stage with
    | attempting p =>
      rw [hstage] at hasks
      cases hasks
      trivial
    | releasing p =>
      rw [hstage] at hasks
      cases hasks
      exact absurd (hclosing _ _ hstage) hnot
  · obtain ⟨d', hheld⟩ := Option.isSome_iff_exists.1 hacq
    exact absurd (Or.inl ⟨d', (hobeys.handle hhandle).2.1 d' hheld⟩) hnot

/-- **Behind a lock stands a rival.**  If some other file has the lock of a node to
    which the path led during the attempt, it is the file of a busy party. -/
theorem Sound.rivalry (hs : Sound dir name s ρ) (hkept : Kept path m past s ρ)
    (hk : s.Attempts k) {v : Contest} (hv : v ∈ states past s) (hvk : v.Attempts k) {i : Inode}
    (hleads : v.machine.tree.Leads path i) {d : Descriptor}
    (hlock : s.machine.locks.get? i = some d) (hd : (ρ k).file ≠ some d) :
    Rivalry path past s k := by
  rcases hkept.locks i d hlock with ⟨j, Q, hj, hjd⟩ | hstart
  · refine ⟨s, List.mem_cons_self .., v, hv, hk, hvk, j, Q, d, i, ?_, hj, hs.busy hj.1 hjd,
      hs.given j Q d hj.1 hjd, hlock, hleads⟩
    rintro rfl
    exact hd hjd
  · rw [hkept.free v hv i hleads] at hstart
    cases hstart

end Contest

namespace Contest

variable {dir : Path} {name : String} {path : Path} {m : Machine} {past : Past} {s s' : Contest}
  {ρ ρ' : Roles} {move : Move} {k : Nat} {P : Party} {r : Role}

/-- **A party that gives up has an excuse**: a failure, or a rival. -/
theorem Sound.excuse (hs : Sound dir name s ρ) (hkept : Kept (lockPath dir name) m past s ρ)
    (hk : s.Live k P) (hg : Grounds (lockPath dir name) past s k P (ρ k)) {manner : Manner}
    {c : Call} {x : c.Answer} {m' : Machine} {r : Role}
    (hreply : Replies s.machine P.process manner c x m')
    (hf : Follows (lockPath dir name) P.process (ρ k) c x r) (hr : r.Excused) :
    Troubled ((s, .reply k manner c x) :: past) k ∨ Rivalry (lockPath dir name) past s k := by
  -- what the party has already given up for
  have hold : (ρ k).Excused → Troubled ((s, .reply k manner c x) :: past) k ∨
      Rivalry (lockPath dir name) past s k := fun h => (hg.excused h).imp_left Troubled.next
  have htrouble : c.troubles x = true → Troubled ((s, .reply k manner c x) :: past) k :=
    fun h => ⟨s, manner, c, x, List.mem_cons_self .., Or.inr h⟩
  have hmanner : manner ≠ .answered → Troubled ((s, .reply k manner c x) :: past) k :=
    fun h => ⟨s, manner, c, x, List.mem_cons_self .., Or.inl h⟩
  have hclosing := hg.closing
  have hhold := hs.holds k P hk
  generalize hrole : ρ k = q at hf hold hhold hg
  cases hf with
  | say | ownPid | probe | readPath => exact hold hr
  | unmade | unopened | unread => exact Or.inl (htrouble rfl)
  | unstamped hstamp =>
    cases hstamp with
    | truncate | rewind | number | newline => exact Or.inl (htrouble rfl)
  | unlock => exact hold hr
  | @close d e =>
    obtain ⟨e', ⟨d', h⟩ | h⟩ := hr <;> cases h
    exact hold ⟨e', Or.inl ⟨d, rfl⟩⟩
  | @unlocked d e =>
    by_cases hm : manner = .answered
    · subst hm
      by_cases he : e.IsContention
      · obtain ⟨f, hopened, -⟩ := hhold.file d rfl
        obtain ⟨d', hne, hlock⟩ := hreply.refused hopened
        obtain ⟨v, hv, hvk, f', hf', hl, -⟩ := hg.seeks d (Or.inl rfl)
        obtain rfl := Option.some.inj (hopened.symm.trans hf')
        have hfile : (ρ k).file = some d := by rw [hrole]; rfl
        have hatt : s.Attempts k := hs.attempts hk hclosing hfile
          (by rw [hrole]; exact Role.Seeks.not_closing (Or.inl rfl))
        refine Or.inr (hs.rivalry hkept hatt hv hvk hl hlock ?_)
        rw [hfile]
        exact fun h => hne (Option.some.inj h).symm
      · refine Or.inl (htrouble ?_)
        simpa [Call.troubles] using he
    · exact Or.inl (hmanner hm)
  | @orphaned d =>
    by_cases hm : manner = .answered
    · subst hm
      obtain ⟨v, -, -, f, hopened, -, hl | hrival⟩ := hg.seeks d (Or.inr rfl)
      · exact absurd hl (hreply.orphaned hopened)
      · exact Or.inr hrival
    · exact Or.inl (hmanner hm)
  | @illegible d bytes hbytes =>
    by_cases hm : manner = .answered
    · subst hm
      have htext := hs.legible hkept hk hrole hreply
      rw [hbytes] at htext
      cases htext
    · exact Or.inl (hmanner hm)
  | made | opened | locked | linked | seen | stamped | unlink =>
    obtain ⟨e, ⟨d, h⟩ | h⟩ := hr <;> cases h

/-! ## Grounds -/

/-- A step that leaves a party and its file alone, and the path where it leads. -/
theorem Grounds.next (h : Grounds path past s k P r)
    (hopened : ∀ d, r.file = some d → s'.machine.opened.get? d = s.machine.opened.get? d)
    (hleads : ∀ d i, r.Seeks d → s.machine.tree.Leads path i →
      s'.machine.tree.Leads path i ∨ Rivalry path past s k) :
    Grounds path ((s, move) :: past) s' k P r where
  seeks d hd := by
    obtain ⟨v, hv, hvk, f, hf, hl, hnow⟩ := h.seeks d hd
    refine ⟨v, mem_states.2 (Or.inr hv), hvk, f, (hopened d hd.file).trans hf, hl, ?_⟩
    rcases hnow with hnow | hrival
    · exact (hleads d _ hd hnow).imp_right Rivalry.next
    · exact Or.inr hrival.next
  excused hr := (h.excused hr).imp Troubled.next Rivalry.next
  closing := h.closing
  unopened := h.unopened
  once := h.once.imp_right fun h => h.imp Troubled.next Rivalry.next

/-- Who takes the path from a file has the lock of it, and is a rival. -/
theorem Sound.leads_or_rivalry (hs : Sound dir name s ρ)
    (hkept : Kept (lockPath dir name) m past s ρ) (hk : s.Live k P)
    (hg : Grounds (lockPath dir name) past s k P (ρ k)) {j : Nat} {Q : Party} (hj : s.Live j Q)
    (hjk : j ≠ k) {written : Bytes → Prop} {m' : Machine}
    (ht : Turn (lockPath dir name) Q.process written (ρ j) s.machine r m') {d : Descriptor}
    (hd : (ρ k).Seeks d) {i : Inode} (hl : s.machine.tree.Leads (lockPath dir name) i) :
    m'.tree.Leads (lockPath dir name) i ∨ Rivalry (lockPath dir name) past s k := by
  refine (ht.tree.unlinked i hl).imp_right fun hu => ?_
  obtain ⟨d', i', hd', hlock, hl'⟩ := (hs.holds j Q hj).unlinks hu
  obtain rfl := hl.unique hl'
  have hatt := hs.attempts hk hg.closing hd.file hd.not_closing
  refine hs.rivalry hkept hatt (List.mem_cons_self ..) hatt hl hlock fun hdk => hjk ?_
  exact hs.apart j k Q P d' hj hk hd' hdk

/-- Only answers to the path being opened give files; no attempt opens it again
    without a reason. -/
theorem Grounds.files_told (hg : Grounds path past s k P r) {me : Pid} {r' : Role} {c : Call}
    {x : c.Answer} {stage : Stage} (hf : Follows path me r c x r') :
    (r' = .outside ∨ r' = .ready → (P.told c x stage).files = []) ∧
      ((P.told c x stage).files.length ≤ 1 ∨ Troubled past k ∨ Rivalry path past s k) := by
  constructor
  · intro hr
    simp only [Party.told, List.append_eq_nil_iff]
    cases hf with
    | say | ownPid | probe | readPath => exact ⟨rfl, hg.unopened hr⟩
    | made => exact ⟨rfl, hg.unopened (Or.inl rfl)⟩
    | unmade | opened | unopened | locked | unlocked | linked | orphaned | seen | illegible | unread
    | stamped | unstamped | unlink | unlock | close => rcases hr with h | h <;> cases h
  · have hsame : c.opened x = [] → (P.told c x stage).files.length = P.files.length := by
      intro h
      simp only [Party.told, h, List.nil_append]
    cases hopen : c.opened x with
    | nil =>
      rw [hsame hopen]
      exact hg.once
    | cons d rest =>
      unfold Call.opened at hopen
      split at hopen <;> cases hopen
      rcases hf.of_openFile with hready | hagain
      · refine Or.inl ?_
        simp [Party.told, Call.opened, hg.unopened (Or.inr hready)]
      · exact Or.inr (hg.excused ⟨_, Or.inr hagain⟩)

/-- A party that is told an answer has grounds for its new role. -/
theorem Sound.grounds_told (hs : Sound dir name s ρ)
    (hkept : Kept (lockPath dir name) m past s ρ) (hk : s.Live k P)
    (hg : Grounds (lockPath dir name) past s k P (ρ k)) {manner : Manner} {c : Call}
    {x : c.Answer} {next : c.Answer → Stage} {m' : Machine} (hasks : P.stage.Asks c next)
    (hreply : Replies s.machine P.process manner c x m')
    (hf : Follows (lockPath dir name) P.process (ρ k) c x r)
    (hs' : Sound dir name (s.put m' k (P.told c x (next x))) (ρ.set k r)) :
    Grounds (lockPath dir name) ((s, .reply k manner c x) :: past)
      (s.put m' k (P.told c x (next x))) k (P.told c x (next x)) r := by
  have halive : (P.told c x (next x)).alive = true := hk.2
  have hlive : (s.put m' k (P.told c x (next x))).Live k (P.told c x (next x)) :=
    (live_put hk m' halive).2 (Or.inl ⟨rfl, rfl⟩)
  have hclosing : ∀ c' next', (P.told c x (next x)).stage = .releasing (.ask c' next') →
      r.Closing := by
    intro c' next' hstage
    simp only [Party.told] at hstage
    cases hP : P.stage with
    | attempting p =>
      rw [hP] at hasks
      cases hasks
      cases hstage
    | releasing p =>
      rw [hP] at hasks
      cases hasks
      exact (hg.closing _ _ hP).told hreply hf
  obtain ⟨hnone, honce⟩ : (r = .outside ∨ r = .ready → (P.told c x (next x)).files = []) ∧
      ((P.told c x (next x)).files.length ≤ 1 ∨ Troubled past k ∨
        Rivalry (lockPath dir name) past s k) := hg.files_told hf
  refine ⟨fun d hd => ?_, fun hr => ?_, hclosing, hnone, ?_⟩
  · rcases hreply.seeks hf hs.wellFormed hd with ⟨hold, htree, hopened⟩ | ⟨f, hopened, hl⟩
    · obtain ⟨v, hv, hvk, f, hf', hl, hnow⟩ := hg.seeks d hold
      refine ⟨v, mem_states.2 (Or.inr hv), hvk, f, ?_, hl, ?_⟩
      · simpa only [put, hopened] using hf'
      · exact hnow.imp (fun h => by simpa only [put, htree] using h) Rivalry.next
    · -- the file was given just now
      refine ⟨_, List.mem_cons_self .., ?_, f, hopened, hl, Or.inl hl⟩
      have hself : (ρ.set k r) k = r := Roles.set_self ρ k r
      refine hs'.attempts hlive ?_ (d := d) ?_ ?_ <;> rw [hself]
      · exact hclosing
      · exact hd.file
      · exact hd.not_closing
  · exact (hs.excuse hkept hk hg hreply hf hr).imp_right Rivalry.next
  · exact honce.imp_right fun h => h.imp Troubled.next Rivalry.next

theorem grounds_entrant {pid : Pid} :
    Grounds path past s k (entrant dir name pid) (.start path) := by
  have hstart := Role.start_cases path
  refine ⟨fun d hd => ?_, fun hr => ?_, fun c next h => ?_, fun _ => rfl, Or.inl (Nat.zero_le _)⟩
  · rcases hstart with h | h <;> rw [h] at hd <;> rcases hd with hd | hd <;> cases hd
  · rcases hstart with h | h <;> rw [h] at hr <;> obtain ⟨_, ⟨_, hr⟩ | hr⟩ := hr <;> cases hr
  · cases h

theorem Grounds.release (h : Grounds path past s k P r) {handle : Handle}
    (hheld : ∀ d, handle.held = some d → r = .owner d .stamped) :
    Grounds path past s k { P with stage := .releasing handle.release } r where
  seeks := h.seeks
  excused := h.excused
  closing c next hstage := by
    cases hd : handle.held with
    | none =>
      simp only [Handle.release, hd] at hstage
      cases hstage
    | some d => exact Or.inl ⟨d, hheld d hd⟩
  unopened := h.unopened
  once := h.once

theorem Sound.grounds_step (hs : Sound dir name s ρ)
    (hkept : Kept (lockPath dir name) m past s ρ)
    (hg : ∀ k P, s.Live k P → Grounds (lockPath dir name) past s k P (ρ k))
    (hc : Change dir name s ρ move s' ρ') (hs' : Sound dir name s' ρ') :
    ∀ k P, s'.Live k P → Grounds (lockPath dir name) ((s, move) :: past) s' k P (ρ' k) := by
  have hw := hs.wellFormed
  intro k P hk
  cases hc with
  | spawn | reap => exact (hg k P hk).next (fun _ _ => rfl) fun _ _ _ hl => Or.inl hl
  | @death pid =>
    obtain ⟨hk, hpid⟩ := live_bury.1 hk
    refine (hg k P hk).next (fun d hd => ?_) fun d i _ hl => Or.inl ?_
    · obtain ⟨f, hf, hme, -⟩ := (hs.holds k P hk).file d hd
      exact ((Machine.opened_kill hw).2 ⟨hf, hme ▸ hpid⟩).trans hf.symm
    · exact (Machine.tree_kill hw pid).symm ▸ hl
  | @attempt pid =>
    rcases (live_enter rfl).1 hk with ⟨rfl, rfl⟩ | hold
    · rw [Roles.set_self]
      exact grounds_entrant
    · rw [Roles.set_ne ρ _ hold.ne_length]
      exact (hg k P hold).next (fun _ _ => rfl) fun _ _ _ hl => Or.inl hl
  | @release j Q handle hj hh =>
    have halive : ({ Q with stage := .releasing handle.release } : Party).alive = true := hj.2
    rcases (live_put hj _ halive).1 hk with ⟨rfl, rfl⟩ | ⟨hne, hk⟩
    · obtain ⟨-, hheld, -⟩ := (hs.obeys k Q hj.1).handle hh
      exact ((hg k Q hj).release hheld).next (fun _ _ => rfl) fun _ _ _ hl => Or.inl hl
    · exact (hg k P hk).next (fun _ _ => rfl) fun _ _ _ hl => Or.inl hl
  | @reply j Q manner c x next m' r hj hasks hreply hf ht =>
    have halive : (Q.told c x (next x)).alive = true := hj.2
    rcases (live_put hj _ halive).1 hk with ⟨rfl, rfl⟩ | ⟨hne, hk⟩
    · rw [Roles.set_self]
      exact hs.grounds_told hkept hj (hg k Q hj) hasks hreply hf hs'
    · rw [Roles.set_ne ρ r hne]
      refine (hg k P hk).next (fun d hd => ?_) fun d i hd hl => ?_
      · refine ht.opened d ((hs.holds k P hk).lt_nextDescriptor hw hd) fun hjd => hne ?_
        exact hs.apart k j P Q d hk hj hd hjd
      · exact hs.leads_or_rivalry hkept hk (hg k P hk) hj (Ne.symm hne) ht hd hl

/-- **In every state every living party has grounds for its role.** -/
theorem Play.grounds (hfit : Fit (lockPath dir name) m) (h : Play dir name m past s ρ) :
    ∀ k P, s.Live k P → Grounds (lockPath dir name) past s k P (ρ k) := by
  induction h with
  | start => exact fun k P hk => by cases hk.1
  | next hplay hc hs' ih =>
    exact (hplay.sound hfit.wellFormed).grounds_step (hplay.kept hfit) ih hc hs'

/-! ## Refusal and recovery -/

/-- **Whoever does not acquire the mutex had trouble, or a rival.** -/
theorem Sound.rivalry_of_not_acquired (hs : Sound dir name s ρ)
    (hg : ∀ k P, s.Live k P → Grounds (lockPath dir name) past s k P (ρ k)) (hk : s.Live k P)
    {result : Except IoError Handle} (hstage : P.stage = .attempting (.done result))
    (hnot : ∀ h, result = .ok h → h.isAcquired = false) (hcalm : ¬ Troubled past k) :
    Rivalry (lockPath dir name) past s k := by
  have hexcused : (ρ k).Excused := by
    have hobeys := hs.obeys k P hk.1
    rw [hstage] at hobeys
    cases result with
    | error => exact ⟨_, Or.inr hobeys⟩
    | ok h =>
      obtain ⟨-, -, hends⟩ := hobeys
      cases hheld : h.held with
      | none =>
        rw [hheld] at hends
        exact hends.imp fun e he => Or.inr he
      | some d =>
        have hacq := hnot h rfl
        simp [Handle.isAcquired, hheld] at hacq
  exact ((hg k P hk).excused hexcused).resolve_left hcalm

theorem Alone.no_rivalry (hrun : Run dir name m past s) {pid : Pid}
    (hquiet : ∀ j Q, s.Live j Q → ¬ Q.Busy) {new : Past} {P' : Party}
    {p : Program (Except IoError Handle)}
    (halone : Alone dir name m ((s, .attempt pid) :: past) (s.enter (entrant dir name pid))
      s.parties.length (entrant dir name pid) .attempting p new s' P') :
    ¬ Rivalry (lockPath dir name) (new ++ (s, .attempt pid) :: past) s' s.parties.length := by
  rintro ⟨u, hu, v, -, ⟨P, hk, -⟩, -, j, Q, d, i, hjk, hj, hbusy, -⟩
  have hlt : s.parties.length < u.parties.length := (List.getElem?_eq_some_iff.1 hk.1).1
  -- the attempt is under way from its beginning on only
  have hnew : u ∈ states new s' := by
    simp only [states, List.map_append, List.map_cons, List.mem_cons, List.mem_append] at hu ⊢
    rcases hu with hu | hu | hu | hu
    · exact Or.inl hu
    · exact Or.inr hu
    · rw [hu] at hlt
      exact absurd hlt (Nat.lt_irrefl _)
    · exact absurd hlt (Nat.not_lt.2 (hrun.parties_le u (List.mem_cons_of_mem _ hu)))
  refine hquiet j Q ⟨?_, hj.2⟩ hbusy
  have hsame := halone.others u hnew j hjk
  rw [get_enter, if_neg hjk] at hsame
  exact hsame.symm.trans hj.1

theorem Alone.no_trouble (hrun : Run dir name m past s) {pid : Pid} {new : Past} {P' : Party}
    {p : Program (Except IoError Handle)}
    (halone : Alone dir name m ((s, .attempt pid) :: past) (s.enter (entrant dir name pid))
      s.parties.length (entrant dir name pid) .attempting p new s' P')
    (hcalm : ∀ y ∈ s.machine.transcript pid p, y.1.troubles y.2 = false) :
    ¬ Troubled (new ++ (s, .attempt pid) :: past) s.parties.length := by
  rintro ⟨u, manner, c, x, hmem, hbad⟩
  rcases List.mem_append.1 hmem with hmem | hmem
  · obtain ⟨c', x', hmove, hcall⟩ := halone.moves u _ hmem
    cases hmove
    have hgood := hcalm _ hcall
    rcases hbad with hbad | hbad
    · exact hbad rfl
    · rw [hgood] at hbad
      cases hbad
  · rcases List.mem_cons.1 hmem with heq | hmem
    · cases heq
    · obtain ⟨hu, P, hk⟩ := hrun.reply_live hmem
      have hlt : s.parties.length < u.parties.length := (List.getElem?_eq_some_iff.1 hk.1).1
      exact absurd hlt (Nat.not_lt.2 (hrun.parties_le u hu))

/-- **Recovery from crashes.**  If no living party is busy, an attempt that has the
    machine for itself, and is told of no failure, acquires the mutex with the
    first file that it is given. -/
theorem Run.acquires_alone (hfit : Fit (lockPath dir name) m) (hrun : Run dir name m past s)
    {pid : Pid} (hname : IsValidName name) (hpid : s.machine.processes.get? pid = some .running)
    (hquiet : ∀ j Q, s.Live j Q → ¬ Q.Busy)
    (hcalm : ∀ y ∈ s.machine.transcript pid (Handle.acquire dir name), y.1.troubles y.2 = false) :
    ∃ h d, (s.machine.run pid (Handle.acquire dir name)).1 = .returned (.ok h) ∧
      h.held = some d ∧
      Machine.filesOf (s.machine.transcript pid (Handle.acquire dir name)) = [d] := by
  -- the attempt alone is a part of a run, in which it has neither trouble nor a rival
  obtain ⟨new, s', P', halone⟩ := hrun.attempt_alone hpid
  have htrouble := halone.no_trouble hrun hcalm
  have hrival := halone.no_rivalry hrun hquiet
  obtain ⟨ρ, hplay⟩ := halone.run.play hfit.wellFormed
  have hs := hplay.sound hfit.wellFormed
  have hobeys := hs.obeys _ P' halone.live.1
  have hstage := halone.stage
  have hfiles := halone.files
  generalize hend : (s.machine.run pid (Handle.acquire dir name)).1 = outcome
  simp only [entrant, enter, hend, List.append_nil] at hstage hfiles
  cases outcome with
  | halted =>
    rw [hstage] at hobeys
    exact absurd hname hobeys.1
  | returned result =>
    have hacquired : ∃ h, result = .ok h ∧ h.isAcquired = true := by
      refine Classical.byContradiction fun hnone => hrival ?_
      refine hs.rivalry_of_not_acquired (hplay.grounds hfit) halone.live hstage (fun h hh => ?_)
        htrouble
      exact Bool.eq_false_iff.2 fun hacq => hnone ⟨h, hh, hacq⟩
    obtain ⟨h, rfl, hacq⟩ := hacquired
    obtain ⟨d, hd, hrole⟩ := hs.acquired halone.live hstage hacq
    refine ⟨h, d, rfl, hd, ?_⟩
    have hmem := hs.given _ P' d halone.live.1 (by rw [hrole]; rfl)
    rcases (hplay.grounds hfit _ P' halone.live).once with honce | hbad | hbad
    · rw [hfiles] at hmem honce
      rw [List.mem_reverse] at hmem
      rw [List.length_reverse] at honce
      obtain ⟨d', hlist⟩ := List.length_eq_one_iff.1
        (Nat.le_antisymm honce (List.length_pos_of_mem hmem))
      rw [hlist, List.mem_singleton] at hmem
      rw [hlist, hmem]
    · exact absurd hbad htrouble
    · exact absurd hbad hrival

/-- **No spurious failure, and recovery from crashes.**  In every state of a run
    with a fit start, whatever failed before and whoever died: an attempt without
    trouble that does not acquire the mutex had a rival.  And if no living party
    is busy, an attempt alone acquires the mutex with the first file that it is
    given, unless a call fails. -/
theorem refusal_and_recovery (hfit : Fit (lockPath dir name) m) (hrun : Run dir name m past s) :
    (∀ k P h, s.Live k P → P.stage = .attempting (.done (.ok h)) → h.isAcquired = false →
      ¬ Troubled past k → Rivalry (lockPath dir name) past s k) ∧
    ∀ pid, IsValidName name → s.machine.processes.get? pid = some .running →
      (∀ j Q, s.Live j Q → ¬ Q.Busy) →
      (∀ y ∈ s.machine.transcript pid (Handle.acquire dir name), y.1.troubles y.2 = false) →
      ∃ h d, (s.machine.run pid (Handle.acquire dir name)).1 = .returned (.ok h) ∧
        h.held = some d ∧
        Machine.filesOf (s.machine.transcript pid (Handle.acquire dir name)) = [d] := by
  refine ⟨fun k P h hk hstage hnot hcalm => ?_, fun pid hname hpid hquiet hcalm =>
    hrun.acquires_alone hfit hname hpid hquiet hcalm⟩
  obtain ⟨ρ, hplay⟩ := hrun.play hfit.wellFormed
  refine (hplay.sound hfit.wellFormed).rivalry_of_not_acquired (hplay.grounds hfit) hk hstage
    (fun h' hh => ?_) hcalm
  cases hh
  exact hnot

/-- The second of two attempts has the first as its rival; and after a crash the
    next attempt acquires the mutex. -/
theorem refusal_and_recovery_on_bare :
    (∃ past s, Run root "a" (.bare 1) past s ∧ Rivalry (lockPath root "a") past s 1) ∧
    ∃ past s h d, Run root "a" (.bare 1) past s ∧
      (s.machine.run 2 (Handle.acquire root "a")).1 = .returned (.ok h) ∧ h.held = some d := by
  have hfit : Fit (lockPath root "a") (.bare 1) :=
    .of_absent (Machine.bare_wellFormed 1) (absent_bare 1)
  constructor
  · obtain ⟨past, s, P, Q, h, h', hrun, hparties, -, ⟨halive, hstage, hnot⟩, hcalm⟩ :=
      exists_two_attempts
    refine ⟨past, s, hrun, (refusal_and_recovery hfit hrun).1 1 Q h' ⟨hparties 1, halive⟩ hstage
      hnot ?_⟩
    rintro ⟨u, manner, c, x, hmem, hbad⟩
    have hmove := hcalm u _ hmem
    cases manner with
    | answered =>
      have hgood : c.troubles x = false := hmove
      rcases hbad with hbad | hbad
      · exact hbad rfl
      · rw [hgood] at hbad
        cases hbad
    | failed | torn => cases hmove
  · obtain ⟨past, s, hrun, hpid, hdead, hcalm⟩ := exists_crash
    obtain ⟨h, d, hend, hd, -⟩ := (refusal_and_recovery hfit hrun).2 2 (by decide) hpid
      (fun j Q hj => absurd hj (hdead j Q)) hcalm
    exact ⟨past, s, h, d, hrun, hend, hd⟩

end Contest

end NamedMutex
