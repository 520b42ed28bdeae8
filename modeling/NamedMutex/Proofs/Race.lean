/-
  Races: attempts of which none fails, while nobody gives the mutex up.

  In a race nobody removes the lock file, so the path leads to every file that
  an attempt has opened, and who is refused the lock was refused it by somebody
  who goes on to acquire the mutex.

  * `Role.Passes` lists the turns of a race, and `Sound.passes` shows that there
    are no others;
  * `Racing` is what holds of each party, and `Raced` of all;
  * `exactly_one_winner` is the main statement.
-/
import NamedMutex.Proofs.Answers
import NamedMutex.Proofs.Exclusion

namespace NamedMutex

namespace Role

/-- The roles of those who have the lock. -/
def Ahead (r : Role) : Prop := (∃ d, r = .locked d) ∨ ∃ d w, r = .owner d w

/-- The roles of those who were refused the lock. -/
def Beaten (r : Role) : Prop := (∃ d, r = .leaving d (some .refused)) ∨ r = .out (some .refused)

/-- The turns of a race. -/
inductive Passes : Role → Role → Prop
  | same {r} : Passes r r
  | made : Passes .outside .ready
  | opened {d} : Passes .ready (.opened d)
  | locked {d} : Passes (.opened d) (.locked d)
  | refused {d} : Passes (.opened d) (.leaving d (some .refused))
  | linked {d} : Passes (.locked d) (.owner d .linked)
  | stamped {d w w'} : Passes (.owner d w) (.owner d w')
  | closed {d e} : Passes (.leaving d e) (.out e)

variable {r r' : Role}

theorem Ahead.file (h : r.Ahead) : ∃ d, r.file = some d := by
  rcases h with ⟨d, rfl⟩ | ⟨d, _, rfl⟩ <;> exact ⟨d, rfl⟩

theorem not_beaten_start {path : Path} : ¬ (start path).Beaten := by
  rcases start_cases path with h | h <;> rw [h] <;> rintro (⟨_, h⟩ | h) <;> cases h

theorem Beaten.not_ahead (h : r.Beaten) : ¬ r.Ahead := by
  rcases h with ⟨_, rfl⟩ | rfl <;> rintro (⟨_, h⟩ | ⟨_, _, h⟩) <;> cases h

theorem Passes.ahead (h : r.Passes r') (ha : r.Ahead) : r'.Ahead := by
  cases h with
  | same => exact ha
  | linked | stamped => exact Or.inr ⟨_, _, rfl⟩
  | made | opened | locked | refused | closed =>
    rcases ha with ⟨_, ha⟩ | ⟨_, _, ha⟩ <;> cases ha

end Role

/-- **An attempt does not give back the mutex.** -/
theorem Program.Obeys.not_gone {dir : Path} {name : String} {me : Pid} {r : Role}
    {p : Program (Except IoError Handle)}
    (h : p.Obeys (lockPath dir name) me (Handle.Acquires dir name) r) : ¬ r.Gone := by
  induction p generalizing r with
  | done result =>
    intro hr
    cases result with
    | error =>
      rw [show r = .out (some .failure) from h] at hr
      rcases hr with ⟨_, hr⟩ | hr <;> cases hr
    | ok handle =>
      obtain ⟨-, -, hends⟩ := h
      cases hheld : handle.held with
      | none =>
        rw [hheld] at hends
        obtain ⟨e, rfl⟩ := hends
        rcases hr with ⟨_, hr⟩ | hr <;> cases hr
      | some d =>
        rw [hheld] at hends
        rw [show r = .owner d .stamped from hends] at hr
        rcases hr with ⟨_, hr⟩ | hr <;> cases hr
  | halt =>
    intro hr
    rw [h.2] at hr
    unfold Role.start at hr
    split at hr <;> rcases hr with ⟨_, hr⟩ | hr <;> cases hr
  | ask c next ih =>
    intro hr
    obtain ⟨x, hx⟩ := c.exists_answers me
    obtain ⟨r', hf, hnext⟩ := h x hx
    exact ih x hnext (hr.follows hf)

theorem Replies.leads {path : Path} {me : Pid} {r r' : Role} {m m' : Machine} {manner : Manner}
    {c : Call} {x : c.Answer} {written : Bytes → Prop} (hreply : Replies m me manner c x m')
    (hf : Follows path me r c x r') (ht : Turn path me written r m r' m') (hgone : ¬ r'.Gone)
    {i : Inode} (hl : m.tree.Leads path i) : m'.tree.Leads path i := by
  rcases ht.tree.unlinked i hl with hl' | hu
  · exact hl'
  · rcases hreply.unlinks hf hu with ⟨-, htree⟩ | hg
    · rwa [htree]
    · exact absurd hg hgone

/-- What holds of a party in a race. -/
structure Racing (path : Path) (m : Machine) (P : Party) (r : Role) : Prop where
  released : ∀ p, P.stage = .releasing p → ∃ h, p = .done h ∧ h.disposed = false
  excused : ∀ e, (∃ d, r = .leaving d e) ∨ r = .out e → e = some .refused
  seeks : ∀ d, r.Seeks d → ∃ f, m.opened.get? d = some f ∧ m.tree.Leads path f.inode
  locks : ∀ i d, r.file = some d → m.locks.get? i = some d → r.Ahead

theorem racing_entrant {dir : Path} {name : String} {m : Machine} {pid : Pid} :
    Racing (lockPath dir name) m (Contest.entrant dir name pid) (.start (lockPath dir name)) := by
  refine ⟨fun p h => ?_, fun e he => ?_, fun d hd => ?_, fun i d hd => ?_⟩
  · cases h
  · rcases Role.start_cases (lockPath dir name) with h | h <;> rw [h] at he <;>
      rcases he with ⟨_, he⟩ | he <;> cases he
  · have hfile := hd.file
    rw [Role.file_start] at hfile
    cases hfile
  · rw [Role.file_start] at hd
    cases hd

/-- What others do does not take away where the path leads, nor give locks. -/
theorem Racing.congr {path : Path} {m m' : Machine} {P : Party} {r : Role}
    (h : Racing path m P r)
    (hopened : ∀ d, r.file = some d → m'.opened.get? d = m.opened.get? d)
    (hleads : ∀ i, m.tree.Leads path i → m'.tree.Leads path i)
    (hlocks : ∀ i d, r.file = some d → m'.locks.get? i = some d → m.locks.get? i = some d) :
    Racing path m' P r where
  released := h.released
  excused := h.excused
  seeks d hd := by
    obtain ⟨f, hf, hl⟩ := h.seeks d hd
    exact ⟨f, (hopened d hd.file).trans hf, hleads _ hl⟩
  locks i d hd hl := h.locks i d hd (hlocks i d hd hl)

theorem Racing.disposed {dir : Path} {name : String} {me : Pid} {m : Machine} {P : Party}
    {r : Role} (h : Racing (lockPath dir name) m P r) (hobeys : P.stage.Obeys dir name me r)
    {handle : Handle} (hh : P.stage.handle? = some handle) : handle.disposed = false := by
  unfold Stage.handle? at hh
  split at hh <;> cases hh
  · rename_i hstage
    rw [hstage] at hobeys
    exact hobeys.2.1
  · rename_i hstage
    obtain ⟨h', hdone, hdisposed⟩ := h.released _ hstage
    cases hdone
    exact hdisposed

namespace Contest

/-- What may happen in a race: whoever dies has not acquired the mutex and has
    nothing more to do, nobody gives the mutex back, and no call fails. -/
def Orderly (s : Contest) : Move → Prop
  | .spawn _ | .reap _ | .attempt _ => True
  | .death pid => ∀ k P, s.Live k P → P.process = pid → ¬ P.Busy
  | .release k => ∀ P h, s.Live k P → P.stage.handle? = some h → h.isAcquired = false
  | .reply _ manner c x => manner = .answered ∧ c.troubles x = false

/-- Where nothing fails and nobody gives up the mutex, all is in order. -/
theorem orderly_of_calm {s : Contest} {move : Move} (h : move.Calm) : s.Orderly move := by
  cases move with
  | attempt => trivial
  | reply k manner c x =>
    cases manner with
    | answered => exact ⟨rfl, h⟩
    | failed | torn => exact h.elim
  | spawn | reap | death | release => exact h.elim

/-- What holds of all states of a race. -/
structure Raced (path : Path) (s : Contest) (ρ : Roles) : Prop where
  parties : ∀ (k : Nat) (P : Party), s.parties[k]? = some P → Racing path s.machine P (ρ k)
  resting : ∀ (k : Nat) (P : Party), s.parties[k]? = some P → P.alive = false → ¬ P.Busy
  /-- Whoever was refused the lock was refused it by somebody. -/
  ahead : ∀ (k : Nat) (P : Party), s.parties[k]? = some P → (ρ k).Beaten →
    ∃ j Q, s.Live j Q ∧ (ρ j).Ahead

variable {dir : Path} {name : String} {m m' : Machine} {past : Past} {s s' : Contest}
  {ρ ρ' : Roles} {move : Move} {k : Nat} {P : Party} {r : Role} {c : Call} {x : c.Answer}

/-- **The turns of a race**, if no call fails and nobody gives the mutex back. -/
theorem Sound.passes (hs : Sound dir name s ρ) (hkept : Kept (lockPath dir name) m past s ρ)
    (hk : s.Live k P) (hr : Racing (lockPath dir name) s.machine P (ρ k))
    (hreply : Replies s.machine P.process .answered c x m')
    (hf : Follows (lockPath dir name) P.process (ρ k) c x r) (hcalm : c.troubles x = false)
    (hgone : ¬ r.Gone) : (ρ k).Passes r := by
  generalize hrole : ρ k = q at hf hr
  cases hf with
  | say | ownPid | probe | readPath => exact .same
  | made => exact .made
  | opened hopens =>
    rcases hopens with rfl | rfl
    · exact .opened
    · cases hr.excused _ (Or.inr rfl)
  | locked => exact .locked
  | @unlocked d e =>
    have he : e.IsContention := by simpa [Call.troubles] using hcalm
    have hexcuse : Excuse.ofLock e = .refused := if_pos he
    rw [hexcuse]
    exact .refused
  | linked => exact .linked
  | @orphaned d =>
    obtain ⟨f, hopened, hl⟩ := hr.seeks d (Or.inr rfl)
    exact absurd hl (hreply.orphaned hopened)
  | seen => exact .stamped
  | illegible hbytes =>
    have htext := hs.legible hkept hk hrole hreply
    rw [hbytes] at htext
    cases htext
  | stamped hstamp => exact .stamped
  | unmade | unopened | unread => cases hcalm
  | unstamped hstamp =>
    cases hstamp with
    | truncate | rewind | number | newline => cases hcalm
  | unlink => exact absurd (Or.inl ⟨_, rfl⟩) hgone
  | unlock => exact .same
  | close => exact .closed

/-- Whoever is beaten now was refused the lock by somebody who has it. -/
theorem Raced.beaten (hkept : Kept (lockPath dir name) m past s ρ)
    (hraced : Raced (lockPath dir name) s ρ) (hk : s.Live k P)
    (hreply : Replies s.machine P.process .answered c x m')
    (hf : Follows (lockPath dir name) P.process (ρ k) c x r) (hb : r.Beaten) :
    ∃ j Q, s.Live j Q ∧ (ρ j).Ahead := by
  have hold : (ρ k).Beaten → ∃ j Q, s.Live j Q ∧ (ρ j).Ahead := hraced.ahead k P hk.1
  have hr := hraced.parties k P hk.1
  generalize hrole : ρ k = q at hf hold hr
  cases hf with
  | say | ownPid | probe | readPath | unlock => exact hold hb
  | @close d e =>
    refine hold (Or.inl ⟨d, ?_⟩)
    rcases hb with ⟨_, hb⟩ | hb <;> cases hb
    rfl
  | @unlocked d e =>
    -- the lock belongs to another party, which is ahead
    obtain ⟨f, hopened, hl⟩ := hr.seeks d (Or.inl rfl)
    obtain ⟨d', -, hlock⟩ := hreply.refused hopened
    rcases hkept.locks _ d' hlock with ⟨j, Q, hj, hjd⟩ | hstart
    · exact ⟨j, Q, hj, (hraced.parties j Q hj.1).locks _ d' hjd hlock⟩
    · rw [hkept.free s (List.mem_cons_self ..) _ hl] at hstart
      cases hstart
  | made | unmade | opened | unopened | locked | linked | orphaned | seen | illegible | unread
  | stamped | unstamped | unlink => rcases hb with ⟨_, hb⟩ | hb <;> cases hb

theorem Raced.attempting {path : Path} (h : Raced path s ρ) (hk : s.Live k P)
    {next : c.Answer → Stage} (hasks : P.stage.Asks c next) :
    ∃ rest : c.Answer → Program (Except IoError Handle),
      next = fun x => .attempting (rest x) := by
  cases hstage : P.stage with
  | attempting p =>
    rw [hstage] at hasks
    cases hasks
    exact ⟨_, rfl⟩
  | releasing p =>
    obtain ⟨h, rfl, -⟩ := (h.parties k P hk.1).released p hstage
    rw [hstage] at hasks
    cases hasks

theorem Raced.live {path : Path} (h : Raced path s ρ) (hs : Sound dir name s ρ)
    (hk : s.parties[k]? = some P) {d : Descriptor} (hd : (ρ k).file = some d) : s.Live k P := by
  refine ⟨hk, ?_⟩
  cases halive : P.alive with
  | true => rfl
  | false => exact absurd (hs.busy hk hd) (h.resting k P hk halive)

theorem Sound.racing_told (hs : Sound dir name s ρ)
    (hr : Racing (lockPath dir name) s.machine P (ρ k))
    (hreply : Replies s.machine P.process .answered c x m')
    (hf : Follows (lockPath dir name) P.process (ρ k) c x r) (hp : (ρ k).Passes r)
    {written : Bytes → Prop}
    (ht : Turn (lockPath dir name) P.process written (ρ k) s.machine r m')
    {rest : Program (Except IoError Handle)} :
    Racing (lockPath dir name) m' (P.told c x (.attempting rest)) r := by
  refine ⟨fun p h => ?_, fun e he => ?_, fun d hd => ?_, fun i d hd hl => ?_⟩
  · cases h
  · generalize ρ k = q at hp hr
    cases hp with
    | same => exact hr.excused e he
    | closed =>
      rcases he with ⟨_, he⟩ | he <;> cases he
      exact hr.excused e (Or.inl ⟨_, rfl⟩)
    | refused =>
      rcases he with ⟨_, he⟩ | he <;> cases he
      rfl
    | made | opened | locked | linked | stamped => rcases he with ⟨_, he⟩ | he <;> cases he
  · rcases hreply.seeks hf hs.wellFormed hd with ⟨hold, htree, hopened⟩ | hnew
    · rw [htree, hopened]
      exact hr.seeks d hold
    · exact hnew
  · rcases ht.taken i d hl with hold | rfl
    · rcases ht.fresh d hd with hfile | hge
      · exact hp.ahead (hr.locks i d hfile hold)
      · -- a file that was opened just now had no lock
        obtain ⟨f, hopened, -⟩ := hs.wellFormed.locked hold
        exact absurd (hs.wellFormed.opened hopened).1 (Nat.not_lt.2 hge)
    · exact Or.inl ⟨d, rfl⟩

/-! ## Steps of a race -/

section Steps
variable (hraced : Raced (lockPath dir name) s ρ) (hs : Sound dir name s ρ)
include hraced

include hs in
theorem Raced.death {pid : Pid} (hpid : Orderly s (.death pid)) :
    Raced (lockPath dir name) (s.bury pid) ρ := by
  have hw := hs.wellFormed
  -- whoever has a file does not die
  have hspared : ∀ {k P d}, s.parties[k]? = some P → (ρ k).file = some d → P.process ≠ pid :=
    fun hk hd heq => hpid _ _ (hraced.live hs hk hd) heq (hs.busy hk hd)
  refine ⟨fun k P hk => ?_, fun k P hk halive => ?_, fun k P hk hb => ?_⟩
  · rw [get_bury, Option.map_eq_some_iff] at hk
    obtain ⟨P, hk, rfl⟩ := hk
    have hr : Racing (lockPath dir name) s.machine (P.survive pid) (ρ k) := by
      obtain ⟨hreleased, hexcused, hseeks, hlocks⟩ := hraced.parties k P hk
      exact ⟨hreleased, hexcused, hseeks, hlocks⟩
    refine hr.congr (fun d hd => ?_) (fun i hl => ?_) fun i d _ hl => ((Machine.locks_kill hw).1 hl).1
    · obtain ⟨f, hf, hme, -⟩ := (hs.holds k P (hraced.live hs hk hd)).file d hd
      exact ((Machine.opened_kill hw).2 ⟨hf, hme ▸ hspared hk hd⟩).trans hf.symm
    · exact (Machine.tree_kill hw pid).symm ▸ hl
  · rw [get_bury, Option.map_eq_some_iff] at hk
    obtain ⟨P, hk, rfl⟩ := hk
    have hbusy : ¬ P.Busy := by
      cases hP : P.alive with
      | false => exact hraced.resting k P hk hP
      | true =>
        have heq : P.process = pid := by simpa [Party.survive, hP] using halive
        exact hpid k P ⟨hk, hP⟩ heq
    exact hbusy
  · rw [get_bury, Option.map_eq_some_iff] at hk
    obtain ⟨P, hk, rfl⟩ := hk
    obtain ⟨j, Q, hj, hahead⟩ := hraced.ahead k P hk hb
    obtain ⟨d, hd⟩ := hahead.file
    exact ⟨j, Q, live_bury.2 ⟨hj, hspared hj.1 hd⟩, hahead⟩

theorem Raced.attempt {pid : Pid} : Raced (lockPath dir name) (s.enter (entrant dir name pid))
    (ρ.set s.parties.length (.start (lockPath dir name))) := by
  refine ⟨fun k P hk => ?_, fun k P hk halive => ?_, fun k P hk hb => ?_⟩
  · rw [get_enter] at hk
    split at hk
    · rename_i hlen
      cases hk
      rw [hlen, Roles.set_self]
      exact racing_entrant
    · rename_i hlen
      rw [Roles.set_ne ρ _ hlen]
      exact hraced.parties k P hk
  · rw [get_enter] at hk
    split at hk
    · cases hk
      cases halive
    · exact hraced.resting k P hk halive
  · rw [get_enter] at hk
    split at hk
    · rename_i hlen
      rw [hlen, Roles.set_self] at hb
      exact absurd hb Role.not_beaten_start
    · rename_i hlen
      rw [Roles.set_ne ρ _ hlen] at hb
      obtain ⟨j, Q, hj, hahead⟩ := hraced.ahead k P hk hb
      refine ⟨j, Q, (live_enter rfl).2 (Or.inr hj), ?_⟩
      rwa [Roles.set_ne ρ _ hj.ne_length]

include hs in
theorem Raced.release {h : Handle} (hk : s.Live k P) (hh : P.stage.handle? = some h)
    (hnot : h.isAcquired = false) :
    Raced (lockPath dir name) (s.put s.machine k { P with stage := .releasing h.release }) ρ := by
  have halive : ({ P with stage := .releasing h.release } : Party).alive = true := hk.2
  have hheld : h.held = none := by simpa [Handle.isAcquired] using hnot
  have hrelease : h.release = .done h := by
    simp only [Handle.release, hheld]
    rfl
  refine ⟨fun j Q hj => ?_, fun j Q hj hdead => ?_, fun j Q hj hb => ?_⟩
  · rw [get_put hk] at hj
    split at hj
    · rename_i hjk
      subst hjk
      cases hj
      have hr := hraced.parties j P hk.1
      refine ⟨fun p hp => ?_, hr.excused, hr.seeks, hr.locks⟩
      cases hp
      exact ⟨h, hrelease, hr.disposed (hs.obeys j P hk.1) hh⟩
    · exact hraced.parties j Q hj
  · rw [get_put hk] at hj
    split at hj
    · cases hj
      rw [halive] at hdead
      cases hdead
    · exact hraced.resting j Q hj hdead
  · have hold : ∃ Q', s.parties[j]? = some Q' := by
      rw [get_put hk] at hj
      split at hj
      · rename_i hjk
        exact ⟨P, hjk ▸ hk.1⟩
      · exact ⟨Q, hj⟩
    obtain ⟨Q', hQ'⟩ := hold
    obtain ⟨i, P', hi, hahead⟩ := hraced.ahead j Q' hQ' hb
    by_cases hik : i = k
    · exact ⟨i, _, (live_put hk _ halive).2 (Or.inl ⟨hik, rfl⟩), hahead⟩
    · exact ⟨i, P', (live_put hk _ halive).2 (Or.inr ⟨hik, hi⟩), hahead⟩

include hs in
/-- What a turn leaves to the other parties of a race. -/
theorem Raced.spared (hk : s.Live k P) (hreply : Replies s.machine P.process .answered c x m')
    (hf : Follows (lockPath dir name) P.process (ρ k) c x r) {written : Bytes → Prop}
    (ht : Turn (lockPath dir name) P.process written (ρ k) s.machine r m') (hgone : ¬ r.Gone)
    {j : Nat} {Q : Party} (hj : s.parties[j]? = some Q) (hjk : j ≠ k) :
    Racing (lockPath dir name) m' Q (ρ j) := by
  -- the file of another party is not the file of this one
  have hother : ∀ {d}, (ρ j).file = some d → (ρ k).file ≠ some d := fun hd hd' =>
    hjk (hs.apart j k Q P _ (hraced.live hs hj hd) hk hd hd')
  have hold : ∀ {d}, (ρ j).file = some d → d < s.machine.nextDescriptor := fun hd =>
    (hs.holds j Q (hraced.live hs hj hd)).lt_nextDescriptor hs.wellFormed hd
  refine (hraced.parties j Q hj).congr (fun d hd => ?_) (fun i hl => ?_) fun i d hd hl => ?_
  · exact ht.opened d (hold hd) (hother hd)
  · exact hreply.leads hf ht hgone hl
  · rcases ht.taken i d hl with hl' | rfl
    · exact hl'
    · rcases ht.fresh d rfl with hkd | hge
      · exact absurd hkd (hother hd)
      · exact absurd (hold hd) (Nat.not_lt.2 hge)

include hs in
/-- **A turn of a race.** -/
theorem Raced.reply (hkept : Kept (lockPath dir name) m past s ρ) (hk : s.Live k P)
    {next : c.Answer → Stage} (hasks : P.stage.Asks c next)
    (hreply : Replies s.machine P.process .answered c x m')
    (hf : Follows (lockPath dir name) P.process (ρ k) c x r)
    (ht : Turn (lockPath dir name) P.process (Manner.answered.Leaves P.process) (ρ k) s.machine r m')
    (hcalm : c.troubles x = false) (hnext : (next x).Obeys dir name P.process r) :
    Raced (lockPath dir name) (s.put m' k (P.told c x (next x))) (ρ.set k r) := by
  obtain ⟨rest, rfl⟩ := hraced.attempting hk hasks
  have hgone : ¬ r.Gone := Program.Obeys.not_gone hnext
  have hr := hraced.parties k P hk.1
  have hp := hs.passes hkept hk hr hreply hf hcalm hgone
  have halive : (P.told c x (.attempting (rest x))).alive = true := hk.2
  refine ⟨fun j Q hj => ?_, fun j Q hj hdead => ?_, fun j Q hj hb => ?_⟩
  · rw [get_put hk] at hj
    by_cases hjk : j = k
    · rw [if_pos hjk] at hj
      cases hj
      rw [hjk, Roles.set_self]
      exact hs.racing_told hr hreply hf hp ht
    · rw [if_neg hjk] at hj
      rw [Roles.set_ne ρ r hjk]
      exact hraced.spared hs hk hreply hf ht hgone hj hjk
  · rw [get_put hk] at hj
    split at hj
    · cases hj
      rw [halive] at hdead
      cases hdead
    · exact hraced.resting j Q hj hdead
  · have hahead : ∃ i P', s.Live i P' ∧ (ρ i).Ahead := by
      rw [get_put hk] at hj
      by_cases hjk : j = k
      · rw [hjk, Roles.set_self] at hb
        exact hraced.beaten hkept hk hreply hf hb
      · rw [if_neg hjk] at hj
        rw [Roles.set_ne ρ r hjk] at hb
        exact hraced.ahead j Q hj hb
    -- who is ahead stays ahead
    obtain ⟨i, P', hi, hahead⟩ := hahead
    by_cases hik : i = k
    · refine ⟨i, _, (live_put hk m' halive).2 (Or.inl ⟨hik, rfl⟩), ?_⟩
      rw [hik] at hahead ⊢
      rw [Roles.set_self]
      exact hp.ahead hahead
    · refine ⟨i, P', (live_put hk m' halive).2 (Or.inr ⟨hik, hi⟩), ?_⟩
      rwa [Roles.set_ne ρ r hik]

end Steps

theorem Raced.congr {path : Path} (h : Raced path s ρ) (htree : m'.tree = s.machine.tree)
    (hopened : m'.opened = s.machine.opened) (hlocks : m'.locks = s.machine.locks) :
    Raced path ⟨m', s.parties⟩ ρ where
  parties k P hk := (h.parties k P hk).congr (fun _ _ => by rw [hopened])
    (fun _ hl => by rwa [htree]) fun i d _ hl => by rwa [hlocks] at hl
  resting := h.resting
  ahead := h.ahead

/-- **What holds of all states of a race.** -/
theorem Play.raced (hfit : Fit (lockPath dir name) m) (h : Play dir name m past s ρ)
    (horderly : ∀ u move, (u, move) ∈ past → Orderly u move) :
    Raced (lockPath dir name) s ρ := by
  induction h with
  | start =>
    constructor
    all_goals
      intro k P hk
      cases hk
  | @next past s s' move ρ ρ' hplay hc hs' ih =>
    have hraced := ih fun u move' hmem => horderly u move' (List.mem_cons_of_mem _ hmem)
    have hnow := horderly s move (List.mem_cons_self ..)
    have hs := hplay.sound hfit.wellFormed
    cases hc with
    | spawn | reap => exact hraced.congr rfl rfl rfl
    | death => exact hraced.death hs hnow
    | attempt => exact hraced.attempt
    | release hk hh => exact hraced.release hs hk hh (hnow _ _ hk hh)
    | @reply k P manner c x next m' r hk hasks hreply hf ht =>
      obtain ⟨rfl, hcalm⟩ := hnow
      have hself : (s.put m' k (P.told c x (next x))).parties[k]? = some (P.told c x (next x)) := by
        rw [get_put hk, if_pos rfl]
      have hobeys := hs'.obeys k _ hself
      rw [Roles.set_self] at hobeys
      exact hraced.reply hs (hplay.kept hfit) hk hasks hreply hf ht hcalm hobeys

/-! ## The winner -/

/-- A party that has made its last call has a handle: it is acquired in the role of
    the owner, and in all others the party was beaten. -/
theorem Raced.outcome (hname : IsValidName name) (h : Raced (lockPath dir name) s ρ)
    (hs : Sound dir name s ρ) (hk : s.parties[k]? = some P) (hdone : ¬ P.stage.InFlight) :
    ∃ handle, P.stage.handle? = some handle ∧ handle.disposed = false ∧
      ((handle.isAcquired = true ∧ ∃ d w, ρ k = .owner d w) ∨
        (handle.isAcquired = false ∧ (ρ k).Beaten)) := by
  have hr := h.parties k P hk
  have hobeys := hs.obeys k P hk
  have hhandle : ∃ handle, P.stage.handle? = some handle := by
    cases hstage : P.stage with
    | attempting p =>
      rw [hstage] at hobeys hdone
      cases p with
      | ask c next => exact absurd ⟨c, _, .attempting⟩ hdone
      | halt => exact absurd hname hobeys.1
      | done result =>
        cases result with
        | ok handle => exact ⟨handle, rfl⟩
        | error =>
          have hrole : ρ k = .out (some .failure) := hobeys
          cases hr.excused _ (Or.inr hrole)
    | releasing p =>
      obtain ⟨handle, rfl, -⟩ := hr.released p hstage
      exact ⟨handle, rfl⟩
  obtain ⟨handle, hhandle⟩ := hhandle
  obtain ⟨-, howner, hout⟩ := hobeys.handle hhandle
  refine ⟨handle, hhandle, hr.disposed hobeys hhandle, ?_⟩
  cases hheld : handle.held with
  | none =>
    obtain ⟨e, hrole⟩ := hout hheld
    obtain rfl := hr.excused e (Or.inr hrole)
    exact Or.inr ⟨by simp [Handle.isAcquired, hheld], Or.inr hrole⟩
  | some d => exact Or.inl ⟨by simp [Handle.isAcquired, hheld], d, _, howner d hheld⟩

/-- The party number `k` has returned, with an acquired handle. -/
def Wins (s : Contest) (k : Nat) : Prop :=
  ∃ P h, s.parties[k]? = some P ∧ P.stage.handle? = some h ∧ h.isAcquired = true

/-- The party number `k` has returned, with a handle that is neither acquired nor
    disposed of. -/
def Loses (s : Contest) (k : Nat) : Prop :=
  ∃ P h, s.parties[k]? = some P ∧ P.stage.handle? = some h ∧ h.isAcquired = false ∧
    h.disposed = false

/-- **Exactly one winner.**  In a race of any number of attempts at a valid name,
    in which all have returned: one handle is acquired, and all others are neither
    acquired nor disposed of. -/
theorem exactly_one_winner (hfit : Fit (lockPath dir name) m) (hname : IsValidName name)
    (hrun : Run dir name m past s) (horderly : ∀ u move, (u, move) ∈ past → Orderly u move)
    (hsome : s.parties ≠ []) (hdone : ∀ P ∈ s.parties, ¬ P.stage.InFlight) :
    ∃ k, s.Wins k ∧ ∀ j, j < s.parties.length → j ≠ k → s.Loses j := by
  obtain ⟨ρ, hplay⟩ := hrun.play hfit.wellFormed
  have hs := hplay.sound hfit.wellFormed
  have hraced := hplay.raced hfit horderly
  have houtcome := fun {k : Nat} {P : Party} (hk : s.parties[k]? = some P) =>
    hraced.outcome hname hs hk (hdone P (List.mem_of_getElem? hk))
  -- the first party is the winner, or was beaten by the winner
  have hwinner : ∃ k P d w, s.parties[k]? = some P ∧ ρ k = .owner d w := by
    obtain ⟨P, hP⟩ : ∃ P, s.parties[0]? = some P := by
      cases hlist : s.parties with
      | nil => exact absurd hlist hsome
      | cons P rest => exact ⟨P, rfl⟩
    obtain ⟨h, -, -, ⟨-, d, w, hrole⟩ | ⟨-, hbeaten⟩⟩ := houtcome hP
    · exact ⟨0, P, d, w, hP, hrole⟩
    · obtain ⟨j, Q, hj, hahead⟩ := hraced.ahead 0 P hP hbeaten
      obtain ⟨h', -, -, ⟨-, d, w, hrole⟩ | ⟨-, hbeaten'⟩⟩ := houtcome hj.1
      · exact ⟨j, Q, d, w, hj.1, hrole⟩
      · exact absurd hahead hbeaten'.not_ahead
  obtain ⟨k, P, d, w, hk, hrole⟩ := hwinner
  have hlive := hraced.live hs hk (by rw [hrole]; rfl)
  refine ⟨k, ?_, fun j hlt hjk => ?_⟩
  · obtain ⟨h, hhandle, -, ⟨hacq, -⟩ | ⟨-, hbeaten⟩⟩ := houtcome hk
    · exact ⟨P, h, hk, hhandle, hacq⟩
    · exact absurd (Or.inr ⟨d, w, hrole⟩) hbeaten.not_ahead
  · obtain ⟨Q, hj⟩ : ∃ Q, s.parties[j]? = some Q := ⟨_, List.getElem?_eq_getElem hlt⟩
    obtain ⟨h, hhandle, hdisposed, ⟨-, d', w', hrole'⟩ | ⟨hnot, -⟩⟩ := houtcome hj
    · have hjlive := hraced.live hs hj (by rw [hrole']; rfl)
      exact absurd (hs.owner_unique hjlive hlive hrole' hrole) hjk
    · exact ⟨Q, h, hj, hhandle, hnot, hdisposed⟩

/-- Two attempts, one after the other, are a race. -/
theorem exactly_one_winner_of_two : ∃ past s, Run root "a" (.bare 1) past s ∧
    ∃ k, s.Wins k ∧ ∀ j, j < s.parties.length → j ≠ k → s.Loses j := by
  obtain ⟨past, s, P, Q, h, h', hrun, hparties, ⟨-, -, hstage, -⟩, ⟨-, hstage', -⟩, hcalm⟩ :=
    exists_two_attempts
  refine ⟨past, s, hrun, exactly_one_winner (.of_absent (Machine.bare_wellFormed 1) (absent_bare 1))
    (by decide) hrun (fun u move hmem => orderly_of_calm (hcalm u move hmem)) ?_ ?_⟩
  · intro hnil
    have hfirst := hparties 0
    rw [hnil] at hfirst
    cases hfirst
  · rintro R hR ⟨c, next, hasks⟩
    obtain ⟨j, hj⟩ := List.getElem?_of_mem hR
    rw [hparties] at hj
    split at hj
    · cases hj
      rw [hstage'] at hasks
      cases hasks
    · split at hj <;> cases hj
      rw [hstage] at hasks
      cases hasks

end Contest

end NamedMutex
