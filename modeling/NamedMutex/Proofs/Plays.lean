/-
  Runs of a contest with the roles of all parties.

  Every party of a run has a role, though nothing in the run says which.  A play
  is a run with roles: `Change` says what a step does to the machine and to the
  roles, and `Sound` what holds of all states.

  * `Sound.step`: a step from a sound state is a change to a sound state;
  * `Run.play`: every run is a play.
-/
import NamedMutex.Proofs.Turns

namespace NamedMutex

/-! ## Replies as turns -/

/-- What a reply may leave in the file of an owner. -/
def Manner.Leaves (me : Pid) : Manner → Bytes → Prop
  | torn => Stamp.Torn me
  | answered | failed => Stamp.Whole me

section Replies
variable {path : Path} {me : Pid} {r r' : Role} {m m' : Machine} {manner : Manner} {c : Call}
  {x : c.Answer}

theorem Turn.of_tick {written : Bytes → Prop} (h : Turn path me written r m.tick r' m') :
    Turn path me written r m r' m' :=
  ⟨h.wellFormed, h.holds, h.processes, h.tree, h.opened, h.fresh, h.kept, h.taken, h.dropped⟩

theorem Replies.answers (h : Replies m me manner c x m') : c.Answers me x := by
  cases h with
  | answered => cases c <;> trivial
  | failed he =>
    cases c with
    | ownPid => cases he
    | _ => trivial
  | torn => trivial

theorem Follows.of_write {file : Descriptor} {bytes : Bytes} {x : Except IoError Unit}
    (h : Follows path me r (.write file bytes) x r') (hx : ∃ e, x = .error e) :
    ∃ w w' answer, r = .owner file w ∧ Stamps me file w (.write file bytes) answer w' ∧
      r' = .leaving file (some .failure) := by
  cases h with
  | stamped hs =>
    obtain ⟨_, hx⟩ := hx
    cases hs <;> cases hx
  | unstamped hs =>
    have hfile := hs
    cases hfile with
    | number | newline => exact ⟨_, _, _, rfl, hs, rfl⟩

/-- **Every reply to a party that follows the protocol is a turn.** -/
theorem Replies.turn (h : Replies m me manner c x m') (hf : Follows path me r c x r')
    (hw : m.WellFormed) (hh : Holds path me m r) :
    Turn path me (manner.Leaves me) r m r' m' := by
  cases h with
  | answered => exact (hf.turn hw.tick (hh.congr rfl rfl rfl) rfl).of_tick
  | failed he => exact hf.turn_of_failed he hw hh
  | torn =>
    obtain ⟨w, w', answer, rfl, hs, rfl⟩ := hf.of_write ⟨_, rfl⟩
    exact (hs.turn_of_torn hw.tick (hh.congr rfl rfl rfl) rfl).of_tick

end Replies

namespace Stage

/-- What is left of a stage follows the protocol. -/
def Obeys (dir : Path) (name : String) (me : Pid) : Stage → Role → Prop
  | .attempting p, r => p.Obeys (lockPath dir name) me (Handle.Acquires dir name) r
  | .releasing p, r =>
    p.Obeys (lockPath dir name) me (Program.Returns (Handle.Releases dir name)) r

variable {dir : Path} {name : String} {me : Pid} {r : Role} {stage : Stage}

theorem Obeys.next (h : stage.Obeys dir name me r) {c : Call} {next : c.Answer → Stage}
    (ha : stage.Asks c next) {x : c.Answer} (hx : c.Answers me x) :
    ∃ r', Follows (lockPath dir name) me r c x r' ∧ (next x).Obeys dir name me r' := by
  cases ha with
  | attempting | releasing => exact h x hx

theorem Obeys.handle (h : stage.Obeys dir name me r) {handle : Handle}
    (hh : stage.handle? = some handle) : handle.path = lockPath dir name ∧
      (∀ d, handle.held = some d → r = .owner d .stamped) ∧
        (handle.held = none → ∃ e, r = .out e) := by
  unfold handle? at hh
  split at hh <;> cases hh
  · obtain ⟨hpath, -, hends⟩ := h
    refine ⟨hpath, fun d hd => ?_, fun hd => ?_⟩
    · simpa only [hd, Attempt.Ends] using hends
    · simp only [hd, Attempt.Ends] at hends
      obtain ⟨e, hr⟩ := hends
      exact ⟨_, hr⟩
  · obtain ⟨hpath, hheld, hr⟩ := h
    refine ⟨hpath, fun d hd => ?_, fun _ => hr⟩
    rw [hheld] at hd
    cases hd

end Stage

namespace Contest

/-- The roles of the parties. -/
abbrev Roles := Nat → Role

/-- Roles with another one for the party number `k`. -/
def Roles.set (ρ : Roles) (k : Nat) (r : Role) : Roles := fun j => if j = k then r else ρ j

@[simp] theorem Roles.set_self (ρ : Roles) (k : Nat) (r : Role) : ρ.set k r k = r := if_pos rfl

theorem Roles.set_ne (ρ : Roles) {j k : Nat} (r : Role) (h : j ≠ k) : ρ.set k r j = ρ j := if_neg h

variable {dir : Path} {name : String} {s s' : Contest} {ρ ρ' : Roles} {move : Move}

/-- What holds of all states of a run, with the roles of the parties. -/
structure Sound (dir : Path) (name : String) (s : Contest) (ρ : Roles) : Prop where
  wellFormed : s.machine.WellFormed
  obeys : ∀ k (P : Party), s.parties[k]? = some P → P.stage.Obeys dir name P.process (ρ k)
  holds : ∀ k P, s.Live k P → Holds (lockPath dir name) P.process s.machine (ρ k)
  running : ∀ k P, s.Live k P → s.machine.processes.get? P.process = some .running
  /-- No two parties have the same file. -/
  apart : ∀ j k P Q d, s.Live j P → s.Live k Q → (ρ j).file = some d → (ρ k).file = some d → j = k
  given : ∀ k (P : Party) d, s.parties[k]? = some P → (ρ k).file = some d → d ∈ P.files

/-- What a step does to the machine, the parties and their roles. -/
inductive Change (dir : Path) (name : String) (s : Contest) (ρ : Roles) :
    Move → Contest → Roles → Prop
  | spawn {pid : Pid} : 0 < pid → pid < Pid.limit → s.machine.processes.get? pid = none →
      Change dir name s ρ (.spawn pid) ⟨s.machine.spawn pid, s.parties⟩ ρ
  | reap {pid : Pid} : s.machine.processes.get? pid = some .zombie →
      Change dir name s ρ (.reap pid) ⟨s.machine.reap pid, s.parties⟩ ρ
  | death {pid : Pid} : Change dir name s ρ (.death pid) (s.bury pid) ρ
  | attempt {pid : Pid} : s.machine.processes.get? pid = some .running →
      Change dir name s ρ (.attempt pid) (s.enter (entrant dir name pid))
        (ρ.set s.parties.length (.start (lockPath dir name)))
  | release {k : Nat} {P : Party} {h : Handle} : s.Live k P → P.stage.handle? = some h →
      Change dir name s ρ (.release k)
        (s.put s.machine k { P with stage := .releasing h.release }) ρ
  | reply {k : Nat} {P : Party} {manner : Manner} {c : Call} {x : c.Answer}
      {next : c.Answer → Stage} {m : Machine} {r : Role} : s.Live k P → P.stage.Asks c next →
      Replies s.machine P.process manner c x m →
      Follows (lockPath dir name) P.process (ρ k) c x r →
      Turn (lockPath dir name) P.process (manner.Leaves P.process) (ρ k) s.machine r m →
      Change dir name s ρ (.reply k manner c x) (s.put m k (P.told c x (next x))) (ρ.set k r)

/-- A party that is told an answer has the files that it had, and the one that it
    was given. -/
theorem mem_told {c : Call} {x : c.Answer} {stage : Stage} {P : Party} {path : Path} {me : Pid}
    {r r' : Role} (h : Follows path me r c x r') (hg : ∀ d, r.file = some d → d ∈ P.files) :
    ∀ d, r'.file = some d → d ∈ (P.told c x stage).files := by
  have hold : ∀ d, d ∈ P.files → d ∈ (P.told c x stage).files :=
    fun d hd => List.mem_append_right _ hd
  intro d hd
  cases h with
  | say | ownPid | probe | readPath => exact hold d (hg d hd)
  | made | unmade | unopened | close => cases hd
  | opened =>
    cases hd
    exact List.mem_append_left _ (List.mem_singleton_self d)
  | locked | unlocked | linked | orphaned | seen | illegible | unread | stamped | unstamped
  | unlink | unlock => exact hold d (hg d hd)

theorem Sound.reply (hs : Sound dir name s ρ) {k : Nat} {P : Party} {manner : Manner} {c : Call}
    {x : c.Answer} {next : c.Answer → Stage} {m : Machine} {r : Role} (hk : s.Live k P)
    (hf : Follows (lockPath dir name) P.process (ρ k) c x r)
    (hnext : (next x).Obeys dir name P.process r)
    (ht : Turn (lockPath dir name) P.process (manner.Leaves P.process) (ρ k) s.machine r m) :
    Sound dir name (s.put m k (P.told c x (next x))) (ρ.set k r) := by
  have halive : (P.told c x (next x)).alive = true := hk.2
  have hlive : ∀ {j P'}, (s.put m k (P.told c x (next x))).Live j P' ↔
      (j = k ∧ P' = P.told c x (next x)) ∨ (j ≠ k ∧ s.Live j P') := live_put hk m halive
  -- the file of another party is not the file of this one
  have hother : ∀ j Q d, s.Live j Q → j ≠ k → (ρ j).file = some d → (ρ k).file ≠ some d :=
    fun j Q d hj hne hd hd' => hne (hs.apart j k Q P d hj hk hd hd')
  refine ⟨ht.wellFormed, fun j Q hj => ?_, fun j Q hj => ?_, fun j Q hj => ?_,
    fun i j P₁ P₂ d hi hj hdi hdj => ?_, fun j Q d hj hd => ?_⟩
  · rw [get_put hk] at hj
    by_cases hjk : j = k
    · subst hjk
      rw [if_pos rfl] at hj
      cases hj
      rw [Roles.set_self]
      exact hnext
    · rw [if_neg hjk] at hj
      rw [Roles.set_ne ρ r hjk]
      exact hs.obeys j Q hj
  · rcases hlive.1 hj with ⟨rfl, rfl⟩ | ⟨hjk, hj⟩
    · rw [Roles.set_self]
      exact ht.holds
    · rw [Roles.set_ne ρ r hjk]
      exact (hs.holds j Q hj).spared (hs.holds k P hk) hs.wellFormed ht
        fun d hd => hother j Q d hj hjk hd
  · have hproc : (s.put m k (P.told c x (next x))).machine.processes = s.machine.processes :=
      ht.processes
    rw [hproc]
    rcases hlive.1 hj with ⟨rfl, rfl⟩ | ⟨-, hj⟩
    · exact hs.running j P hk
    · exact hs.running j Q hj
  · -- the file of another party is older than the one that was given now
    have hnew : ∀ j Q, s.Live j Q → j ≠ k → r.file = some d → (ρ j).file = some d → False := by
      intro j Q hj hne hr hd
      rcases ht.fresh d hr with hold | hge
      · exact hother j Q d hj hne hd hold
      · exact absurd ((hs.holds j Q hj).lt_nextDescriptor hs.wellFormed hd) (Nat.not_lt.2 hge)
    rcases hlive.1 hi with ⟨rfl, -⟩ | ⟨hik, hi'⟩ <;> rcases hlive.1 hj with ⟨rfl, -⟩ | ⟨hjk, hj'⟩
    · rfl
    · rw [Roles.set_self] at hdi
      rw [Roles.set_ne ρ r hjk] at hdj
      exact (hnew j _ hj' hjk hdi hdj).elim
    · rw [Roles.set_self] at hdj
      rw [Roles.set_ne ρ r hik] at hdi
      exact (hnew i _ hi' hik hdj hdi).elim
    · rw [Roles.set_ne ρ r hik] at hdi
      rw [Roles.set_ne ρ r hjk] at hdj
      exact hs.apart i j _ _ d hi' hj' hdi hdj
  · rw [get_put hk] at hj
    by_cases hjk : j = k
    · subst hjk
      rw [if_pos rfl] at hj
      cases hj
      rw [Roles.set_self] at hd
      exact mem_told hf (fun d hd => hs.given j P d hk.1 hd) d hd
    · rw [if_neg hjk] at hj
      rw [Roles.set_ne ρ r hjk] at hd
      exact hs.given j Q d hj hd

section Steps
variable (hs : Sound dir name s ρ)
include hs

/-- Processes that start, and dead ones that are forgotten, are no matter. -/
theorem Sound.congr {m : Machine} (hw : m.WellFormed) (htree : m.tree = s.machine.tree)
    (hopened : m.opened = s.machine.opened) (hlocks : m.locks = s.machine.locks)
    (hproc : ∀ pid, s.machine.processes.get? pid = some .running →
      m.processes.get? pid = some .running) : Sound dir name ⟨m, s.parties⟩ ρ where
  wellFormed := hw
  obeys := hs.obeys
  holds k P hk := (hs.holds k P hk).congr htree hopened hlocks
  running k P hk := hproc _ (hs.running k P hk)
  apart := hs.apart
  given := hs.given

theorem Sound.death {pid : Pid} : Sound dir name (s.bury pid) ρ := by
  have hw := hs.wellFormed
  refine ⟨Machine.kill_wellFormed hw pid, fun k P hk => ?_, fun k P hk => ?_, fun k P hk => ?_,
    fun j k P Q d hj hk => ?_, fun k P d hk hd => ?_⟩
  · rw [get_bury, Option.map_eq_some_iff] at hk
    obtain ⟨P, hk, rfl⟩ := hk
    exact hs.obeys k P hk
  · obtain ⟨hk, hpid⟩ := live_bury.1 hk
    have hh := hs.holds k P hk
    refine ⟨fun hin => ?_, fun d hd => ?_⟩
    · exact (Machine.tree_kill hw pid).symm ▸ hh.settled hin
    obtain ⟨f, hf, hme, huse, hach⟩ := hh.file d hd
    have hlock : ∀ {i}, s.machine.locks.get? i = some d →
        (s.machine.kill pid).locks.get? i = some d := by
      intro i hl
      refine (Machine.locks_kill hw).2 ⟨hl, fun f' hf' => ?_⟩
      obtain rfl := Option.some.inj (hf.symm.trans hf')
      exact hme.symm ▸ hpid
    refine ⟨f, (Machine.opened_kill hw).2 ⟨hf, hme.symm ▸ hpid⟩, hme,
      (Machine.tree_kill hw pid).symm ▸ huse, ?_⟩
    cases hr : ρ k with
    | outside | ready | out => trivial
    | leaving => trivial
    | opened =>
      rw [hr] at hach
      exact hach
    | locked =>
      rw [hr] at hach hd
      cases hd
      exact ⟨hach.1, hlock hach.2⟩
    | owner =>
      rw [hr] at hach hd
      cases hd
      exact ⟨hlock hach.1, (Machine.tree_kill hw pid).symm ▸ hach.2⟩
  · obtain ⟨hk, hpid⟩ := live_bury.1 hk
    have hproc := Machine.processes_kill hw pid
    show (s.machine.kill pid).processes.get? P.process = _
    rw [hproc, Table.get?_insert, if_neg hpid]
    exact hs.running k P hk
  · exact hs.apart j k P Q d (live_bury.1 hj).1 (live_bury.1 hk).1
  · rw [get_bury, Option.map_eq_some_iff] at hk
    obtain ⟨P, hk, rfl⟩ := hk
    exact hs.given k P d hk hd

theorem Sound.attempt {pid : Pid} (hpid : s.machine.processes.get? pid = some .running) :
    Sound dir name (s.enter (entrant dir name pid))
      (ρ.set s.parties.length (.start (lockPath dir name))) := by
  have hnone := Role.file_start (lockPath dir name)
  have hlive : ∀ {j P}, (s.enter (entrant dir name pid)).Live j P ↔
      (j = s.parties.length ∧ P = entrant dir name pid) ∨ s.Live j P := live_enter rfl
  refine ⟨hs.wellFormed, fun k P hk => ?_, fun k P hk => ?_, fun k P hk => ?_,
    fun j k P Q d hj hk hdj hdk => ?_, fun k P d hk hd => ?_⟩
  · rw [get_enter] at hk
    split at hk
    · rename_i hlen
      subst hlen
      cases hk
      rw [Roles.set_self]
      exact Handle.acquire_obeys dir name pid
    · rename_i hlen
      rw [Roles.set_ne ρ _ hlen]
      exact hs.obeys k P hk
  · rcases hlive.1 hk with ⟨rfl, rfl⟩ | hk
    · rw [Roles.set_self]
      refine ⟨fun hin d hd => ?_, fun d hd => ?_⟩
      · -- a path without a directory begins ready
        refine absurd ?_ hin.1
        simp only [Role.start, hd, reduceCtorEq, if_false]
      · rw [hnone] at hd
        cases hd
    · rw [Roles.set_ne ρ _ hk.ne_length]
      exact hs.holds k P hk
  · rcases hlive.1 hk with ⟨rfl, rfl⟩ | hk
    · exact hpid
    · exact hs.running k P hk
  · rcases hlive.1 hj with ⟨rfl, -⟩ | hj'
    · rw [Roles.set_self, hnone] at hdj
      cases hdj
    rcases hlive.1 hk with ⟨rfl, -⟩ | hk'
    · rw [Roles.set_self, hnone] at hdk
      cases hdk
    rw [Roles.set_ne ρ _ hj'.ne_length] at hdj
    rw [Roles.set_ne ρ _ hk'.ne_length] at hdk
    exact hs.apart j k P Q d hj' hk' hdj hdk
  · rw [get_enter] at hk
    split at hk
    · rename_i hlen
      subst hlen
      rw [Roles.set_self, hnone] at hd
      cases hd
    · rename_i hlen
      rw [Roles.set_ne ρ _ hlen] at hd
      exact hs.given k P d hk hd

theorem Sound.release {k : Nat} {P : Party} {h : Handle} (hk : s.Live k P)
    (hh : P.stage.handle? = some h) :
    Sound dir name (s.put s.machine k { P with stage := .releasing h.release }) ρ := by
  have halive : ({ P with stage := .releasing h.release } : Party).alive = true := hk.2
  have hlive : ∀ {j P'}, (s.put s.machine k { P with stage := .releasing h.release }).Live j P' ↔
      (j = k ∧ P' = { P with stage := .releasing h.release }) ∨ (j ≠ k ∧ s.Live j P') :=
    live_put hk s.machine halive
  -- the party is the same but for what it is about to do
  have hsame : ∀ {j P'}, (s.put s.machine k { P with stage := .releasing h.release }).Live j P' →
      ∃ Q, s.Live j Q ∧ Q.process = P'.process := by
    intro j P' hj
    rcases hlive.1 hj with ⟨rfl, rfl⟩ | ⟨-, hj⟩
    · exact ⟨P, hk, rfl⟩
    · exact ⟨P', hj, rfl⟩
  refine ⟨hs.wellFormed, fun j Q hj => ?_, fun j Q hj => ?_, fun j Q hj => ?_,
    fun i j P₁ P₂ d hi hj => ?_, fun j Q d hj hd => ?_⟩
  · rw [get_put hk] at hj
    split at hj
    · rename_i hjk
      subst hjk
      cases hj
      obtain ⟨hpath, howner, hout⟩ := (hs.obeys j P hk.1).handle hh
      exact Handle.release_obeys hpath howner hout
    · exact hs.obeys j Q hj
  · obtain ⟨Q', hj, hproc⟩ := hsame hj
    exact hproc ▸ hs.holds j Q' hj
  · obtain ⟨Q', hj, hproc⟩ := hsame hj
    exact hproc ▸ hs.running j Q' hj
  · obtain ⟨_, hi, -⟩ := hsame hi
    obtain ⟨_, hj, -⟩ := hsame hj
    exact hs.apart i j _ _ d hi hj
  · rw [get_put hk] at hj
    split at hj
    · rename_i hjk
      subst hjk
      cases hj
      exact hs.given j P d hk.1 hd
    · exact hs.given j Q d hj hd

/-- **A step from a sound state is a change to a sound state.** -/
theorem Sound.step (h : Step dir name s move s') :
    ∃ ρ', Change dir name s ρ move s' ρ' ∧ Sound dir name s' ρ' := by
  have hw := hs.wellFormed
  have hw' : ∀ table, Machine.WellFormed { s.machine with processes := table } := fun _ =>
    ⟨hw.tree, hw.openedKeys, hw.lockKeys, hw.opened, hw.locked⟩
  cases h with
  | @spawn pid hpos hlt hnone =>
    refine ⟨ρ, .spawn hpos hlt hnone, hs.congr (hw' _) rfl rfl rfl fun p hp => ?_⟩
    simp only [Machine.spawn, Table.get?_insert]
    split
    · rfl
    · exact hp
  | @reap pid hz =>
    refine ⟨ρ, .reap hz, hs.congr (hw' _) rfl rfl rfl fun p hp => ?_⟩
    simp only [Machine.reap, Table.get?_erase]
    split
    · rename_i heq
      rw [heq, hz] at hp
      cases hp
    · exact hp
  | death => exact ⟨ρ, .death, hs.death⟩
  | attempt hpid => exact ⟨_, .attempt hpid, hs.attempt hpid⟩
  | release hk hh => exact ⟨ρ, .release hk hh, hs.release hk hh⟩
  | @reply k P manner c x next m hk hasks hreply =>
    obtain ⟨r, hf, hnext⟩ := (hs.obeys k P hk.1).next hasks hreply.answers
    have ht := hreply.turn hf hw (hs.holds k P hk)
    exact ⟨_, .reply hk hasks hreply hf ht, hs.reply hk hf hnext ht⟩

end Steps

/-- The runs of a contest, with the roles of the parties in the last state. -/
inductive Play (dir : Path) (name : String) (m : Machine) : Past → Contest → Roles → Prop
  | start : Play dir name m [] ⟨m, []⟩ fun _ => .outside
  | next {past : Past} {s s' : Contest} {move : Move} {ρ ρ' : Roles} : Play dir name m past s ρ →
      Change dir name s ρ move s' ρ' → Sound dir name s' ρ' →
      Play dir name m ((s, move) :: past) s' ρ'

theorem sound_start {m : Machine} (hw : m.WellFormed) (ρ : Roles) : Sound dir name ⟨m, []⟩ ρ where
  wellFormed := hw
  obeys _ _ h := by cases h
  holds _ _ h := by cases h.1
  running _ _ h := by cases h.1
  apart _ _ _ _ _ h := by cases h.1
  given _ _ _ h := by cases h

theorem Play.sound {m : Machine} (hw : m.WellFormed) {past : Past}
    (h : Play dir name m past s ρ) : Sound dir name s ρ := by
  cases h with
  | start => exact sound_start hw _
  | next _ _ hs => exact hs

/-- **Every run is a play.** -/
theorem Run.play {m : Machine} (hw : m.WellFormed) {past : Past} (h : Run dir name m past s) :
    ∃ ρ, Play dir name m past s ρ := by
  induction h with
  | start => exact ⟨_, .start⟩
  | next _ hstep ih =>
    obtain ⟨ρ, hplay⟩ := ih
    obtain ⟨ρ', hchange, hs'⟩ := (hplay.sound hw).step hstep
    exact ⟨ρ', hplay.next hchange hs'⟩

end Contest

end NamedMutex
