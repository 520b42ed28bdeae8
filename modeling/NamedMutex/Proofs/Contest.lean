/-
  A contest: any number of attempts and releases on one machine, call by call.

  Parties are attempts, with the releases of the handles that they yield.  They
  belong to processes; several may belong to one, as its threads do.  In every
  step one party is given the answer to its next call, or a party enters, or
  turns to its release, or a process starts, dies or is forgotten.

  * `Replies`: a call may be answered, or fail for no reason that the machine
    knows, and a write may break off half-way;
  * `Run` is a run of a contest that starts on some machine, with all that came
    before its last state.
-/
import NamedMutex.Handle
import NamedMutex.Machine.Basic

namespace NamedMutex

namespace Call

/-- The answer that tells of an error, for a call that may fail.  Asked where a
    path leads, the system says no. -/
def failed? (e : IoError) : (c : Call) → Option c.Answer
  | makeDirs _ | tryLock _ | truncate _ | rewind _ | write _ _ | unlink _ | unlock _ =>
    some (.error e)
  | openFile _ => some (.error e)
  | read _ | readPath _ => some (.error e)
  | leadsTo _ _ => some false
  | close _ | ownPid | probe _ | now | sleep _ | isRegistered _ | register _ | unregister _
  | say _ => none

/-- Whether an answer tells of a failure that an attempt gives up for: one of the
    operations on its file or its directory, contention apart. -/
def troubles : (c : Call) → c.Answer → Bool
  | makeDirs _, .error _ | truncate _, .error _ | rewind _, .error _ | write _ _, .error _ => true
  | openFile _, .error _ => true
  | read _, .error _ => true
  | tryLock _, .error e => ¬ e.IsContention
  | _, _ => false

/-- The file that an answer gives. -/
def opened : (c : Call) → c.Answer → List Descriptor
  | openFile _, .ok file => [file]
  | _, _ => []

end Call

/-- How far a party has come. -/
inductive Stage where
  /-- What is left of its attempt. -/
  | attempting (rest : Program (Except IoError Handle))
  /-- What is left of the release of its handle. -/
  | releasing (rest : Program Handle)

namespace Stage

/-- The next call of a stage, and the stages that follow its answers. -/
inductive Asks : Stage → (c : Call) → (c.Answer → Stage) → Prop
  | attempting {c : Call} {next : c.Answer → Program (Except IoError Handle)} :
      Asks (.attempting (.ask c next)) c fun x => .attempting (next x)
  | releasing {c : Call} {next : c.Answer → Program Handle} :
      Asks (.releasing (.ask c next)) c fun x => .releasing (next x)

/-- A call is still to be made. -/
def InFlight (stage : Stage) : Prop := ∃ c next, stage.Asks c next

/-- An attempt of which a call is still to be made. -/
def Attempts : Stage → Prop
  | .attempting (.ask _ _) => True
  | _ => False

/-- The handle of a party whose attempt, or release, is complete. -/
def handle? : Stage → Option Handle
  | .attempting (.done (.ok h)) => some h
  | .releasing (.done h) => some h
  | _ => none

end Stage

/-- An attempt and what comes of it. -/
structure Party where
  process : Pid
  alive : Bool
  stage : Stage
  /-- The files that it was given. -/
  files : List Descriptor

namespace Party

/-- A party whose call was answered. -/
def told (P : Party) (c : Call) (x : c.Answer) (stage : Stage) : Party :=
  { P with stage := stage, files := c.opened x ++ P.files }

/-- A party after the death of a process. -/
def survive (P : Party) (pid : Pid) : Party :=
  { P with alive := P.alive && decide (P.process ≠ pid) }

/-- A call is still to be made, or the mutex is held. -/
def Busy (P : Party) : Prop :=
  P.stage.InFlight ∨ ∃ h, P.stage.handle? = some h ∧ h.isAcquired = true

end Party

/-- A machine and the parties on it. -/
structure Contest where
  machine : Machine
  parties : List Party

/-- How a call comes by its answer. -/
inductive Manner where
  /-- The machine answers. -/
  | answered
  /-- The call fails, and nothing is done. -/
  | failed
  /-- A write breaks off. -/
  | torn
  deriving DecidableEq, Repr

/-- What happens in a contest. -/
inductive Move where
  /-- A process starts. -/
  | spawn (pid : Pid)
  /-- A dead process is forgotten. -/
  | reap (pid : Pid)
  /-- A process dies, at whatever point its parties are. -/
  | death (pid : Pid)
  /-- A process begins an attempt. -/
  | attempt (pid : Pid)
  /-- The handle of a party is released. -/
  | release (k : Nat)
  /-- The next call of a party is answered. -/
  | reply (k : Nat) (manner : Manner) (c : Call) (x : c.Answer)

/-- What happens where nothing fails and nobody gives up the mutex. -/
def Move.Calm : Move → Prop
  | attempt _ => True
  | reply _ .answered c x => c.troubles x = false
  | _ => False

/-- The answers that a process may get to a call, and the machines after them. -/
inductive Replies (m : Machine) (pid : Pid) : Manner → (c : Call) → c.Answer → Machine → Prop
  | answered {c : Call} : Replies m pid .answered c (m.perform pid c).1 (m.perform pid c).2
  | failed {c : Call} {x : c.Answer} {e : IoError} : c.failed? e = some x →
      Replies m pid .failed c x m
  | torn {file : Descriptor} {bytes : Bytes} {n : Nat} {e : IoError} :
      Replies m pid .torn (.write file bytes) (.error e)
        (m.perform pid (.write file (bytes.take n))).2

namespace Contest

/-- The party number `k` is `P`, and alive. -/
def Live (s : Contest) (k : Nat) (P : Party) : Prop :=
  s.parties[k]? = some P ∧ P.alive = true

/-- A contest in which the party number `k` is another. -/
def put (s : Contest) (m : Machine) (k : Nat) (P : Party) : Contest := ⟨m, s.parties.set k P⟩

/-- A contest with a party more. -/
def enter (s : Contest) (P : Party) : Contest := ⟨s.machine, s.parties ++ [P]⟩

/-- A contest after the death of a process. -/
def bury (s : Contest) (pid : Pid) : Contest :=
  ⟨s.machine.kill pid, s.parties.map (·.survive pid)⟩

/-- The party that begins an attempt. -/
def entrant (dir : Path) (name : String) (pid : Pid) : Party :=
  ⟨pid, true, .attempting (Handle.acquire dir name), []⟩

/-! ## Parties after a step -/

section Parties
variable {s : Contest}

theorem get_put {k : Nat} {P Q : Party} (hk : s.Live k P) (m : Machine) (j : Nat) :
    (s.put m k Q).parties[j]? = if j = k then some Q else s.parties[j]? := by
  have hlt : k < s.parties.length := (List.getElem?_eq_some_iff.1 hk.1).1
  simp only [put, List.getElem?_set, if_pos hlt, eq_comm (a := k)]

theorem get_enter (P : Party) (j : Nat) :
    (s.enter P).parties[j]? = if j = s.parties.length then some P else s.parties[j]? := by
  simp only [enter]
  split
  · rename_i hj
    subst hj
    simp
  · rename_i hj
    rcases Nat.lt_or_gt_of_ne hj with h | h
    · exact List.getElem?_append_left h
    · rw [List.getElem?_eq_none (by simp; omega), List.getElem?_eq_none (by omega)]

theorem get_bury (pid : Pid) (j : Nat) :
    (s.bury pid).parties[j]? = s.parties[j]?.map (·.survive pid) := by
  simp only [bury, List.getElem?_map]

theorem live_put {k : Nat} {P Q : Party} (hk : s.Live k P) (m : Machine) (hQ : Q.alive = true)
    {j : Nat} {P' : Party} : (s.put m k Q).Live j P' ↔
      (j = k ∧ P' = Q) ∨ (j ≠ k ∧ s.Live j P') := by
  unfold Live
  rw [get_put hk]
  by_cases hj : j = k
  · subst hj
    rw [if_pos rfl]
    constructor
    · rintro ⟨h, -⟩
      cases h
      exact Or.inl ⟨rfl, rfl⟩
    · rintro (⟨-, rfl⟩ | ⟨h, -⟩)
      · exact ⟨rfl, hQ⟩
      · exact absurd rfl h
  · simp [hj]

theorem live_enter {P : Party} (hP : P.alive = true) {j : Nat} {P' : Party} :
    (s.enter P).Live j P' ↔ (j = s.parties.length ∧ P' = P) ∨ s.Live j P' := by
  unfold Live
  rw [get_enter]
  by_cases hj : j = s.parties.length
  · subst hj
    simp only [if_true, Option.some.injEq, true_and, List.getElem?_eq_none (Nat.le_refl _),
      reduceCtorEq, false_and, or_false]
    constructor
    · rintro ⟨rfl, -⟩
      rfl
    · rintro rfl
      exact ⟨rfl, hP⟩
  · simp [hj]

theorem Live.ne_length {j : Nat} {P : Party} (h : s.Live j P) : j ≠ s.parties.length := by
  rintro rfl
  have hnone := h.1
  rw [List.getElem?_eq_none (Nat.le_refl _)] at hnone
  cases hnone

/-- Who lives on after a death lived before, and belongs to another process. -/
theorem live_bury {pid : Pid} {j : Nat} {P' : Party} :
    (s.bury pid).Live j P' ↔ s.Live j P' ∧ P'.process ≠ pid := by
  unfold Live
  rw [get_bury, Option.map_eq_some_iff]
  constructor
  · rintro ⟨⟨P, hP, rfl⟩, halive⟩
    simp only [Party.survive, Bool.and_eq_true, decide_eq_true_eq] at halive
    have hsame : P.survive pid = P := by
      simp [Party.survive, halive.2]
    rw [hsame]
    exact ⟨⟨hP, halive.1⟩, halive.2⟩
  · rintro ⟨⟨hP, halive⟩, hpid⟩
    have hsame : P'.survive pid = P' := by
      simp [Party.survive, hpid]
    exact ⟨⟨P', hP, hsame⟩, halive⟩

end Parties

/-! ## Steps and runs -/

/-- The steps of a contest for the mutex `name` in `dir`. -/
inductive Step (dir : Path) (name : String) : Contest → Move → Contest → Prop
  | spawn {s : Contest} {pid : Pid} : 0 < pid → pid < Pid.limit →
      s.machine.processes.get? pid = none →
      Step dir name s (.spawn pid) ⟨s.machine.spawn pid, s.parties⟩
  | reap {s : Contest} {pid : Pid} : s.machine.processes.get? pid = some .zombie →
      Step dir name s (.reap pid) ⟨s.machine.reap pid, s.parties⟩
  | death {s : Contest} {pid : Pid} : s.machine.processes.get? pid = some .running →
      Step dir name s (.death pid) (s.bury pid)
  | attempt {s : Contest} {pid : Pid} : s.machine.processes.get? pid = some .running →
      Step dir name s (.attempt pid) (s.enter (entrant dir name pid))
  | release {s : Contest} {k : Nat} {P : Party} {h : Handle} : s.Live k P →
      P.stage.handle? = some h →
      Step dir name s (.release k) (s.put s.machine k { P with stage := .releasing h.release })
  | reply {s : Contest} {k : Nat} {P : Party} {manner : Manner} {c : Call} {x : c.Answer}
      {next : c.Answer → Stage} {m : Machine} : s.Live k P → P.stage.Asks c next →
      Replies s.machine P.process manner c x m →
      Step dir name s (.reply k manner c x) (s.put m k (P.told c x (next x)))

/-- What was, the latest first: states, and the moves that were made in them. -/
abbrev Past := List (Contest × Move)

/-- The runs of a contest that starts with the machine `m`: what was, and the
    last state. -/
inductive Run (dir : Path) (name : String) (m : Machine) : Past → Contest → Prop
  | start : Run dir name m [] ⟨m, []⟩
  | next {past : Past} {s s' : Contest} {move : Move} : Run dir name m past s →
      Step dir name s move s' → Run dir name m ((s, move) :: past) s'

/-- The states of a run, the latest first. -/
def states (past : Past) (s : Contest) : List Contest := s :: past.map (·.1)

section Past
variable {dir : Path} {name : String} {m : Machine} {past : Past} {s s' u : Contest} {move : Move}

theorem mem_states : u ∈ states ((s, move) :: past) s' ↔ u = s' ∨ u ∈ states past s := by
  simp only [states, List.map_cons, List.mem_cons]

theorem Step.parties_le (h : Step dir name s move s') :
    s.parties.length ≤ s'.parties.length := by
  cases h with
  | spawn | reap => exact Nat.le_refl _
  | death => simp [bury]
  | attempt => simp [enter]
  | release | reply => simp [put]

theorem Run.parties_le (h : Run dir name m past s) :
    ∀ u ∈ states past s, u.parties.length ≤ s.parties.length := by
  induction h with
  | start =>
    intro u hu
    obtain rfl := List.mem_singleton.1 hu
    exact Nat.le_refl _
  | next _ hstep ih =>
    intro u hu
    rcases mem_states.1 hu with rfl | hu
    · exact Nat.le_refl _
    · exact Nat.le_trans (ih u hu) hstep.parties_le

theorem Run.reply_live (h : Run dir name m past s) {k : Nat} {manner : Manner} {c : Call}
    {x : c.Answer} (hmem : (u, .reply k manner c x) ∈ past) :
    u ∈ states past s ∧ ∃ P, u.Live k P := by
  induction h with
  | start => exact absurd hmem List.not_mem_nil
  | next _ hstep ih =>
    rcases List.mem_cons.1 hmem with heq | hmem
    · cases heq
      cases hstep with
      | reply hk => exact ⟨mem_states.2 (Or.inr (List.mem_cons_self ..)), _, hk⟩
    · obtain ⟨hu, hlive⟩ := ih hmem
      exact ⟨mem_states.2 (Or.inr hu), hlive⟩

end Past

end Contest

end NamedMutex
