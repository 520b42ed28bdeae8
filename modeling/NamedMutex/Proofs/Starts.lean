/-
  Contests that start well, and what stays so.

  A machine is fit for a contest if the lock file is absent, or left behind by
  somebody who has it no longer locked, and is text.  The lock directory may be
  missing; then this must hold however much of it is made.

  * `Fit` is the condition on the start;
  * `Play.kept`: from a fit start on, the file to which the path leads is text, and
    only parties lock it.
-/
import NamedMutex.Proofs.Alone
import NamedMutex.Proofs.Plays
import NamedMutex.Proofs.Stamps

namespace NamedMutex

/-- The trees that come of making the directory in which a path ends, however
    often that is tried. -/
inductive FileTree.Prepared (path : Path) (t : FileTree) : FileTree → Prop
  | start : Prepared path t t
  | again {t' : FileTree} : Prepared path t t' → Prepared path t (t'.withLockDir path)

theorem FileTree.Prepared.eq_of_settled {path : Path} {t t' : FileTree} (hs : t.Settled path)
    (h : t.Prepared path t') : t' = t := by
  induction h with
  | start => rfl
  | again _ ih => rw [ih, withLockDir_of_settled hs]

/-- Until the directory is there, a turn makes a part of it at most. -/
theorem FileTree.Turn.prepared {path : Path} {written : Bytes → Prop} {owns : Inode → Prop}
    {unlinks : Prop} {t₀ t t' : FileTree} (ht : t.Turn path written owns unlinks t')
    (hs : ¬ t.Settled path) (h : t₀.Prepared path t) : t₀.Prepared path t' := by
  rcases ht.unsettled with rfl | rfl | hs'
  · exact h
  · exact h.again
  · exact absurd hs' hs

/-- There is no file at the path, however much of its directory is made. -/
def FileTree.Absent (path : Path) (t : FileTree) : Prop :=
  ∀ t' i, t.Prepared path t' → ¬ t'.Leads path i

/-- Where the directory is there, the lock file is absent if the path leads nowhere. -/
theorem FileTree.absent_of_settled {path : Path} {t : FileTree} (hs : t.Settled path)
    (h : ∀ i, ¬ t.Leads path i) : t.Absent path := by
  intro t' i ht hl
  rw [ht.eq_of_settled hs] at hl
  exact h i hl

/-- A machine on which a contest may start: there is no file at the path, or it is
    text and not locked. -/
structure Fit (path : Path) (m : Machine) : Prop where
  wellFormed : m.WellFormed
  left : ∀ t i, m.tree.Prepared path t → t.Leads path i → m.locks.get? i = none ∧
    ∃ bytes, t.file? i = some bytes ∧ (Utf8.decode? bytes).isSome = true

theorem Fit.of_absent {path : Path} {m : Machine} (hw : m.WellFormed) (h : m.tree.Absent path) :
    Fit path m := ⟨hw, fun t i ht hl => absurd hl (h t i ht)⟩

namespace Contest

theorem settled_bare (pid : Pid) : (Machine.bare pid).tree.Settled (lockPath root "a") := by
  intro dir hdir
  have hroot : (lockPath root "a").parent? = some root := by decide
  rw [hroot] at hdir
  cases hdir
  exact Or.inr (by rfl)

theorem absent_bare (pid : Pid) : (Machine.bare pid).tree.Absent (lockPath root "a") := by
  obtain ⟨e, hfind⟩ : ∃ e, (Machine.bare pid).tree.find .node (lockPath root "a") = .error e :=
    ⟨_, rfl⟩
  refine FileTree.absent_of_settled (settled_bare pid) fun i hl => ?_
  rw [FileTree.Leads, hfind] at hl
  cases hl

variable {dir : Path} {name : String} {m : Machine} {past : Past} {s s' : Contest} {ρ ρ' : Roles}
  {move : Move}

/-- What holds of all states after a fit start. -/
structure Kept (path : Path) (m : Machine) (past : Past) (s : Contest) (ρ : Roles) : Prop where
  tree : s.machine.tree.Settled path ∨ m.tree.Prepared path s.machine.tree
  nodes : ∀ i, (m.tree.node? i).isSome = true → (s.machine.tree.node? i).isSome = true
  /-- A lock that was not there from the start is that of a party. -/
  locks : ∀ i d, s.machine.locks.get? i = some d →
    (∃ k P, s.Live k P ∧ (ρ k).file = some d) ∨ m.locks.get? i = some d
  text : ∀ i, s.machine.tree.Leads path i →
    ∃ bytes, s.machine.tree.file? i = some bytes ∧ (Utf8.decode? bytes).isSome = true
  /-- Nobody else has ever locked a file to which the path led. -/
  free : ∀ u ∈ states past s, ∀ i, u.machine.tree.Leads path i → m.locks.get? i = none

theorem kept_start {path : Path} (hfit : Fit path m) : Kept path m [] ⟨m, []⟩ ρ where
  tree := Or.inr .start
  nodes _ hi := hi
  locks _ _ hl := Or.inr hl
  text i hl := (hfit.left _ i .start hl).2
  free u hu i hl := by
    rw [List.mem_singleton.1 hu] at hl
    exact (hfit.left _ i .start hl).1

/-- Steps that leave the files alone, and take locks away at most. -/
theorem Kept.congr {path : Path} (h : Kept path m past s ρ)
    (htree : s'.machine.tree = s.machine.tree)
    (hlocks : ∀ i d, s'.machine.locks.get? i = some d → s.machine.locks.get? i = some d ∧
      ∀ k P, s.Live k P → (ρ k).file = some d → ∃ P', s'.Live k P' ∧ (ρ' k).file = some d) :
    Kept path m ((s, move) :: past) s' ρ' where
  tree := htree ▸ h.tree
  nodes := htree ▸ h.nodes
  locks i d hl := by
    obtain ⟨hold, hparties⟩ := hlocks i d hl
    rcases h.locks i d hold with ⟨k, P, hk, hd⟩ | hstart
    · obtain ⟨P', hk', hd'⟩ := hparties k P hk hd
      exact Or.inl ⟨k, P', hk', hd'⟩
    · exact Or.inr hstart
  text := htree ▸ h.text
  free u hu i hl := by
    rcases mem_states.1 hu with rfl | hu
    · rw [htree] at hl
      exact h.free s (List.mem_cons_self ..) i hl
    · exact h.free u hu i hl

/-- After a turn the path leads where it led, or to a file that was left or that was
    just made; and that file is text. -/
theorem Kept.linked {path : Path} (hfit : Fit path m) (h : Kept path m past s ρ) {me : Pid}
    {r r' : Role} {m' : Machine} {manner : Manner}
    (ht : Turn path me (manner.Leaves me) r s.machine r' m') {i : Inode}
    (hl : m'.tree.Leads path i) : m.locks.get? i = none ∧
      ∃ bytes, m'.tree.file? i = some bytes ∧ (Utf8.decode? bytes).isSome = true := by
  by_cases hs : s.machine.tree.Settled path
  · rcases ht.tree.linked hs i hl with hl | ⟨hnone, hnode⟩
    · refine ⟨h.free s (List.mem_cons_self ..) i hl, ?_⟩
      obtain ⟨bytes, hfile, htext⟩ := h.text i hl
      have hnode := FileTree.isSome_node?_of_file? hfile
      rcases ht.tree.files i hnode with hsame | ⟨-, bytes', hfile', hwritten⟩
      · exact ⟨bytes, hsame.trans hfile, htext⟩
      · have htorn : Stamp.Torn me bytes' := by
          cases manner with
          | torn => exact hwritten
          | answered | failed => exact hwritten.torn
        exact ⟨bytes', hfile', Stamp.isSome_decode?_prefix htorn⟩
    · refine ⟨?_, [], by simp [FileTree.file?, hnode], rfl⟩
      cases hlock : m.locks.get? i with
      | none => rfl
      | some d =>
        have hold := h.nodes i (hfit.wellFormed.lockNode hlock)
        rw [hnone] at hold
        cases hold
  · exact hfit.left _ i (ht.tree.prepared hs (h.tree.resolve_left hs)) hl

theorem Kept.turn {path : Path} (hfit : Fit path m) (h : Kept path m past s ρ) {k : Nat}
    {P P' : Party} {r : Role} {m' : Machine} {manner : Manner}
    (hk : s.Live k P) (hP' : P'.alive = true)
    (ht : Turn path P.process (manner.Leaves P.process) (ρ k) s.machine r m') :
    Kept path m ((s, move) :: past) (s.put m' k P') (ρ.set k r) := by
  refine ⟨?_, fun i hi => (ht.tree.keeps i (h.nodes i hi)).1, fun i d hl => ?_,
    fun i hl => (h.linked hfit ht hl).2, fun u hu i hl => ?_⟩
  · by_cases hs : s.machine.tree.Settled path
    · exact Or.inl (ht.tree.settled hs)
    · exact Or.inr (ht.tree.prepared hs (h.tree.resolve_left hs))
  · have hself : (s.put m' k P').Live k P' := (live_put hk m' hP').2 (Or.inl ⟨rfl, rfl⟩)
    rcases ht.taken i d hl with hold | rfl
    · rcases h.locks i d hold with ⟨j, Q, hj, hd⟩ | hstart
      · refine Or.inl ?_
        by_cases hjk : j = k
        · subst hjk
          refine ⟨j, P', hself, ?_⟩
          rw [Roles.set_self]
          exact Decidable.byContradiction fun hne => ht.dropped i d hd hne hl
        · exact ⟨j, Q, (live_put hk m' hP').2 (Or.inr ⟨hjk, hj⟩), by rwa [Roles.set_ne ρ r hjk]⟩
      · exact Or.inr hstart
    · exact Or.inl ⟨k, P', hself, by rw [Roles.set_self]; rfl⟩
  · rcases mem_states.1 hu with rfl | hu
    · exact (h.linked hfit ht hl).1
    · exact h.free u hu i hl

theorem Kept.step (hfit : Fit (lockPath dir name) m)
    (h : Kept (lockPath dir name) m past s ρ) (hs : Sound dir name s ρ)
    (hc : Change dir name s ρ move s' ρ') :
    Kept (lockPath dir name) m ((s, move) :: past) s' ρ' := by
  have hw := hs.wellFormed
  cases hc with
  | spawn | reap => exact h.congr rfl fun i d hl => ⟨hl, fun k P hk hd => ⟨P, hk, hd⟩⟩
  | @death pid =>
    refine h.congr (Machine.tree_kill hw pid) fun i d hl => ?_
    obtain ⟨hold, hothers⟩ := (Machine.locks_kill hw).1 hl
    refine ⟨hold, fun k P hk hd => ⟨P, live_bury.2 ⟨hk, ?_⟩, hd⟩⟩
    obtain ⟨f, hf, hme, -⟩ := (hs.holds k P hk).file d hd
    exact hme ▸ hothers f hf
  | attempt =>
    refine h.congr rfl fun i d hl => ⟨hl, fun k P hk hd => ⟨P, (live_enter rfl).2 (Or.inr hk), ?_⟩⟩
    rwa [Roles.set_ne ρ _ hk.ne_length]
  | @release k P handle hk hh =>
    refine h.congr rfl fun i d hl => ⟨hl, fun j Q hj hd => ?_⟩
    have halive : ({ P with stage := .releasing handle.release } : Party).alive = true := hk.2
    by_cases hjk : j = k
    · exact ⟨_, (live_put hk _ halive).2 (Or.inl ⟨hjk, rfl⟩), hd⟩
    · exact ⟨Q, (live_put hk _ halive).2 (Or.inr ⟨hjk, hj⟩), hd⟩
  | reply hk hasks hreply hf ht => exact h.turn hfit hk hk.2 ht

/-- **After a fit start the lock file is text, and only parties lock it.** -/
theorem Play.kept (hfit : Fit (lockPath dir name) m) (h : Play dir name m past s ρ) :
    Kept (lockPath dir name) m past s ρ := by
  induction h with
  | start => exact kept_start hfit
  | next hplay hc _ ih => exact ih.step hfit (hplay.sound hfit.wellFormed) hc

end Contest

end NamedMutex
