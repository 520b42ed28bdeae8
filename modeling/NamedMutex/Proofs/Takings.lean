/-
  Acquisitions that nobody disturbs, of any file.

  An attempt on its own takes the mutex if its directory can be made, its file opened, and the
  file is not locked and holds text.  Else it takes nothing.

  * `Machine.Offers` is what an attempt needs, and `Offers.reports` how it goes then: the file is
    locked and stamped, and the attempt reports whose stamp it has found (`remarks`);
  * `rounds_cases`, `acquire_cases`: there is no other way to take a mutex;
  * `stamped_of_acquired`: whoever has the mutex has stamped the file at its path.
-/
import NamedMutex.Proofs.LockDirs
import NamedMutex.Proofs.Reports
import NamedMutex.Proofs.Unopposed

namespace NamedMutex

open Program

/-! ## The calls that write a stamp -/

open Attempt in
theorem Attempt.avoids_restamp {kind : Call → Bool} (me : Pid) (d : Descriptor)
    (htruncate : kind (.truncate d) = false) (hrewind : kind (.rewind d) = false)
    (hwrite : ∀ bytes, kind (.write d bytes) = false) : (restamp me d).Avoids kind := by
  have hthen : ∀ {p : Program (Except IoError Unit)}, p.Avoids kind →
      ∀ step, (andThen step p).Avoids kind := by
    intro p hp step
    cases step with
    | error => exact avoids_pure _
    | ok => exact hp
  refine .bind (avoids_call htruncate) (hthen (.bind (avoids_call hrewind) (hthen ?_)))
  exact .bind (avoids_call (hwrite _)) (hthen (avoids_call (hwrite _)))

namespace Machine

/-! ## Whose stamp was found -/

/-- What an attempt reports on the content of the file that it takes. -/
def remarks (m : Machine) (me : Pid) (path : Path) (content : String) : List Event :=
  match Stamp.parse? content with
  | none => []
  | some pid =>
    if pid = me then [.ownStamp path]
    else if m.sees pid then [.formerOwnerAlive path pid]
    else [.reclaimed path pid]

theorem reports_reportFormerOwner (m : Machine) (me : Pid) (path : Path) (content : String) :
    m.Reports me (Attempt.reportFormerOwner path me content) (m.remarks me path content) () m := by
  unfold Attempt.reportFormerOwner remarks
  cases Stamp.parse? content with
  | none => exact reports_pure _
  | some pid =>
    by_cases hme : pid = me
    · simp only [if_pos hme]
      exact .report (reports_pure _)
    · simp only [if_neg hme]
      have halive : m.Reports me (isAlive pid) [] (m.sees pid) m :=
        (gives_isAlive m me pid).reports (isMute_isAlive pid)
      refine .bind halive ?_
      cases m.sees pid <;> exact .report (reports_pure _)

/-! ## Files to take -/

/-- A file at a path may be taken: it can be opened, nobody has locked it, and it holds text. -/
structure Offers (m : Machine) (path : Path) (t : FileTree) (i : Inode) (old : Bytes)
    (content : String) : Prop where
  opens : m.tree.openPath [.read, .write] path = .ok (t, i)
  leads : t.Leads path i
  file : t.file? i = some old
  free : m.locks.get? i = none
  text : Utf8.decode? old = some content

variable {m : Machine} {me : Pid} {q path : Path} {t : FileTree} {i : Inode} {old : Bytes}
  {content : String}

/-- **A file that is offered is taken** and stamped, with a remark on whose stamp it carried. -/
theorem Offers.reports (h : m.Offers path t i old content) (rounds : Nat) :
    m.Reports me (Attempt.tryRounds path (rounds + 1)) (m.remarks me path content)
      (.ok (some m.nextDescriptor)) (m.taken me i t) := by
  obtain ⟨mode, owned, hn⟩ := FileTree.file?_eq_some.1 h.file
  have hread : readText (.ok (t.bytesOf i)) = .ok content := by
    simp only [readText, FileTree.bytesOf_of_file? h.file, h.text]
  refine .ask rfl rfl (answer_openFile h.opens) ?_
  refine .ask rfl rfl (answer_tryLock h.free) (.ask rfl rfl (answer_leadsTo h.leads) ?_)
  rw [← List.append_nil (m.remarks me path content)]
  refine .bind (a := .ok ()) (.ask rfl rfl answer_read ?_) (reports_pure _)
  simp only [hread]
  refine .ask (c := .ownPid) rfl rfl rfl ?_
  rw [← List.append_nil (m.remarks me path content)]
  refine .bind (reports_reportFormerOwner _ me path content) ?_
  exact (gives_restamp hn).reports (Attempt.avoids_restamp me _ rfl rfl fun _ => rfl)

/-- An attempt is in vain. -/
def InVain (m : Machine) (me : Pid) (p : Program Attempt) : Prop :=
  ∃ x n, m.Gives me p x n ∧ ∀ d, x ≠ .ok (some d)

theorem InVain.of_none {p : Program Attempt} {n : Machine} (h : m.Gives me p (.ok none) n) :
    m.InVain me p := ⟨_, _, h, nofun⟩

theorem InVain.of_failing {p : Program Attempt} {n : Machine} {e : IoError}
    (h : m.Gives me p (failing e) n) : m.InVain me p := by
  refine ⟨_, _, h, fun d => ?_⟩
  unfold failing
  split <;> nofun

/-- There is no other way to take a file than to be offered it. -/
theorem rounds_cases (hw : m.WellFormed) (me : Pid) (path : Path) (rounds : Nat) :
    (∃ t i old content, m.Offers path t i old content) ∨
      m.InVain me (Attempt.tryRounds path (rounds + 1)) := by
  cases hopen : m.tree.openPath [.read, .write] path with
  | error e => exact Or.inr (.of_failing (gives_tryRounds_failed hopen))
  | ok opened =>
    obtain ⟨t, i⟩ := opened
    have hl : t.Leads path i := by
      rcases FileTree.openPath_cases hw.tree hopen with ⟨rfl, hl, -⟩ | ⟨-, -, -, hl, -⟩
      · exact hl
      · exact hl
    cases hlock : m.locks.get? i with
    | some d => exact Or.inr (.of_none (gives_tryRounds_refused hopen hw hlock))
    | none =>
      cases hfile : t.file? i with
      | none =>
        refine Or.inr (.of_none (gives_tryRounds_device hopen hw hl hlock ?_))
        intro bytes mode owned hn
        rw [FileTree.file?_eq_some.2 ⟨mode, owned, hn⟩] at hfile
        cases hfile
      | some old =>
        cases htext : Utf8.decode? old with
        | some content => exact Or.inl ⟨t, i, old, content, hopen, hl, hfile, hlock, htext⟩
        | none =>
          have hbad : Utf8.decode? (t.bytesOf i) = none := by
            rw [FileTree.bytesOf_of_file? hfile, htext]
          exact Or.inr (.of_none (gives_tryRounds_illegible hopen hw hl hlock hbad))

theorem Offers.tree (h : m.Offers path t i old content) (hw : m.WellFormed) :
    t.WellFormed ∧ t.may i .read = true := by
  rcases FileTree.openPath_cases hw.tree h.opens with ⟨rfl, -, -, hmay⟩ | ⟨-, -, hgrows, -, hnode⟩
  · exact ⟨hw.tree, hmay⟩
  · refine ⟨hgrows.wellFormed, ?_⟩
    simp only [FileTree.may, hnode]
    exact FileTree.fileMode_allows .read (by simp)

section Taken
variable (h : m.Offers path t i old content)
include h

theorem Offers.file?_taken : (m.taken me i t).tree.file? i = some (Stamp.text me) := by
  obtain ⟨mode, owned, hn⟩ := FileTree.file?_eq_some.1 h.file
  exact FileTree.file?_rewrite hn

theorem Offers.leads_taken (hw : m.WellFormed) : (m.taken me i t).tree.Leads path i := by
  obtain ⟨mode, owned, hn⟩ := FileTree.file?_eq_some.1 h.file
  exact (FileTree.leads_rewrite hn (h.tree hw).1).2 h.leads

theorem Offers.readPath_taken (hw : m.WellFormed) :
    (m.taken me i t).tree.readPath path = .ok (Stamp.text me) := by
  obtain ⟨mode, owned, hn⟩ := FileTree.file?_eq_some.1 h.file
  have hnode : (t.node? i).isSome = true := by rw [hn, Option.isSome_some]
  have hfile : (m.taken me i t).tree.file? i = some (Stamp.text me) := h.file?_taken
  have hmay : (m.taken me i t).tree.may i .read = true :=
    ((FileTree.rewrite_within hn).may hnode _).trans (h.tree hw).2
  have hread := FileTree.readPath_of_leads (h.leads_taken hw) hmay
    (FileTree.isDirectory_of_file? hfile)
  rwa [FileTree.bytesOf_of_file? hfile] at hread

end Taken

/-! ## Acquisitions -/

section Attempt
variable {t₀ : FileTree} (hq : path.parent? = some q) (hmake : m.tree.makeDirs q = (t₀, .ok ()))
include hq hmake

/-- Once its directory is made, an attempt is a matter of the file. -/
theorem Ends.attempt {Q : Attempt → Machine → Prop}
    (h : (m.setTree t₀).Ends me (Attempt.tryRounds path Attempt.rounds) Q) :
    m.Ends me (attempt path) Q := by
  have hanswer : m.answer me (.makeDirs q) = (.ok (), m.setTree t₀) := by simp only [answer, hmake]
  refine Ends.within ?_ _
  simp only [hq]
  exact Ends.ask rfl hanswer h

theorem Reports.attempt {events : List Event} {x : Attempt} {n : Machine}
    (h : (m.setTree t₀).Reports me (Attempt.tryRounds path Attempt.rounds) events x n) :
    m.Reports me (attempt path) events x n := by
  have hanswer : m.answer me (.makeDirs q) = (.ok (), m.setTree t₀) := by simp only [answer, hmake]
  refine .within ?_ _
  simp only [hq]
  exact .ask rfl rfl hanswer h

end Attempt

theorem attempt_cases (hw : m.WellFormed) (me : Pid) (hq : path.parent? = some q) :
    (∃ t₀ t i old content, m.tree.makeDirs q = (t₀, .ok ()) ∧ (m.setTree t₀).WellFormed ∧
      (m.setTree t₀).Offers path t i old content) ∨ m.InVain me (attempt path) := by
  have hgrows := FileTree.makeDirs_grows hw.tree q
  cases hmake : m.tree.makeDirs q with | mk t₀ made
  rw [hmake] at hgrows
  have hw₀ : (m.setTree t₀).WellFormed := hw.setTree hgrows.wellFormed hgrows.toWithin.keeps
  cases made with
  | error e =>
    have hanswer : m.answer me (.makeDirs q) = (.error e, m.setTree t₀) := by
      simp only [answer, hmake]
    have hgives : m.Gives me (attempt path) (failing e) (m.setTree t₀) := by
      refine Ends.within ?_ _
      simp only [hq]
      exact Ends.ask rfl hanswer (gives_fail _ me e _)
    exact Or.inr (.of_failing hgives)
  | ok =>
    rcases rounds_cases hw₀ me path 2 with ⟨t, i, old, content, hoffers⟩ | ⟨x, n, hgives, hx⟩
    · exact Or.inl ⟨t₀, t, i, old, content, rfl, hw₀, hoffers⟩
    · exact Or.inr ⟨x, n, hgives.attempt hq hmake, hx⟩

variable {dir : Path} {name : String}

theorem Reports.acquire {events : List Event} {d : Descriptor} {n : Machine}
    (hname : IsValidName name)
    (h : m.Reports me (NamedMutex.attempt (lockPath dir name)) events (.ok (some d)) n) :
    m.Reports me (Handle.acquire dir name) (events ++ [.acquired name (lockPath dir name)])
      (.ok (.ofAttempt name (lockPath dir name) (some d))) n := by
  refine .within ?_ _
  rw [if_pos hname]
  refine .bind h ?_
  exact .report (reports_pure _)

/-- **An acquisition on its own** acquires the mutex only by taking the file that it is
    offered. -/
theorem acquire_cases (hw : m.WellFormed) (hname : IsValidName name)
    (hq : (lockPath dir name).parent? = some q) {h : Handle} {m' : Machine}
    (hrun : m.run me (Handle.acquire dir name) = (.returned (.ok h), m'))
    (hacq : h.isAcquired = true) : ∃ t₀ t i old content clock news,
      m.tree.makeDirs q = (t₀, .ok ()) ∧ (m.setTree t₀).WellFormed ∧
      (m.setTree t₀).Offers (lockPath dir name) t i old content ∧
      m' = ((m.setTree t₀).taken me i t).moment clock (news ++ m.said) ∧
      heard news = eventsBy me
        (m.remarks me (lockPath dir name) content ++ [.acquired name (lockPath dir name)]) := by
  rcases attempt_cases hw me hq with
    ⟨t₀, t, i, old, content, hmake, hw₀, hoffers⟩ | ⟨x, n, hgives, hx⟩
  · have hattempt : m.Reports me (attempt (lockPath dir name)) _ _ _ :=
      (hoffers.reports 2).attempt hq hmake
    obtain ⟨clock, news, -, hend, hheard⟩ := (hattempt.acquire hname).run
    rw [hrun] at hend
    exact ⟨t₀, t, i, old, content, clock, news, hmake, hw₀, hoffers, (Prod.mk.inj hend).2, hheard⟩
  · obtain ⟨_, _, -, hvain⟩ := (gives_acquire_of_attempt hname hgives).run
    rw [hrun] at hvain
    have hend := Completion.returned.inj (Prod.mk.inj hvain).1
    match x, hx with
    | .error e, _ => cases hend
    | .ok none, _ =>
      obtain rfl := Except.ok.inj hend
      cases hacq
    | .ok (some d), hx => exact absurd rfl (hx d)

theorem run_acquire_of_outcome? {b : Bool}
    (h : Handle.outcome? (m.run me (Handle.acquire dir name)).1 = some b) : ∃ handle m',
      m.run me (Handle.acquire dir name) = (.returned (.ok handle), m') ∧
        handle.isAcquired = b := by
  obtain ⟨handle, hend, hb⟩ := Handle.of_outcome? h
  exact ⟨handle, _, Prod.ext hend rfl, hb⟩

/-- **Whoever has the mutex has stamped the file at its path.** -/
theorem stamped_of_acquired (hw : m.WellFormed) (hname : IsValidName name) {h : Handle}
    {m' : Machine} (hrun : m.run me (Handle.acquire dir name) = (.returned (.ok h), m'))
    (hacq : h.isAcquired = true) :
    m'.tree.readPath (lockPath dir name) = .ok (Stamp.text me) := by
  obtain ⟨q, hq⟩ := exists_parent_lockPath dir hname
  obtain ⟨t₀, t, i, old, content, clock, news, -, hw₀, hoffers, rfl, -⟩ :=
    acquire_cases hw hname hq hrun hacq
  exact hoffers.readPath_taken hw₀

end Machine

end NamedMutex
