/-
  What a job depends on.

  Two machines may differ in all that is not the job's: then the job does the same on both,
  but for the numbers of new files and openings.

  * `Job.deed_cases` says what a job can do at all, and `Job.Owns` which files are its own;
  * `Job.Agrees` lists what a job looks at: the part of its name, the registry's word on the
    name, the opening that it gives up, and the processes that exist;
  * `Agrees.deed_eq`, `Agrees.report_eq`: what a job does and replies depends on nothing else.
-/
import NamedMutex.Proofs.Jobs

namespace NamedMutex

open FileTree

/-! ## Deeds and reports with other numbers -/

namespace Deed

@[simp] theorem tally_renumber (o : Operation) (ι : Inode → Inode) (τ : Descriptor → Descriptor)
    (a : Deed) : o.tally (a.renumber ι τ) = o.tally a := by
  funext n
  cases o <;> cases a <;> rfl

end Deed

namespace Report

theorem seen_seen (σ τ : Descriptor → Descriptor) (r : Report) :
    (r.seen τ).seen σ = r.seen (σ ∘ τ) := by
  have hhandle : ∀ h : Handle, (h.renumber τ).renumber σ = h.renumber (σ ∘ τ) := by
    intro h
    simp [Handle.renumber, Option.map_map]
  cases r with
  | handle y => cases y <;> simp [seen, hhandle]
  | guard y =>
    cases y with
    | error e => cases e <;> rfl
    | ok g => simp [seen, hhandle]
  | owner | truth | done => rfl

end Report

/-- A verdict with another number of the file. -/
def Verdict.renumber (ι : Inode → Inode) : Verdict → Verdict
  | takes i mode owned => takes (ι i) mode owned
  | v => v

namespace Verdict

variable {v : Verdict} {me : Pid} {d d' : Descriptor} (ι : Inode → Inode)
  {τ : Descriptor → Descriptor} (hτ : (v.deed me d).opens? = some d → τ d = d')
include hτ

theorem deed_renumber : (v.renumber ι).deed me d' = (v.deed me d).renumber ι τ := by
  cases v with
  | fails | vain => rfl
  | takes i mode owned => simp only [renumber, deed, Deed.renumber, hτ rfl]

theorem handle_renumber (name : String) (path : Path) :
    Report.handle ((v.renumber ι).handle name path d') =
      (Report.handle (v.handle name path d)).seen τ := by
  cases v with
  | fails err =>
    by_cases hfatal : err.IsFatal
    · simp [renumber, handle, Machine.failing, hfatal, Handle.ofOutcome, Report.seen]
    · simp [renumber, handle, Machine.failing, hfatal, Handle.ofOutcome, Report.seen,
        Handle.renumber, Handle.ofAttempt]
  | vain => rfl
  | takes i mode owned =>
    simp [renumber, handle, Report.seen, Handle.renumber, Handle.ofAttempt, hτ rfl]

theorem guard_renumber (name : String) (path : Path) :
    Report.guard ((v.renumber ι).guard name path d') =
      (Report.guard (v.guard name path d)).seen τ := by
  cases v with
  | fails err => by_cases hfatal : err.IsFatal <;> simp [renumber, guard, hfatal, Report.seen]
  | vain => rfl
  | takes i mode owned =>
    simp [renumber, guard, Report.seen, Handle.renumber, Handle.ofAttempt, hτ rfl]

end Verdict

namespace Part

variable {P : Part} {path : Path} {e : Bytes} {ι : Inode → Inode} {next next' : Inode}

theorem judge_renumber (P : Part) (i : Inode) (n : Option Node) :
    P.judge (ι i) n = (P.judge i n).renumber ι := by
  unfold judge
  split
  · split <;> rfl
  · rfl

/-- **How an attempt ends is a matter of its part of the machine**, but for the number of a new
    file. -/
theorem verdict_renumber (hfound : ∀ i n, P.slot.found = some (i, n) → ι i = i)
    (hnew : ∀ mode owned, P.verdict path e next = .takes next mode owned → ι next = next') :
    P.verdict path e next' = (P.verdict path e next).renumber ι := by
  unfold verdict at hnew ⊢
  cases habove : refusalAbove? path with
  | some err => rfl
  | none =>
    simp only [habove] at hnew ⊢
    rcases P.slot.opens_cases path e with ⟨opened, hall, hfollow⟩ | ⟨-, hall⟩
    · -- a file that is there
      rw [hall, hall]
      rcases opened with err | ⟨i, n⟩
      · rfl
      · have hi : ι i = i := hfound i n (Slot.follow_eq_ok_iff.1 (hfollow i n rfl)).2.2.2
        show P.judge i n = (P.judge i n).renumber ι
        rw [← judge_renumber, hi]
    · -- a new file
      simp only [hall] at hnew ⊢
      have hnext := judge_renumber (ι := fun _ => next') P next (some ⟨.file [], fileMode, true⟩)
      rw [hnext]
      cases hv : P.judge next (some ⟨.file [], fileMode, true⟩) with
      | fails err => exact absurd hv judge_ne_fails
      | vain => rfl
      | takes j mode owned =>
        obtain ⟨rfl, -⟩ := judge_takes hv
        simp only [Verdict.renumber, hnew mode owned hv]

end Part

/-! ## What a job can do -/

namespace Job

variable {x : Job} {m m' : Machine} {D i : Inode} {d : Descriptor}

/-- **What a job can do**: nothing, or take the file that has the name, if nobody has locked
    it, or take a new one, or close the opening that it gives up. -/
theorem deed_cases (x : Job) (m : Machine) (D : Inode) : x.deed m D = .nothing ∨
    (∃ i mode owned, x.deed m D = .take x.process i m.nextDescriptor mode owned ∧
      (m.tree.child? D x.entry = some i ∧ m.locks.get? i = none ∨ i = m.tree.next)) ∨
    ∃ d f removes, x.held? = some d ∧ m.opened.get? d = some f ∧
      x.deed m D = .giveUp f.inode d removes := by
  have hverdict : (x.verdict m D).deed x.process m.nextDescriptor = .nothing ∨
      ∃ i mode owned, (x.verdict m D).deed x.process m.nextDescriptor =
          .take x.process i m.nextDescriptor mode owned ∧
        (m.tree.child? D x.entry = some i ∧ m.locks.get? i = none ∨ i = m.tree.next) := by
    cases hv : x.verdict m D with
    | fails | vain => exact Or.inl rfl
    | takes i mode owned =>
      refine Or.inr ⟨i, mode, owned, rfl, (Part.verdict_takes hv).imp_left ?_⟩
      rintro ⟨n, hfound, hfree⟩
      have hchild : m.tree.child? D x.entry = some i := (slot_found hfound).1
      refine ⟨hchild, ?_⟩
      rwa [Machine.part, hchild] at hfree
  have hgiveUp : x.giveUp m D = .nothing ∨ ∃ d f removes, x.held? = some d ∧
      m.opened.get? d = some f ∧ x.giveUp m D = .giveUp f.inode d removes := by
    unfold giveUp
    split
    · exact Or.inl rfl
    · rename_i d f h
      obtain ⟨d', hd, hf⟩ := Option.bind_eq_some_iff.1 h
      obtain ⟨f', hf, heq⟩ := Option.map_eq_some_iff.1 hf
      cases heq
      exact Or.inr ⟨d, f, _, hd, hf, rfl⟩
  unfold deed
  split
  · exact hverdict.imp_right Or.inl
  · split
    · exact Or.inl rfl
    · exact hverdict.imp_right Or.inl
  · exact hgiveUp.imp_right Or.inr
  · exact hgiveUp.imp_right Or.inr
  · exact Or.inl rfl
  · exact Or.inl rfl

/-- The files that are the job's: the one that has the name, and the one whose opening is
    given up. -/
def Owns (x : Job) (m : Machine) (D i : Inode) : Prop :=
  m.tree.child? D x.entry = some i ∨
    ∃ d f, x.held? = some d ∧ m.opened.get? d = some f ∧ f.inode = i

theorem Owns.lt_next (hi : x.Owns m D i) (hw : m.WellFormed) : i < m.tree.next := by
  rcases hi with hchild | ⟨d, f, -, hf, rfl⟩
  · exact hw.tree.lt_next (hw.tree.entry hchild)
  · exact hw.tree.lt_next (hw.opened hf).2

theorem Fits.held_lt (hx : x.Fits m D) (hw : m.WellFormed) (hd : x.held? = some d) :
    d < m.nextDescriptor := by
  obtain ⟨f, hf, -⟩ := hx.held d hd
  exact (hw.opened hf).1

theorem deed_inode (h : (x.deed m D).inode? = some i) :
    x.Owns m D i ∨ (x.deed m D).stamps? = some i ∧ i = m.tree.next := by
  rcases x.deed_cases m D with hdeed | ⟨j, mode, owned, hdeed, hj⟩ | ⟨d, f, removes, hd, hf, hdeed⟩
    <;> rw [hdeed] at h ⊢ <;> cases h
  · rcases hj with ⟨hchild, -⟩ | rfl
    · exact Or.inl (Or.inl hchild)
    · exact Or.inr ⟨rfl, rfl⟩
  · exact Or.inl (Or.inr ⟨d, f, hd, hf, rfl⟩)

theorem owns_of_deed (h : (x.deed m D).inode? = some i) (hi : i < m.tree.next) : x.Owns m D i := by
  rcases x.deed_inode h with hx | ⟨-, rfl⟩
  · exact hx
  · exact absurd hi (Nat.lt_irrefl _)

theorem deed_stamps (h : (x.deed m D).stamps? = some i) :
    m.tree.child? D x.entry = some i ∨ i = m.tree.next := by
  rcases x.deed_cases m D with hdeed | ⟨j, mode, owned, hdeed, hj⟩ | ⟨d, f, removes, -, -, hdeed⟩
    <;> rw [hdeed] at h <;> cases h
  exact hj.imp_left And.left

theorem deed_file (h : (x.deed m D).file? = some d) :
    x.held? = some d ∨ (x.deed m D).opens? = some d ∧ d = m.nextDescriptor := by
  rcases x.deed_cases m D with hdeed | ⟨j, mode, owned, hdeed, -⟩ | ⟨d', f, removes, hd, -, hdeed⟩
    <;> rw [hdeed] at h ⊢ <;> cases h
  · exact Or.inr ⟨rfl, rfl⟩
  · exact Or.inl hd

/-! ## What a job depends on -/

/-- Two machines are alike in all that a job looks at. -/
structure Agrees (x : Job) (D : Inode) (m m' : Machine) : Prop where
  part : m'.part D x.entry = m.part D x.entry
  registered : x.isRegistered m' = x.isRegistered m
  processes : m'.processes = m.processes
  held : ∀ d, x.held? = some d → m'.opened.get? d = m.opened.get? d

theorem Agrees.symm (h : x.Agrees D m m') : x.Agrees D m' m :=
  ⟨h.part.symm, h.registered.symm, h.processes.symm, fun d hd => (h.held d hd).symm⟩

theorem Agrees.slot (h : x.Agrees D m m') : m'.tree.slot D x.entry = m.tree.slot D x.entry :=
  congrArg Part.slot h.part

theorem Agrees.owns (h : x.Agrees D m m') (hi : x.Owns m D i) : x.Owns m' D i := by
  rcases hi with hchild | ⟨d, f, hd, hf, hi⟩
  · refine Or.inl (slot_found (t := m'.tree) (n := m.tree.node? i) ?_).1
    rw [h.slot, FileTree.slot, hchild]
    rfl
  · exact Or.inr ⟨d, f, hd, (h.held d hd).trans hf, hi⟩

theorem Agrees.noLink (h : x.Agrees D m m') (hlink : m.tree.NoLink D x.entry) :
    m'.tree.NoLink D x.entry := hlink.of_slot_eq h.slot

section Agrees
variable {ι : Inode → Inode} {τ : Descriptor → Descriptor} (h : x.Agrees D m m')
  (hι : ∀ i, x.Owns m D i → ι i = i) (hτ : ∀ d, x.held? = some d → τ d = d)
  (hmakes : (x.deed m D).stamps? = some m.tree.next → ι m.tree.next = m'.tree.next)
  (hopens : (x.deed m D).opens? = some m.nextDescriptor → τ m.nextDescriptor = m'.nextDescriptor)
include h hι

theorem Agrees.verdict_eq (hmakes : ((x.verdict m D).deed x.process m.nextDescriptor).stamps? =
    some m.tree.next → ι m.tree.next = m'.tree.next) :
    x.verdict m' D = (x.verdict m D).renumber ι := by
  have hnew : ∀ mode owned, x.verdict m D = .takes m.tree.next mode owned →
      ι m.tree.next = m'.tree.next := fun mode owned hv => hmakes (by rw [hv]; rfl)
  unfold verdict at hnew ⊢
  rw [h.part]
  exact Part.verdict_renumber (fun i n hfound => hι i (Or.inl (slot_found hfound).1)) hnew

include hτ

theorem Agrees.giveUp_eq : x.giveUp m' D = (x.giveUp m D).renumber ι τ := by
  unfold giveUp
  cases hd : x.held? with
  | none => rfl
  | some d =>
    simp only [Option.bind_some, h.held d hd, h.part]
    cases hf : m.opened.get? d with
    | none => rfl
    | some f => simp only [Option.map_some, Deed.renumber, hτ d hd, hι _ (Or.inr ⟨d, f, hd, hf, rfl⟩)]

include hmakes hopens

/-- **What a job does depends on what is its own**, but for new numbers. -/
theorem Agrees.deed_eq : x.deed m' D = (x.deed m D).renumber ι τ := by
  cases hop : x.operation with
  | attempt =>
    simp only [deed, hop] at hmakes hopens ⊢
    rw [h.verdict_eq hι hmakes]
    exact Verdict.deed_renumber ι hopens
  | acquire env options =>
    simp only [deed, hop, h.registered] at hmakes hopens ⊢
    by_cases hrefused : options.checkReentrant = true ∧ x.isRegistered m = true
    · rw [if_pos hrefused, if_pos hrefused]
      rfl
    · rw [if_neg hrefused] at hmakes hopens
      rw [if_neg hrefused, if_neg hrefused, h.verdict_eq hι hmakes]
      exact Verdict.deed_renumber ι hopens
  | release | drop =>
    simp only [deed, hop]
    exact h.giveUp_eq hι hτ
  | owner | isHeld =>
    simp only [deed, hop]
    rfl

omit hτ in
/-- **What a job replies depends on what is its own**, but for a new number. -/
theorem Agrees.report_eq (hx : x.Fits m D) (hx' : x.Fits m' D)
    (hlink : m.tree.NoLink D x.entry) : x.report m' D = (x.report m D).seen τ := by
  cases hop : x.operation with
  | attempt =>
    simp only [deed, report, hop] at hmakes hopens ⊢
    rw [h.verdict_eq hι hmakes]
    exact Verdict.handle_renumber ι hopens x.name x.path
  | acquire env options =>
    simp only [deed, report, hop, h.registered] at hmakes hopens ⊢
    by_cases hrefused : options.checkReentrant = true ∧ x.isRegistered m = true
    · rw [if_pos hrefused, if_pos hrefused]
      rfl
    · rw [if_neg hrefused] at hmakes hopens
      rw [if_neg hrefused, if_neg hrefused, h.verdict_eq hι hmakes]
      exact Verdict.guard_renumber ι hopens x.name x.path
  | release g =>
    have hheld : g.released.held = none := by
      unfold Handle.released
      split <;> simp_all
    simp only [report, hop, Report.seen, Handle.renumber, hheld, Option.map_none]
    rw [← hheld]
  | drop =>
    simp only [report, hop]
    rfl
  | owner =>
    have hread : m'.tree.readPath x.path = m.tree.readPath x.path := by
      rw [path, hx'.finds.readPath hx'.valid (h.noLink hlink), hx.finds.readPath hx.valid hlink]
      exact congrArg (Slot.reads · _ _) h.slot
    have hsees : m'.sees = m.sees := by
      funext pid
      simp only [Machine.sees, Machine.probe, h.processes]
    simp only [report, hop, Report.seen, Machine.ownerAt, hread, hsees]
  | isHeld => simp only [report, hop, Report.seen, h.registered]

end Agrees

/-- A number that comes next is exchanged for another one. -/
def renew (next next' k : Nat) : Nat := if k = next then next' else k

theorem renew_next (next next' : Nat) : renew next next' next = next' := if_pos rfl

theorem renew_of_lt {next k : Nat} (next' : Nat) (h : k < next) : renew next next' k = k :=
  if_neg (Nat.ne_of_lt h)

section Renewal
variable (h : x.Agrees D m m') (hw : m.WellFormed) (hx : x.Fits m D)
include h hw hx

/-- On a machine that agrees, a job does the same with the numbers that come next there. -/
theorem Agrees.deed_renew : x.deed m' D = (x.deed m D).renumber
    (renew m.tree.next m'.tree.next) (renew m.nextDescriptor m'.nextDescriptor) :=
  h.deed_eq (fun _ hi => renew_of_lt _ (hi.lt_next hw)) (fun _ hd => renew_of_lt _ (hx.held_lt hw hd))
    (fun _ => renew_next _ _) fun _ => renew_next _ _

theorem Agrees.report_renew (hx' : x.Fits m' D) (hlink : m.tree.NoLink D x.entry) :
    x.report m' D = (x.report m D).seen (renew m.nextDescriptor m'.nextDescriptor) :=
  h.report_eq (fun _ hi => renew_of_lt m'.tree.next (hi.lt_next hw))
    (fun _ => renew_next _ _) (fun _ => renew_next _ _) hx hx' hlink

end Renewal

end Job

end NamedMutex
