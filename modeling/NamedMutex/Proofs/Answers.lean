/-
  What the answers tell a party.

  * `Replies.seeks`: whoever was given a file finds it where the path leads;
  * `Replies.refused`: a lock is refused to a file because another has it;
  * `Replies.orphaned`: the link check fails because the path leads elsewhere;
  * `Replies.unlinks`: whoever may remove the file leaves it alone until then;
  * `Sound.legible`: after a fit start the owner of the linked file reads text;
  * `Sound.busy`: whoever has a file is still busy with it.
-/
import NamedMutex.Proofs.Starts

namespace NamedMutex

namespace Role

/-- The roles that have a file open, but have not yet seen that the path leads
    to it. -/
def Seeks (d : Descriptor) (r : Role) : Prop := r = .opened d ∨ r = .locked d

/-- The roles that have given the mutex back. -/
def Gone (r : Role) : Prop := (∃ d, r = .leaving d none) ∨ r = .out none

variable {path : Path} {me : Pid} {r r' : Role} {c : Call} {x : c.Answer}

theorem Seeks.file {d : Descriptor} (h : r.Seeks d) : r.file = some d := by
  rcases h with rfl | rfl <;> rfl

theorem Gone.follows (h : r.Gone) (hf : Follows path me r c x r') : r'.Gone := by
  rcases h with ⟨d, rfl⟩ | rfl
  · cases hf with
    | say | ownPid | probe | readPath | unlock => exact Or.inl ⟨d, rfl⟩
    | opened h | unopened h => rcases h with h | h <;> cases h
    | close => exact Or.inr rfl
  · cases hf with
    | say | ownPid | probe | readPath => exact Or.inr rfl
    | opened h | unopened h => rcases h with h | h <;> cases h

end Role

theorem Call.exists_answers (me : Pid) (c : Call) : ∃ x, c.Answers me x := by
  have hreply : Replies (.bare me) me .answered c _ _ := .answered
  exact ⟨_, hreply.answers⟩

section Replies
variable {path : Path} {me : Pid} {r r' : Role} {m m' : Machine} {manner : Manner} {c : Call}
  {x : c.Answer} {d : Descriptor}

theorem Replies.perform (h : Replies m me .answered c x m') : m.perform me c = (x, m') := by
  cases h
  rfl

/-- Whoever looks for its file has it still, or was just given it: then the path
    leads there. -/
theorem Replies.seeks (h : Replies m me manner c x m') (hf : Follows path me r c x r')
    (hw : m.WellFormed) (hd : r'.Seeks d) :
    (r.Seeks d ∧ m'.tree = m.tree ∧ m'.opened = m.opened) ∨
      ∃ f, m'.opened.get? d = some f ∧ m'.tree.Leads path f.inode := by
  cases hf with
  | say | ownPid | probe | readPath =>
    refine Or.inl ⟨hd, ?_⟩
    cases h <;> exact ⟨rfl, rfl⟩
  | @opened _ d' hopens =>
    obtain rfl : d' = d := by
      rcases hd with hd | hd <;> cases hd
      rfl
    cases manner with
    | torn => cases h
    | failed =>
      cases h with
      | failed he => cases he
    | answered =>
      have hanswer := h.perform
      simp only [Machine.perform, Machine.answer] at hanswer
      split at hanswer <;> cases hanswer
      rename_i t i hopen
      refine Or.inr ⟨⟨i, 0, me⟩, Table.get?_insert_self _ _ _, ?_⟩
      rcases FileTree.openPath_cases hw.tree hopen with ⟨rfl, hl, -⟩ | ⟨-, -, -, hl, -⟩
      · exact hl
      · exact hl
  | @locked d' =>
    obtain rfl : d' = d := by
      rcases hd with hd | hd <;> cases hd
      rfl
    refine Or.inl ⟨Or.inl rfl, ?_⟩
    cases manner with
    | torn => cases h
    | failed =>
      cases h with
      | failed he => cases he
    | answered =>
      rcases Machine.tryLock_cases h.perform with ⟨_, hx, -⟩ | ⟨_, -, -, ⟨-, rfl⟩ | ⟨-, rfl⟩⟩
      · cases hx
      · exact ⟨rfl, rfl⟩
      · exact ⟨rfl, rfl⟩
  | made | unmade | unopened | unlocked | linked | orphaned | seen | illegible | unread | stamped
  | unstamped | unlink | close => rcases hd with hd | hd <;> cases hd
  | unlock => exact absurd hd (by rintro (hd | hd) <;> cases hd)

theorem Replies.refused {e : IoError} {f : OpenFile}
    (h : Replies m me .answered (.tryLock d) (.error e) m') (hf : m.opened.get? d = some f) :
    ∃ d', d' ≠ d ∧ m.locks.get? f.inode = some d' := by
  have hf : m.tick.opened.get? d = some f := hf
  have hanswer : (m.tick.tryLock d).1 = .error e := congrArg Prod.fst h.perform
  simp only [Machine.tryLock, hf] at hanswer
  split at hanswer
  · cases hanswer
  · rename_i d' hlock
    split at hanswer
    · cases hanswer
    · rename_i hne
      exact ⟨d', hne, hlock⟩

theorem Replies.orphaned {f : OpenFile} (h : Replies m me .answered (.leadsTo path d) false m')
    (hf : m.opened.get? d = some f) : ¬ m.tree.Leads path f.inode := by
  intro hl
  have hf : m.tick.opened.get? d = some f := hf
  have hanswer : m.tick.leadsTo path d = false := congrArg Prod.fst h.perform
  rw [(Machine.leadsTo_iff hf).2 hl] at hanswer
  cases hanswer

end Replies

theorem Replies.unlinks {path : Path} {me : Pid} {r r' : Role} {m m' : Machine} {manner : Manner}
    {c : Call} {x : c.Answer} (h : Replies m me manner c x m') (hf : Follows path me r c x r')
    (hr : r.Unlinks) : (r' = r ∧ m'.tree = m.tree) ∨ r'.Gone := by
  obtain ⟨d, rfl⟩ := hr
  cases hf with
  | say | ownPid | probe | readPath =>
    refine Or.inl ⟨rfl, ?_⟩
    cases h <;> rfl
  | opened hopens | unopened hopens => rcases hopens with hr | hr <;> cases hr
  | stamped hstamp | unstamped hstamp => cases hstamp
  | unlink => exact Or.inr (Or.inl ⟨d, rfl⟩)

theorem Follows.of_openFile {path p : Path} {me : Pid} {r r' : Role}
    {x : (Call.openFile p).Answer} (h : Follows path me r (.openFile p) x r') : r.Opens := by
  cases h with
  | opened hopens | unopened hopens => exact hopens
  | stamped h | unstamped h => cases h

namespace Contest

variable {dir : Path} {name : String} {m : Machine} {past : Past} {s : Contest} {ρ : Roles} {k : Nat}
  {P : Party}

theorem Sound.busy (hs : Sound dir name s ρ) (hk : s.parties[k]? = some P) {d : Descriptor}
    (hd : (ρ k).file = some d) : P.Busy := by
  have hobeys := hs.obeys k P hk
  cases hstage : P.stage with
  | attempting p =>
    rw [hstage] at hobeys
    cases p with
    | ask c next =>
      refine Or.inl ⟨c, fun x => .attempting (next x), ?_⟩
      rw [hstage]
      exact .attempting
    | halt =>
      rw [hobeys.2, Role.file_start] at hd
      cases hd
    | done result =>
      cases result with
      | error e =>
        have hrole : ρ k = .out (some .failure) := hobeys
        rw [hrole] at hd
        cases hd
      | ok h =>
        obtain ⟨-, -, hends⟩ := hobeys
        cases hheld : h.held with
        | none =>
          rw [hheld] at hends
          obtain ⟨e, hrole⟩ := hends
          rw [hrole] at hd
          cases hd
        | some d' =>
          refine Or.inr ⟨h, by rw [hstage]; rfl, ?_⟩
          simp [Handle.isAcquired, hheld]
  | releasing p =>
    rw [hstage] at hobeys
    cases p with
    | ask c next =>
      refine Or.inl ⟨c, fun x => .releasing (next x), ?_⟩
      rw [hstage]
      exact .releasing
    | halt => exact hobeys.elim
    | done h =>
      obtain ⟨-, -, e, hrole⟩ := hobeys
      rw [hrole] at hd
      cases hd

theorem Sound.legible (hs : Sound dir name s ρ) (hkept : Kept (lockPath dir name) m past s ρ)
    (hk : s.Live k P) {d : Descriptor} (hrole : ρ k = .owner d .linked) {bytes : Bytes}
    {m' : Machine} (h : Replies s.machine P.process .answered (.read d) (.ok bytes) m') :
    (Utf8.decode? bytes).isSome = true := by
  obtain ⟨f, hf, -, -, hach⟩ := (hs.holds k P hk).file d (by rw [hrole]; rfl)
  rw [hrole] at hach
  obtain ⟨-, hl, hoffset⟩ := hach
  have hoffset : f.offset = 0 := hoffset
  obtain ⟨content, hfile, htext⟩ := hkept.text _ hl
  have hcontent : s.machine.tick.tree.bytesOf f.inode = content := FileTree.bytesOf_of_file? hfile
  have hf : s.machine.tick.opened.get? d = some f := hf
  have hread := congrArg Prod.fst h.perform
  simp only [Machine.perform, Machine.answer, Machine.read, hf, hoffset, List.drop_zero, hcontent,
    Except.ok.injEq] at hread
  rwa [← hread]

end Contest

end NamedMutex
