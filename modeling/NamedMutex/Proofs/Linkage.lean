/-
  Locked files that stay where they are.

  A process retains a lock file as long as it has locked it and the path of the mutex leads to
  it.  Its own calls see to that: an acquisition only adds to the files, and a release removes
  the file that it has locked itself, which is not one of the others.

  * `Machine.Retains`: a path leads to the file that a process has locked;
  * `Machine.Grips`: a role has what it should have, and its owner retains its file;
    `Grips.reply` follows a role through a call, `Retains.reply` all other files;
  * `Machine.Considerate` is what others do, threads of the same process among them, that leave
    certain openings alone and the lock files among these linked;
  * `Heeds.considerate`: whoever keeps to the protocol with a file of its own is considerate;
    `Program.Minds.considerate`: so is a program, from its beginning to its end.
-/
import NamedMutex.Proofs.Guards
import NamedMutex.Proofs.Holdings

namespace NamedMutex

/-! ## What calls do to the files -/

section Trees
variable {me : Pid} {m m' : Machine} {manner : Manner} {c : Call} {x : c.Answer}

/-- **A call other than a removal only adds to the files**, and writes to them. -/
theorem Machine.within_answer (hw : m.WellFormed) (me : Pid) (hc : ∀ p, c ≠ .unlink p) :
    m.tree.Within (m.answer me c).2.tree := by
  cases c with
  | unlink p => exact absurd rfl (hc p)
  | makeDirs p => exact (FileTree.makeDirs_grows hw.tree p).toWithin
  | openFile p =>
    simp only [answer]
    split
    · rename_i t i hopen
      show m.tree.Within t
      rcases FileTree.openPath_cases hw.tree hopen with ⟨rfl, -⟩ | ⟨-, -, hgrows, -⟩
      · exact .refl _
      · exact hgrows.toWithin
    · exact .refl _
  | truncate d =>
    obtain ⟨x, m', hx⟩ : ∃ x m', m.truncate d = (x, m') := ⟨_, _, rfl⟩
    simp only [answer, hx]
    rcases truncate_cases hx with ⟨_, -, rfl⟩ | ⟨_, _, _, _, -, -, hn, rfl⟩
    · exact .refl _
    · exact FileTree.rewrite_within hn
  | write d bytes =>
    obtain ⟨x, m', hx⟩ : ∃ x m', m.write d bytes = (x, m') := ⟨_, _, rfl⟩
    simp only [answer, hx]
    rcases write_cases hx with rfl | ⟨_, _, _, _, -, -, hn, rfl⟩
    · exact .refl _
    · exact FileTree.rewrite_within hn
  | tryLock d =>
    obtain ⟨x, m', hx⟩ : ∃ x m', m.tryLock d = (x, m') := ⟨_, _, rfl⟩
    simp only [answer, hx]
    rcases tryLock_cases hx with ⟨_, -, rfl⟩ | ⟨_, -, -, ⟨-, rfl⟩ | ⟨-, rfl⟩⟩ <;> exact .refl _
  | read | rewind =>
    simp only [answer, Machine.read, Machine.rewind]
    split <;> exact .refl _
  | unlock =>
    simp only [answer]
    split <;> exact .refl _
  | leadsTo | readPath | close | ownPid | probe | now | sleep | isRegistered | register | unregister
  | say => exact .refl _

theorem Replies.within (h : Replies m me manner c x m') (hw : m.WellFormed)
    (hc : ∀ p, c ≠ .unlink p) : m.tree.Within m'.tree := by
  cases h with
  | answered => exact Machine.within_answer (m := m.tick) hw.tick me hc
  | failed => exact .refl _
  | torn => exact Machine.within_answer (m := m.tick) hw.tick me nofun

theorem Replies.unlink_cases {p : Path} {x : Except IoError Unit}
    (h : Replies m me manner (.unlink p) x m') :
    m'.tree = m.tree ∨ m.tree.unlink p = .ok m'.tree := by
  cases h with
  | failed => exact Or.inl rfl
  | answered =>
    simp only [Machine.perform, Machine.answer]
    split
    · rename_i t ht
      exact Or.inr ht
    · exact Or.inl rfl

/-- No call makes a directory of a file. -/
theorem Replies.keeps (h : Replies m me manner c x m') (hw : m.WellFormed) :
    m.tree.Keeps m'.tree := by
  cases c with
  | unlink p =>
    rcases h.unlink_cases with hsame | hunlink
    · rw [hsame]
      exact .refl _
    · exact FileTree.unlink_keeps hunlink
  | _ => exact (h.within hw nofun).keeps

theorem Replies.plain_of_opened {p : Path} {d : Descriptor} {f : OpenFile}
    (h : Replies m me manner (.openFile p) (.ok d) m') (hw : m.WellFormed)
    (hd : m'.opened.get? d = some f) : m'.tree.isDirectory f.inode = false := by
  have hanswer := h.of_not_failed (fun e he => by cases he) nofun
  simp only [Machine.perform, Machine.answer] at hanswer
  split at hanswer <;> cases hanswer
  rename_i t i hopen
  rw [Machine.open_, Table.get?_insert_self] at hd
  cases hd
  show t.isDirectory i = false
  rcases FileTree.openPath_cases hw.tree hopen with ⟨rfl, -, hi, -⟩ | ⟨-, -, -, -, hnode⟩
  · exact hi
  · simp [FileTree.isDirectory, FileTree.directory?, hnode]

end Trees

/-! ## Linked files -/

namespace Machine

/-- A path leads to a file that a process has locked. -/
def Retains (m : Machine) (me : Pid) (p : Path) (d : Descriptor) : Prop :=
  ∃ f, m.opened.get? d = some f ∧ f.process = me ∧ m.locks.get? f.inode = some d ∧
    m.tree.Leads p f.inode ∧ m.tree.isDirectory f.inode = false

/-- A machine gives a role what it should have, and the path of an owner leads to its file. -/
structure Grips (m : Machine) (me : Pid) (path : Path) (r : Role) : Prop where
  backs : m.Backs me r
  plain : ∀ d f, r.file = some d → m.opened.get? d = some f → m.tree.isDirectory f.inode = false
  linked : ∀ d w f, r = .owner d w → m.opened.get? d = some f → m.tree.Leads path f.inode

/-- What others do, be they other processes or other threads of this one, to whom certain openings
    are not theirs: they use none of these and remove no lock file that is locked by one, and no
    number is given twice.  With files, locks and registrations of their own they do what they
    like. -/
structure Considerate (me : Pid) (mine : Descriptor → Prop) (m m' : Machine) : Prop where
  wellFormed : m.WellFormed → m'.WellFormed
  clock : m.clock ≤ m'.clock
  nextDescriptor : m.nextDescriptor ≤ m'.nextDescriptor
  bypasses : ∀ d, mine d → d < m.nextDescriptor → Bypasses d m m'
  /-- What is open does not become a directory. -/
  plain : ∀ d f, mine d → d < m.nextDescriptor → m.opened.get? d = some f →
    m.tree.isDirectory f.inode = false → m'.tree.isDirectory f.inode = false
  linked : ∀ dir name d, mine d → m.Retains me (lockPath dir name) d →
    m'.Retains me (lockPath dir name) d
  sound : (m.registry me).Sound → (m'.registry me).Sound

variable {m m' m'' : Machine} {me you : Pid} {p path : Path} {d : Descriptor} {r r' : Role}
  {manner : Manner} {c : Call} {x : c.Answer} {w : Progress} {mine : Descriptor → Prop}

theorem Retains.lt (h : m.Retains me p d) (hw : m.WellFormed) : d < m.nextDescriptor := by
  obtain ⟨f, hd, -⟩ := h
  exact (hw.opened hd).1

theorem grips_of_none (hr : r.file = none) (m : Machine) (path : Path) : m.Grips me path r := by
  refine ⟨backs_of_none hr m, fun d f hd => ?_, ?_⟩
  · rw [hr] at hd
    cases hd
  · rintro d w f rfl
    cases hr

theorem Grips.retains (h : m.Grips me p (.owner d w)) : m.Retains me p d := by
  obtain ⟨f, hd, hf⟩ := h.backs.opened d rfl
  exact ⟨f, hd, hf, h.backs.locked d f rfl hd, h.linked d w f rfl hd, h.plain d f rfl hd⟩

theorem Retains.grips (h : m.Retains me p d) (w : Progress) : m.Grips me p (.owner d w) := by
  obtain ⟨f, hd, hf, hlock, hleads, hplain⟩ := h
  refine ⟨⟨fun d' hd' => ?_, fun d' g hlocks hg => ?_⟩, fun d' g hd' hg => ?_,
    fun d' _ g hr hg => ?_⟩
  · cases hd'
    exact ⟨f, hd, hf⟩
  · obtain rfl : d = d' := hlocks
    rw [hd] at hg
    cases hg
    exact hlock
  · cases hd'
    rw [hd] at hg
    cases hg
    exact hplain
  · cases hr
    rw [hd] at hg
    cases hg
    exact hleads

/-! ## What others do -/

theorem Considerate.refl (me : Pid) (mine : Descriptor → Prop) (m : Machine) :
    Considerate me mine m m :=
  ⟨id, Nat.le_refl _, Nat.le_refl _, fun d _ _ => .refl d m, fun _ _ _ _ _ h => h,
    fun _ _ _ _ h => h, id⟩

theorem Considerate.trans (h : Considerate me mine m m') (h' : Considerate me mine m' m'') :
    Considerate me mine m m'' where
  wellFormed hw := h'.wellFormed (h.wellFormed hw)
  clock := Nat.le_trans h.clock h'.clock
  nextDescriptor := Nat.le_trans h.nextDescriptor h'.nextDescriptor
  bypasses d hd hlt := by
    have hfirst := h.bypasses d hd hlt
    have hsecond := h'.bypasses d hd (Nat.lt_of_lt_of_le hlt h.nextDescriptor)
    exact ⟨hsecond.opened.trans hfirst.opened, fun i => (hsecond.locks i).trans (hfirst.locks i)⟩
  plain d f hd hlt hopen hf := by
    have hopen' := (h.bypasses d hd hlt).opened.trans hopen
    have hlt' := Nat.lt_of_lt_of_le hlt h.nextDescriptor
    exact h'.plain d f hd hlt' hopen' (h.plain d f hd hlt hopen hf)
  linked dir name d hd hret := h'.linked dir name d hd (h.linked dir name d hd hret)
  sound hs := h'.sound (h.sound hs)

theorem Considerate.of_said {said said' : List (Pid × Output)}
    (h : Considerate me mine { m with said := said } m') :
    Considerate me mine { m with said := said' } m' :=
  ⟨fun hw => h.wellFormed ⟨hw.tree, hw.openedKeys, hw.lockKeys, hw.opened, hw.locked⟩,
    h.clock, h.nextDescriptor, fun d hd hlt => ⟨(h.bypasses d hd hlt).opened,
      (h.bypasses d hd hlt).locks⟩, h.plain, h.linked, h.sound⟩

theorem Considerate.shut (h : Considerate me mine m m') (hmine : mine d) (hd : m.Shut d) :
    m'.Shut d :=
  ⟨(h.bypasses d hmine hd.lt).opened.trans hd.closed, Nat.lt_of_lt_of_le hd.lt h.nextDescriptor⟩

theorem Grips.considerate {dir : Path} {name : String} (h : m.Grips me (lockPath dir name) r)
    (hw : m.WellFormed) (hmine : ∀ d, r.file = some d → mine d)
    (hm : Considerate me mine m m') : m'.Grips me (lockPath dir name) r := by
  have hbypasses : ∀ d, r.file = some d → Bypasses d m m' := fun d hd =>
    hm.bypasses d (hmine d hd) (h.backs.lt hw hd)
  refine ⟨h.backs.bypassed hbypasses, fun d f hr hd => ?_, ?_⟩
  · have hd := (hbypasses d hr).opened.symm.trans hd
    exact hm.plain d f (hmine d hr) (h.backs.lt hw hr) hd (h.plain d f hr hd)
  · rintro d w f rfl hd
    obtain ⟨g, hg, -, -, hleads, -⟩ := hm.linked dir name d (hmine d rfl) h.retains
    rw [hd] at hg
    cases hg
    exact hleads

/-! ## What this process does -/

theorem Grips.plain_of_file (h : m.Grips me path r) (hw : m.WellFormed)
    (hr : Replies m me manner c x m') (hopens : c.opensOrCloses = false) {f : OpenFile}
    (hfile : r.file = some d) (hd : m'.opened.get? d = some f) :
    ∃ g, m.opened.get? d = some g ∧ g.inode = f.inode ∧ m'.tree.isDirectory f.inode = false := by
  obtain ⟨g, hg, hinode⟩ : ∃ g, m.opened.get? d = some g ∧ g.inode = f.inode := by
    rcases hr.effect.opened hopens d with hsame | ⟨g, o, -, hg, hafter⟩
    · exact ⟨f, hsame ▸ hd, rfl⟩
    · rw [hafter] at hd
      cases hd
      exact ⟨g, hg, rfl⟩
  refine ⟨g, hg, hinode, ?_⟩
  rw [← hinode, (hr.keeps hw g.inode (hw.opened hg).2).2.1]
  exact h.plain d g hfile hg

end Machine

section Heeds
variable {path : Path} {me : Pid} {r r' : Role} {c : Call} {x : c.Answer} {d : Descriptor}
  {w : Progress}

theorem Heeds.opensOrCloses (h : Heeds path me r c x r') (hr : r.file = some d)
    (hr' : r'.file = some d) : c.opensOrCloses = false := by
  cases h with
  | aside hc => exact hc.kinds.1
  | anew hc => exact hc.kinds.1
  | follows hf =>
    cases hf with
    | opened ho | unopened ho =>
      rw [ho.file] at hr
      cases hr
    | close => cases hr'
    | stamped hs | unstamped hs => cases hs <;> rfl
    | _ => rfl

/-- Only an owner removes a lock file, and it is that of its own path. -/
theorem Heeds.of_unlink {p : Path} {x : Except IoError Unit}
    (h : Heeds path me r (.unlink p) x r') :
    p = path ∧ ∃ d, r = .owner d .stamped ∧ r' = .leaving d none := by
  cases h with
  | aside hc | anew hc => exact hc.elim
  | follows hf =>
    cases hf with
    | unlink => exact ⟨rfl, _, rfl, rfl⟩
    | stamped hs | unstamped hs => cases hs

theorem Heeds.owner_cases (h : Heeds path me r c x r') (hr' : r' = .owner d w) :
    (∃ w', r = .owner d w') ∨ (r = .locked d ∧ (⟨c, x⟩ : Exchange) = ⟨.leadsTo path d, true⟩) := by
  cases h with
  | aside => exact Or.inl ⟨w, hr'⟩
  | anew _ _ hnone =>
    rw [hr'] at hnone
    cases hnone
  | follows hf =>
    cases hf with
    | say | ownPid | probe | readPath => exact Or.inl ⟨w, hr'⟩
    | seen =>
      cases hr'
      exact Or.inl ⟨_, rfl⟩
    | stamped =>
      cases hr'
      exact Or.inl ⟨_, rfl⟩
    | linked =>
      cases hr'
      exact Or.inr ⟨rfl, rfl⟩
    | _ => cases hr'

end Heeds

namespace Machine

variable {m m' : Machine} {me you : Pid} {p path : Path} {d : Descriptor} {r r' : Role}
  {manner : Manner} {c : Call} {x : c.Answer} {mine : Descriptor → Prop}

/-- **A role has what its calls have given it**, and an owner finds its file where it was. -/
theorem Grips.reply (h : m.Grips me path r) (hw : m.WellFormed) (hheeds : Heeds path me r c x r')
    (hr : Replies m me manner c x m') : m'.Grips me path r' := by
  refine ⟨h.backs.reply hheeds hr, fun d f hfile hd => ?_, ?_⟩
  · rcases hheeds.file_or_opened hfile with hbefore | hopened
    · have hopens := hheeds.opensOrCloses hbefore hfile
      obtain ⟨_, -, -, hplain⟩ := h.plain_of_file hw hr hopens hbefore hd
      exact hplain
    · cases hopened
      exact hr.plain_of_opened hw hd
  · rintro d w f rfl hd
    have hbefore : r.file = some d := by
      rcases hheeds.owner_cases rfl with ⟨w', rfl⟩ | ⟨rfl, -⟩ <;> rfl
    obtain ⟨g, hg, hinode, -⟩ :=
      h.plain_of_file hw hr (hheeds.opensOrCloses hbefore rfl) hbefore hd
    rw [← hinode]
    rcases hheeds.owner_cases rfl with ⟨w', rfl⟩ | ⟨rfl, hlinked⟩
    · have hc : ∀ p, c ≠ .unlink p := by
        rintro p rfl
        obtain ⟨-, d', -, hleaving⟩ := hheeds.of_unlink
        cases hleaving
      exact (h.linked d w' g rfl hg).mono (hr.within hw hc) hw.tree
    · cases hlinked
      have hanswer := hr.of_not_failed (fun e he => by cases he) nofun
      have hleads : m.tick.leadsTo path d = true := congrArg Prod.fst hanswer
      have hsame : m.tick = m' := congrArg Prod.snd hanswer
      rw [← hsame]
      exact (leadsTo_iff hg).1 hleads

/-- **All other lock files stay where they are**, and locked, be they those of the same process
    or of another one. -/
theorem Retains.reply {d₀ : Descriptor} {p₀ : Path} (h : m.Retains me p₀ d₀)
    (hgrips : m.Grips you path r) (hne : r.file ≠ some d₀) (hw : m.WellFormed)
    (hheeds : Heeds path you r c x r') (hr : Replies m you manner c x m') :
    m'.Retains me p₀ d₀ := by
  obtain ⟨f, hd, hf, hlock, hleads, hplain⟩ := h
  have hbypasses := hr.bypasses hw (fun hc => hne (hheeds.file? hc)) (hw.opened hd).1
  refine ⟨f, hbypasses.opened.trans hd, hf, (hbypasses.locks _).2 hlock, ?_, ?_⟩
  · by_cases hc : ∃ p, c = .unlink p
    · obtain ⟨p, rfl⟩ := hc
      obtain ⟨rfl, d, rfl, -⟩ := hheeds.of_unlink
      rcases hr.unlink_cases with hsame | hunlink
      · rwa [hsame]
      · -- what is removed is another file, for another opening has locked it
        obtain ⟨g, -, -, hlock', hleads', hplain'⟩ := hgrips.retains
        have hother : f.inode ≠ g.inode := by
          intro heq
          rw [heq, hlock'] at hlock
          exact hne hlock
        exact FileTree.unlink_leads_of_ne hunlink hw.tree hleads' hplain' hleads hother
    · exact hleads.mono (hr.within hw fun p hp => hc ⟨p, hp⟩) hw.tree
  · rw [(hr.keeps hw f.inode (hw.opened hd).2).2.1]
    exact hplain

end Machine

theorem Replies.sound {m m' : Machine} {me you : Pid} {manner : Manner} {c : Call} {x : c.Answer}
    (h : Replies m you manner c x m') (hs : (m.registry me).Sound) : (m'.registry me).Sound := by
  by_cases hyou : you = me
  · subst hyou
    rw [h.registry]
    exact hs.enter c
  · rw [h.effect.registry me hyou]
    exact hs

/-- **Whoever keeps to the protocol is considerate**, be it a thread of the same process or
    another one, as long as its file is a different one. -/
theorem Heeds.considerate {m m' : Machine} {me you : Pid} {path : Path} {r r' : Role}
    {manner : Manner} {c : Call} {x : c.Answer} {mine : Descriptor → Prop}
    (hheeds : Heeds path you r c x r') (hgrips : m.Grips you path r) (hw : m.WellFormed)
    (hmine : ∀ d, r.file = some d → ¬ mine d) (hr : Replies m you manner c x m') :
    Machine.Considerate me mine m m' where
  wellFormed := hr.wellFormed
  clock := hr.effect.clock
  nextDescriptor := hr.nextDescriptor
  bypasses d hd hlt := hr.bypasses hw (fun hc => hmine d (hheeds.file? hc) hd) hlt
  plain d f _ _ hopen hf := by
    rw [(hr.keeps hw f.inode (hw.opened hopen).2).2.1]
    exact hf
  linked dir name d hd hret := hret.reply hgrips (fun hfile => hmine d hfile hd) hw hheeds hr
  sound hs := hr.sound hs

/-- It is enough to be considerate of the openings that there are. -/
theorem Machine.Considerate.of_given {m m' : Machine} {me : Pid} {mine : Descriptor → Prop}
    (h : Machine.Considerate me (fun d => mine d ∧ d < m.nextDescriptor) m m')
    (hw : m.WellFormed) : Machine.Considerate me mine m m' where
  wellFormed := h.wellFormed
  clock := h.clock
  nextDescriptor := h.nextDescriptor
  bypasses d hd hlt := h.bypasses d ⟨hd, hlt⟩ hlt
  plain d f hd hlt := h.plain d f ⟨hd, hlt⟩ hlt
  linked dir name d hd hret := h.linked dir name d ⟨hd, hret.lt hw⟩ hret
  sound := h.sound

/-- **A program that keeps to the protocol** is considerate of all openings that there are when it
    begins, but for its own. -/
theorem Program.Minds.considerate {α : Type} {p : Program α} {path : Path} {m : Machine}
    {me you : Pid} {r : Role} {mine : Descriptor → Prop} {Q : Completion α → Role → Prop}
    (hp : p.Minds path you Q r) (hw : m.WellFormed) (hgrips : m.Grips you path r)
    (hgiven : ∀ d, mine d → d < m.nextDescriptor) (hother : ∀ d, r.file = some d → ¬ mine d) :
    Machine.Considerate me mine m (m.run you p).2 := by
  induction p generalizing m r with
  | done | halt => exact .refl me mine m
  | ask c next ih =>
    have hreply : Replies m you .answered c _ _ := .answered
    obtain ⟨r', hheeds, hnext⟩ := hp _ hreply.answers
    have hother' : ∀ d, r'.file = some d → ¬ mine d := by
      intro d hd hmine
      rcases hheeds.file_or_fresh hreply hd with hsame | hnew
      · exact hother d hsame hmine
      · exact Nat.ne_of_lt (hgiven d hmine) hnew
    refine (hheeds.considerate hgrips hw hother hreply).trans (ih _ hnext (hreply.wellFormed hw)
      (hgrips.reply hw hheeds hreply) (fun d hd => ?_) hother')
    exact Nat.lt_of_lt_of_le (hgiven d hd) hreply.nextDescriptor

end NamedMutex
