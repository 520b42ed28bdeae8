/-
  Reports of reclaimed locks, and stamps over old contents.

  An acquisition reports that it reclaims the lock of a dead process exactly if the old content
  names a process, not the acquiring one, that does not exist.  It says so once, and puts its
  own stamp over all of the old content.

  * `Event.reclaims?` tells the report of a reclaimed lock from all others;
  * `Machine.diagnosis_remarks`: what is reported on a machine, by the table of its processes;
  * `Dialogue.diagnosis`: what is reported whatever the system answers, above all whichever
    error it answers a probe with;
  * `reclaim_diagnosis` is the main statement.
-/
import NamedMutex.Proofs.Faults
import NamedMutex.Proofs.Takings

namespace NamedMutex

open Program

/-! ## Reports of reclaimed locks -/

/-- The process that an event calls dead, if it reports a reclaimed lock. -/
def Event.reclaims? (e : Event) : Option Pid :=
  if e.level = .info ∧ e.message = "reclaiming lock abandoned by dead process" then
    e.fields.findSome? fun
      | ("pid", .process pid) => some pid
      | _ => none
  else none

/-- The process that an output calls dead, if it is the report of a reclaimed lock. -/
def Output.reclaims? : Output → Option Pid
  | .event _ e => e.reclaims?
  | _ => none

/-- The processes that are called dead in what was said. -/
def reclaimsSaid (news : List (Pid × Output)) : List Pid := news.filterMap (·.2.reclaims?)

theorem reclaimsSaid_eventsBy (me : Pid) (events : List Event) :
    reclaimsSaid (eventsBy me events) = events.filterMap Event.reclaims? := by
  rw [reclaimsSaid, eventsBy, List.filterMap_map]
  rfl

/-! ## Diagnoses -/

/-- The processes that an acquisition calls dead, by the content that it has found: the one that
    this names, if it is not the own one and `dead` says so.  It is called dead once. -/
structure Diagnosis (dead : Pid → Prop) (me : Pid) (content : String) (called : List Pid) :
    Prop where
  mem_iff : ∀ p, p ∈ called ↔ Stamp.parse? content = some p ∧ p ≠ me ∧ dead p
  once : called.length ≤ 1

section Diagnosis
variable {dead : Pid → Prop} {me p : Pid} {content : String}

theorem Diagnosis.of_none (h : ∀ p, Stamp.parse? content = some p → p ≠ me → ¬ dead p) :
    Diagnosis dead me content [] where
  mem_iff p := by simpa using h p
  once := Nat.zero_le 1

theorem Diagnosis.of_unnamed (hparse : Stamp.parse? content = none) :
    Diagnosis dead me content [] :=
  .of_none fun p hp => by
    rw [hparse] at hp
    cases hp

theorem Diagnosis.of_own (hparse : Stamp.parse? content = some me) : Diagnosis dead me content [] :=
  .of_none fun _ hp hne => absurd (Option.some.inj (hp.symm.trans hparse)) hne

theorem Diagnosis.of_alive (hparse : Stamp.parse? content = some p) (halive : ¬ dead p) :
    Diagnosis dead me content [] :=
  .of_none fun _ hp _ hdead => halive (Option.some.inj (hp.symm.trans hparse) ▸ hdead)

theorem Diagnosis.of_dead (hparse : Stamp.parse? content = some p) (hne : p ≠ me) (hdead : dead p) :
    Diagnosis dead me content [p] where
  mem_iff q := by
    rw [List.mem_singleton, hparse]
    constructor
    · rintro rfl
      exact ⟨rfl, hne, hdead⟩
    · rintro ⟨hq, -⟩
      exact (Option.some.inj hq).symm
  once := Nat.le_refl 1

theorem Stamp.ne_zero_of_parse? (h : Stamp.parse? content = some p) : p ≠ 0 := by
  simpa using (Option.filter_eq_some_iff.1 h).2

end Diagnosis

/-! ## On a machine -/

namespace Machine

variable {m m' : Machine} {me p : Pid} {dir path : Path} {name content : String} {t : FileTree}
  {i j : Inode} {old old' : Bytes} {h : Handle}

/-- No process has this number: it is too large for one, or the system knows none. -/
def IsGone (m : Machine) (p : Pid) : Prop := 2147483647 < p ∨ m.probe p = .error .noProcess

/-- A number that names no process is seen not to, as long as it is not zero. -/
theorem sees_eq_false_iff (hp : p ≠ 0) : m.sees p = false ↔ m.IsGone p := by
  have hlimit : Pid.limit ≤ p ↔ 2147483647 < p := Iff.rfl
  unfold sees IsGone
  by_cases hlarge : 2147483647 < p
  · simp [hlimit, hlarge]
  · rw [if_neg (by simp [hp, hlimit, hlarge])]
    cases m.probe p with
    | ok => simp [hlarge]
    | error e => simp [hlarge]

/-- **What is reported on an old content** is by the table of processes. -/
theorem diagnosis_remarks (m : Machine) (me : Pid) (path : Path) (content : String) :
    Diagnosis m.IsGone me content ((m.remarks me path content).filterMap Event.reclaims?) := by
  unfold remarks
  cases hparse : Stamp.parse? content with
  | none => exact .of_unnamed hparse
  | some q =>
    have hsees := sees_eq_false_iff (m := m) (Stamp.ne_zero_of_parse? hparse)
    by_cases hme : q = me
    · simp only [if_pos hme]
      exact .of_own (hme ▸ hparse)
    · simp only [if_neg hme]
      cases halive : m.sees q with
      | false => exact .of_dead hparse hme (hsees.1 halive)
      | true =>
        refine .of_alive hparse fun hgone => ?_
        rw [hsees.2 hgone] at halive
        cases halive

theorem Offers.of_leads (hoffers : m.Offers path t j old' content) (hw : m.WellFormed)
    (hl : m.tree.Leads path i) : t = m.tree ∧ j = i := by
  rcases FileTree.openPath_cases hw.tree hoffers.opens with ⟨rfl, hl', -⟩ | ⟨-, hvacant, -⟩
  · exact ⟨rfl, hl'.unique hl⟩
  · exact absurd hl (hvacant i)

/-- **Over an old content**: an acquisition puts its stamp in the place of all of it, and reports
    on the process that it names. -/
theorem acquired_over (hw : m.WellFormed) (hname : IsValidName name)
    (hl : m.tree.Leads (lockPath dir name) i) (hfile : m.tree.file? i = some old)
    (htext : Utf8.decode? old = some content)
    (hrun : m.run me (Handle.acquire dir name) = (.returned (.ok h), m'))
    (hacq : h.isAcquired = true) :
    m'.tree.file? i = some (Stamp.text me) ∧ m'.tree.Leads (lockPath dir name) i ∧
      ∃ news, m'.said = news ++ m.said ∧
        Diagnosis m.IsGone me content (reclaimsSaid (heard news)) := by
  obtain ⟨q, hq⟩ := exists_parent_lockPath dir hname
  have hmade : m.tree.makeDirs q = (m.tree, .ok ()) :=
    FileTree.makeDirs_of_isThere (hl.settled hname q hq)
  obtain ⟨t₀, t, j, old', content', clock, news, hmake, -, hoffers, rfl, hheard⟩ :=
    acquire_cases hw hname hq hrun hacq
  rw [hmade] at hmake
  obtain rfl : m.tree = t₀ := (Prod.mk.inj hmake).1
  have hoffers : m.Offers (lockPath dir name) t j old' content' := hoffers
  obtain ⟨rfl, rfl⟩ := hoffers.of_leads hw hl
  obtain rfl : old = old' := Option.some.inj (hfile.symm.trans hoffers.file)
  obtain rfl : content = content' := Option.some.inj (htext.symm.trans hoffers.text)
  refine ⟨hoffers.file?_taken, hoffers.leads_taken hw, news, rfl, ?_⟩
  rw [hheard, reclaimsSaid_eventsBy, List.filterMap_append]
  have hacquired : [Event.acquired name (lockPath dir name)].filterMap Event.reclaims? = [] := rfl
  rw [hacquired, List.append_nil]
  exact diagnosis_remarks m me _ content

end Machine

/-! ## Whatever the system answers -/

/-- The process that is called dead by a call, if it is the report of a reclaimed lock. -/
def Call.reclaims? : Call → Option Pid
  | .say o => o.reclaims?
  | _ => none

/-- Probes of processes, and reports of reclaimed locks. -/
def Call.isRemark : Call → Bool
  | .probe _ => true
  | c => c.reclaims?.isSome

/-- The processes that are called dead in a dialogue. -/
def reclaimsTold (told : List Exchange) : List Pid := told.filterMap (·.1.reclaims?)

/-- A number is too large for a process, or the system has said that there is none. -/
def GoneBy (told : List Exchange) (p : Pid) : Prop :=
  2147483647 < p ∨ (⟨.probe p, .error .noProcess⟩ : Exchange) ∈ told

/-- A part of a dialogue that has nothing to do with reclaimed locks. -/
def Unremarkable (told : List Exchange) : Prop := ∀ x ∈ told, x.1.isRemark = false

@[simp] theorem reclaimsTold_append (t t' : List Exchange) :
    reclaimsTold (t ++ t') = reclaimsTold t ++ reclaimsTold t' := by
  simp [reclaimsTold]

namespace Unremarkable
variable {t t' past rest told : List Exchange} {x : Exchange} {me : Pid} {content : String}

@[simp] theorem nil : Unremarkable [] := List.forall_mem_nil _

theorem cons (hx : x.1.isRemark = false) (h : Unremarkable t) : Unremarkable (x :: t) :=
  List.forall_mem_cons.2 ⟨hx, h⟩

theorem reclaimsTold_eq_nil (h : Unremarkable t) : reclaimsTold t = [] := by
  refine List.filterMap_eq_nil_iff.2 fun x hx => ?_
  have hremark := h x hx
  generalize x.1 = c at hremark ⊢
  cases c <;> first | rfl | simpa [Call.isRemark] using hremark

theorem not_mem (h : Unremarkable t) {p : Pid} {y : (Call.probe p).Answer} :
    (⟨.probe p, y⟩ : Exchange) ∉ t := by
  intro hmem
  have hremark := h _ hmem
  cases hremark

/-- Other parts of a dialogue do not change a diagnosis. -/
theorem diagnosis (hpast : Unremarkable past) (hrest : Unremarkable rest)
    (h : Diagnosis (GoneBy told) me content (reclaimsTold told)) :
    Diagnosis (GoneBy (past ++ told ++ rest)) me content (reclaimsTold (past ++ told ++ rest)) := by
  have hgone : GoneBy (past ++ told ++ rest) = GoneBy told := by
    funext p
    simp [GoneBy, hpast.not_mem, hrest.not_mem]
  rw [hgone]
  simpa [hpast.reclaimsTold_eq_nil, hrest.reclaimsTold_eq_nil] using h

end Unremarkable

section Told
variable {α : Type} {me d pid : Pid} {path dir : Path} {name content : String} {p : Program α}
  {told : List Exchange}

theorem Dialogue.unremarkable {z : Completion α} (h : Dialogue me p told z)
    (hp : p.Avoids Call.isRemark) : Unremarkable told := by
  induction h with
  | done | halt => exact .nil
  | @ask c next x told z _ _ ih =>
    refine .cons ?_ (ih (hp.2 x))
    have hc := hp.1
    cases c with
    | say o => cases o <;> exact hc
    | _ => exact hc

theorem dialogue_report {e : Event} {z : Completion Unit} (h : Dialogue me (report e) told z) :
    told = [⟨.say (.event [] e), ()⟩] ∧ z = .returned () := by
  have hreport : Dialogue me (report e >>= pure) told z := h
  obtain ⟨rest, hrest, rfl⟩ := dialogue_report_iff.1 hreport
  obtain ⟨rfl, rfl⟩ := dialogue_pure_iff.1 hrest
  exact ⟨rfl, rfl⟩

/-- A process is found alive unless it is gone by what was told. -/
theorem Dialogue.of_isAlive {z : Completion Bool} (h : Dialogue me (isAlive pid) told z)
    (hpid : pid ≠ 0) : reclaimsTold told = [] ∧
      ∃ alive, z = .returned alive ∧ (alive = false ↔ GoneBy told pid) := by
  have hnone : pid = 0 ∨ Pid.limit ≤ pid ↔ 2147483647 < pid := or_iff_right hpid
  unfold isAlive at h
  by_cases hlarge : 2147483647 < pid
  · rw [if_pos (hnone.2 hlarge)] at h
    obtain ⟨rfl, rfl⟩ := dialogue_pure_iff.1 h
    exact ⟨rfl, false, rfl, by simp [GoneBy, hlarge]⟩
  · rw [if_neg (mt hnone.1 hlarge)] at h
    obtain ⟨x, rest, -, hrest, rfl⟩ := dialogue_call_iff.1 h
    cases x with
    | ok =>
      obtain ⟨rfl, rfl⟩ := dialogue_pure_iff.1 hrest
      exact ⟨rfl, true, rfl, by simp [GoneBy, hlarge, Exchange.of]⟩
    | error e =>
      obtain ⟨rfl, rfl⟩ := dialogue_pure_iff.1 hrest
      refine ⟨rfl, _, rfl, ?_⟩
      rw [decide_eq_false_iff_not, Classical.not_not]
      simp [GoneBy, hlarge, Exchange.of, eq_comm (a := e)]

/-- **What is reported on an old content**, whatever a probe is answered. -/
theorem Dialogue.of_reportFormerOwner {z : Completion Unit}
    (h : Dialogue me (Attempt.reportFormerOwner path me content) told z) :
    Diagnosis (GoneBy told) me content (reclaimsTold told) := by
  unfold Attempt.reportFormerOwner at h
  cases hparse : Stamp.parse? content with
  | none =>
    simp only [hparse] at h
    obtain ⟨rfl, rfl⟩ := dialogue_pure_iff.1 h
    exact .of_unnamed hparse
  | some q =>
    simp only [hparse] at h
    by_cases hme : q = me
    · rw [if_pos hme] at h
      obtain ⟨rfl, -⟩ := dialogue_report h
      exact .of_own (hme ▸ hparse)
    · rw [if_neg hme] at h
      rcases h.of_bind with ⟨alive, t₁, t₂, hlook, hreport, rfl⟩ | ⟨e, hlook, -⟩
      · obtain ⟨hnone, _, hend, hgone⟩ := hlook.of_isAlive (Stamp.ne_zero_of_parse? hparse)
        obtain rfl := Completion.returned.inj hend
        cases alive with
        | false =>
          obtain ⟨rfl, -⟩ := dialogue_report hreport
          have hcalled :
              reclaimsTold (t₁ ++ [⟨.say (.event [] (.reclaimed path q)), ()⟩]) = [q] := by
            rw [reclaimsTold_append, hnone]
            rfl
          rw [hcalled]
          exact .of_dead hparse hme ((hgone.1 rfl).imp_right (List.mem_append_left _))
        | true =>
          obtain ⟨rfl, -⟩ := dialogue_report hreport
          have hcalled :
              reclaimsTold (t₁ ++ [⟨.say (.event [] (.formerOwnerAlive path q)), ()⟩]) = [] := by
            rw [reclaimsTold_append, hnone]
            rfl
          rw [hcalled]
          refine .of_alive hparse fun hdead => ?_
          have hgone' : GoneBy t₁ q := hdead.imp_right fun hmem => by simpa using hmem
          cases hgone.2 hgone'
      · obtain ⟨-, _, hend, -⟩ := hlook.of_isAlive (Stamp.ne_zero_of_parse? hparse)
        cases hend

/-- A part of a dialogue that a content is read in, and what it is diagnosed as. -/
def Diagnosed (me : Pid) (d : Descriptor) (told : List Exchange) : Prop :=
  ∃ old content, (⟨.read d, .ok old⟩ : Exchange) ∈ told ∧ Utf8.decode? old = some content ∧
    Diagnosis (GoneBy told) me content (reclaimsTold told)

theorem Diagnosed.beside {past rest : List Exchange} (h : Diagnosed me d told)
    (hpast : Unremarkable past) (hrest : Unremarkable rest) :
    Diagnosed me d (past ++ told ++ rest) := by
  obtain ⟨old, content, hread, htext, hdiagnosis⟩ := h
  refine ⟨old, content, ?_, htext, hpast.diagnosis hrest hdiagnosis⟩
  exact List.mem_append_left _ (List.mem_append_right _ hread)

theorem Diagnosed.after {past : List Exchange} (h : Diagnosed me d told)
    (hpast : Unremarkable past) : Diagnosed me d (past ++ told) :=
  List.append_nil (past ++ told) ▸ h.beside hpast .nil

theorem Dialogue.of_stamp (h : Dialogue me (Attempt.stamp path d) told (.returned (.ok ()))) :
    Diagnosed me d told := by
  unfold Attempt.stamp at h
  obtain ⟨x, rest, -, hrest, rfl⟩ := dialogue_call_iff.1 h
  have hfailed : ∀ {e : IoError}, ¬ Dialogue me (pure (.error e)) rest
      (.returned (.ok () : Except IoError Unit)) := by
    intro e h
    cases (dialogue_pure_iff.1 h).2
  cases x with
  | error e => exact absurd hrest hfailed
  | ok old =>
    cases htext : Utf8.decode? old with
    | none =>
      simp only [readText, htext] at hrest
      exact absurd hrest hfailed
    | some content =>
      simp only [readText, htext] at hrest
      obtain ⟨pid, rest, hpid, hstamp, rfl⟩ := dialogue_call_iff.1 hrest
      obtain rfl : pid = me := hpid
      rcases hstamp.of_bind with ⟨_, t₁, t₂, hreport, hrestamp, rfl⟩ | ⟨e, -, hend⟩
      · have hrewritten : Unremarkable t₂ :=
          hrestamp.unremarkable (Attempt.avoids_restamp pid d rfl rfl fun _ => rfl)
        have hbefore : Unremarkable [⟨.read d, .ok old⟩, ⟨.ownPid, pid⟩] :=
          .cons rfl (.cons rfl .nil)
        refine ⟨old, content, List.mem_cons_self .., htext, ?_⟩
        exact hbefore.diagnosis hrewritten hreport.of_reportFormerOwner
      · cases hend

theorem Program.Decides.value {R : List Exchange → α → Prop} {a : α} (hp : p.Decides me R)
    (h : Dialogue me p told (.returned a)) : R (decisions told) a := by
  obtain ⟨b, hb, hR⟩ := hp told _ h
  exact Completion.returned.inj hb ▸ hR

theorem Dialogue.of_finish {file : Descriptor}
    (h : Dialogue me (Attempt.finish path file) told (.returned (.ok (some d)))) :
    Diagnosed me d told := by
  unfold Attempt.finish at h
  rcases h.of_bind with ⟨x, t₁, t₂, hstamp, hend, rfl⟩ | ⟨e, -, hend⟩
  · cases x with
    | ok =>
      obtain ⟨rfl, hfile⟩ := dialogue_pure_iff.1 hend
      cases hfile
      exact hstamp.of_stamp.beside .nil .nil
    | error e =>
      have hreport : Neutral path me (Program.report (.stampFailed e)) := neutral_report _
      have hvain : (Attempt.closing file do
          Program.report (.stampFailed e)
          let _ ← Program.call (.unlock file)
          pure (.ok none)).Decides me fun _ a => a = .ok none :=
        Attempt.decides_closing (hreport.then_decides fun _ => .call fun _ _ => decides_pure rfl)
      cases hvain.value hend
  · cases hend

/-- Rounds that yield a file have diagnosed its content in the last one. -/
theorem Dialogue.of_tryRounds {n : Nat}
    (h : Dialogue me (Attempt.tryRounds path n) told (.returned (.ok (some d)))) :
    Diagnosed me d told := by
  induction n generalizing told with
  | zero => cases (dialogue_pure_iff.1 h).2
  | succ n ih =>
    unfold Attempt.tryRounds at h
    obtain ⟨x, _, -, hopened, rfl⟩ := dialogue_call_iff.1 h
    cases x with
    | error e =>
      have hfailing := ((Attempt.decides_fail e _).value hopened).2
      exact absurd hfailing.symm (Attempt.failing_ne e d)
    | ok file =>
      obtain ⟨y, _, -, hlocked, rfl⟩ := dialogue_call_iff.1 hopened
      cases y with
      | error e =>
        have hrefused := ((Attempt.decides_refused e).value hlocked).2
        split at hrefused
        · cases hrefused
        · exact absurd hrefused.symm (Attempt.failing_ne e d)
      | ok =>
        obtain ⟨linked, _, -, hlinked, rfl⟩ := dialogue_call_iff.1 hlocked
        have hround : Unremarkable [⟨.openFile path, .ok file⟩, ⟨.tryLock file, .ok ()⟩,
            ⟨.leadsTo path file, linked⟩] := .cons rfl (.cons rfl (.cons rfl .nil))
        cases linked with
        | true => exact hlinked.of_finish.after hround
        | false =>
          -- a file that is not at its path any more is let go before it is read
          obtain ⟨_, hreported, rfl⟩ := dialogue_report_iff.1 hlinked
          obtain ⟨y, _, -, hunlocked, rfl⟩ := dialogue_call_iff.1 hreported
          obtain ⟨z, _, -, hclosed, rfl⟩ := dialogue_call_iff.1 hunlocked
          have horphan : Unremarkable [⟨.say (.event [] .orphaned), ()⟩, ⟨.unlock file, y⟩,
              ⟨.close file, z⟩] := .cons rfl (.cons rfl (.cons rfl .nil))
          exact ((ih hclosed).after horphan).after hround

theorem Dialogue.of_attempt (h : Dialogue me (attempt path) told (.returned (.ok (some d)))) :
    Diagnosed me d told := by
  have hattempt := (dialogue_within _).1 h
  cases hq : path.parent? with
  | none =>
    simp only [hq] at hattempt
    exact hattempt.of_tryRounds
  | some q =>
    simp only [hq] at hattempt
    obtain ⟨x, rest, -, hrest, rfl⟩ := dialogue_call_iff.1 hattempt
    cases x with
    | error e =>
      have hfailing := ((Attempt.decides_fail e _).value hrest).2
      exact absurd hfailing.symm (Attempt.failing_ne e d)
    | ok =>
      have hmade : Unremarkable [⟨.makeDirs q, .ok ()⟩] := .cons rfl .nil
      exact hrest.of_tryRounds.after hmade

/-- **An acquisition has diagnosed the content of the file that it holds**, whatever the system
    has answered. -/
theorem Dialogue.of_acquire {h : Handle}
    (hacquire : Dialogue me (Handle.acquire dir name) told (.returned (.ok h)))
    (hacq : h.isAcquired = true) : ∃ d, h.held = some d ∧ Diagnosed me d told := by
  have hacquire := (dialogue_within _).1 hacquire
  by_cases hname : IsValidName name
  · rw [if_pos hname] at hacquire
    rcases hacquire.of_bind with ⟨x, t₁, t₂, hattempt, hend, rfl⟩ | ⟨e, -, hend⟩
    · match x with
      | .error e => cases (dialogue_pure_iff.1 hend).2
      | .ok none =>
        cases (dialogue_pure_iff.1 hend).2
        cases hacq
      | .ok (some d) =>
        obtain ⟨rest, hrest, rfl⟩ := dialogue_report_iff.1 hend
        obtain ⟨rfl, hhandle⟩ := dialogue_pure_iff.1 hrest
        cases hhandle
        have hacquired :
            Unremarkable [⟨.say (.event [] (.acquired name (lockPath dir name))), ()⟩] :=
          .cons rfl .nil
        exact ⟨d, rfl, hattempt.of_attempt.beside .nil hacquired⟩
    · cases hend
  · rw [if_neg hname] at hacquire
    cases (dialogue_halt_iff.1 hacquire).2

end Told

/-! ## Reclaim diagnosis -/

theorem Stamp.text_eq_toString (pid : Pid) : text pid = Utf8.encode (toString pid ++ "\n") := by
  rw [text_eq, String.ofList_append]
  rfl

open Machine in
/-- **Reclaim diagnosis and stamp.**  Over a lock file that nobody has locked and that holds text
    of any length, an acquisition that succeeds, as it does if the file may be read and written,
    leaves just the own number in decimals and a newline.  It calls a process dead exactly if
    the old text names it, it is not the acquiring one, and no process has its number: the
    number is too large, or the system answers a probe that there is none.  No other answer to
    the probe will do, whatever the system says; and what the text names is called dead once. -/
theorem reclaim_diagnosis (dir : Path) (name : String) (me : Pid) :
    (∀ (m : Machine) (i : Inode) (old : Bytes) (content : String), m.WellFormed →
      IsValidName name → m.tree.Leads (lockPath dir name) i → m.tree.file? i = some old →
      Utf8.decode? old = some content → m.locks.get? i = none →
      (m.tree.may i .read = true → m.tree.may i .write = true → ∃ h m',
        m.run me (Handle.acquire dir name) = (.returned (.ok h), m') ∧ h.isAcquired = true) ∧
      ∀ h m', m.run me (Handle.acquire dir name) = (.returned (.ok h), m') →
        h.isAcquired = true →
        m'.tree.file? i = some (Utf8.encode (toString me ++ "\n")) ∧
        m'.tree.Leads (lockPath dir name) i ∧
        ∃ news, m'.said = news ++ m.said ∧
          Diagnosis (fun p => 2147483647 < p ∨ m.probe p = .error .noProcess) me content
            (reclaimsSaid (heard news))) ∧
    ∀ told h, Dialogue me (Handle.acquire dir name) told (.returned (.ok h)) →
      h.isAcquired = true →
      ∃ d old content, h.held = some d ∧ (⟨.read d, .ok old⟩ : Exchange) ∈ told ∧
        Utf8.decode? old = some content ∧
        Diagnosis (fun p => 2147483647 < p ∨ (⟨.probe p, .error .noProcess⟩ : Exchange) ∈ told) me
          content (reclaimsTold told) := by
  refine ⟨fun m i old content hw hname hl hfile htext hfree => ⟨fun hread hwrite => ?_, ?_⟩, ?_⟩
  · have hopen := FileTree.openPath_of_leads hl (FileTree.isDirectory_of_file? hfile) hread hwrite
    have hoffers : m.Offers (lockPath dir name) m.tree i old content :=
      ⟨hopen, hl, hfile, hfree, htext⟩
    have htaken : m.Gives me (Attempt.tryRounds (lockPath dir name) Attempt.rounds) _ _ :=
      (hoffers.reports 2).gives
    obtain ⟨_, _, -, hrun⟩ := (gives_acquire hname (hl.settled hname) htaken).run
    exact ⟨_, _, hrun, rfl⟩
  · intro h m' hrun hacq
    rw [← Stamp.text_eq_toString]
    exact acquired_over hw hname hl hfile htext hrun hacq
  · intro told h hacquire hacq
    obtain ⟨d, hd, old, content, hread, htext, hdiagnosis⟩ := hacquire.of_acquire hacq
    exact ⟨d, old, content, hd, hread, htext, hdiagnosis⟩

open Contest in
/-- The process `1` finds the stamp of the process `7`, of which there is none, calls it dead,
    and puts its own stamp in its place. -/
theorem reclaim_diagnosis_of_seven : ∃ (m m' : Machine) (i : Inode) (h : Handle)
    (news : List (Pid × Output)), m.tree.Leads (lockPath root "a") i ∧
    m.tree.file? i = some (Stamp.text 7) ∧
    m.run 1 (Handle.acquire root "a") = (.returned (.ok h), m') ∧ h.isAcquired = true ∧
    m'.tree.file? i = some (Utf8.encode "1\n") ∧ m'.said = news ++ m.said ∧
    7 ∈ reclaimsSaid (heard news) := by
  let m := ((Machine.bare 1).run 1 do
    let _ ← call (.openFile (lockPath root "a"))
    let _ ← call (.write 0 (Stamp.text 7))
    call (.close 0)).2
  have hw : m.WellFormed := Machine.run_wellFormed (Machine.bare_wellFormed 1) 1 _
  have hl : m.tree.Leads (lockPath root "a") 2 := by
    have hfind : (m.tree.find .node (lockPath root "a")).toOption = some 2 := by decide +kernel
    cases h : m.tree.find .node (lockPath root "a") with
    | error e => simp [h, Except.toOption] at hfind
    | ok i =>
      obtain rfl : i = 2 := by simpa [h, Except.toOption] using hfind
      exact h
  have hfile : m.tree.file? 2 = some (Stamp.text 7) := by decide +kernel
  have htext : Utf8.decode? (Stamp.text 7) = some "7\n" := by decide +kernel
  obtain ⟨h, m', hrun, hacq⟩ : ∃ h m', m.run 1 (Handle.acquire root "a") =
      (.returned (.ok h), m') ∧ h.isAcquired = true :=
    Machine.run_acquire_of_outcome? (by decide +kernel)
  obtain ⟨hstamp, -, news, hsaid, hdiagnosis⟩ := ((reclaim_diagnosis root "a" 1).1 m 2 _ _ hw
    (by decide) hl hfile htext (by decide +kernel)).2 h m' hrun hacq
  have hseven : Stamp.parse? "7\n" = some 7 := by decide +kernel
  have hgone : m.probe 7 = .error .noProcess := by
    have hnone : m.processes.get? 7 = none := by decide +kernel
    simp only [Machine.probe, hnone]
  exact ⟨m, m', 2, h, news, hl, hfile, hrun, hacq, hstamp, hsaid,
    (hdiagnosis.mem_iff 7).2 ⟨hseven, by decide, Or.inr hgone⟩⟩

end NamedMutex
