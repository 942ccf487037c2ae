import RepairLoop.Proofs.Repair.Candidates
import RepairLoop.Proofs.Repair.Process
import RepairLoop.Proofs.Repair.Tracks
/-!
# Repair — the course of a repair

Every step of a repair up to the application keeps the store to its shape,
whether it comes to a result or is stopped, so the shape is all that has to be
known between two steps, beside the candidates in hand (`Roll`): they are those
that are stored, and they are vetted. Candidates are moved and stored again one
after the other, all in the same way (`moveEach_leads`).
-/

namespace RepairLoop

open Act (Keeps Obeys Leads)
open World (Apart Ready)
open Store (Tracks Halted)

/-- The open store is of a kind. -/
def World.Has (I : Store → Prop) (w : World) : Prop := I w.store

open World (Has)

variable {t : Track} {ids : List String} {landed : Option String} {p q : Patch}
variable {I J : Store → Prop}

/-! ## Candidates -/

namespace Track

/-- A candidate belongs to the issue and is vetted. -/
structure Member (t : Track) (p : Patch) : Prop where
  owner : p.issueId = t.issue
  vetted : p.Vetted t.ok

/-- A new candidate may be stored. -/
theorem Member.holds_new (h : t.Member p) (hnew : p.New) : t.Holds none p :=
  ⟨hnew.rolledBack, h.vetted, fun ha => absurd (hnew.applied.symm.trans ha) (by decide),
    fun _ => h.owner⟩

theorem Member.moves {a : PatchAction} (h : t.Member p) (hm : Patch.Moves p a q)
    (hbegin : a = .begin → p.needsReview = false) : t.Member q := by
  refine ⟨?_, h.vetted.moves hm hbegin⟩
  cases hm <;> exact h.owner

/-- A candidate that was moved, but neither applied nor rolled back, may be
stored. -/
theorem Member.holds_moved {a : PatchAction} (h : t.Member p) (hm : Patch.Moves p a q)
    (hbegin : a = .begin → p.needsReview = false) (ha : ¬ Patch.Marking a) : t.Holds none q := by
  have hmember := h.moves hm hbegin
  obtain ⟨hr, hna⟩ := hm.unapplied fun heq => ha (heq ▸ trivial)
  have hq : q.rolledBack = false ∧ q.applied = false := by
    cases hm with
    | begin | invalidate | pass | fail | reject => exact ⟨hr, hna⟩
    | apply | rollBack => exact absurd trivial ha
  exact ⟨hq.1, hmember.vetted, fun happlied => absurd (hq.2.symm.trans happlied) (by decide),
    fun _ => hmember.owner⟩

end Track

namespace Session

/-! ## Single steps -/

/-- What leaves the stores alone leaves the store as it is known. -/
theorem apart_leads {α : Type} {T : α → Prop} {x : Act α} (h : Obeys Apart T x) :
    Leads (Has I) x (fun a w => T a ∧ Has I w) (Has I) :=
  .of_obeys h fun _ _ hw ha => by rw [Has, ha.store]; exact hw

theorem setStatus_leads {i : Issue} {status : IssueStatus}
    (h : ∀ s s' now, I s → s.setIssueStatus i.id status now = .ok s' → J s') :
    Leads (Has I) (setStatus i status) (fun j w => j = { i with status := status } ∧ Has J w)
      (Has I) :=
  (apart_leads Act.now_apart).bind fun _ => .given fun _ =>
    Leads.bind (Q := fun _ => Has J) (.storing (fun _ _ hw hs => h _ _ _ hw hs) fun _ hw => hw)
      fun _ => .pure fun _ hw => ⟨rfl, hw⟩

/-- **A candidate that may be stored is stored.** -/
theorem keepPatch_leads (hp : t.Holds none p) (hlanded : landed ≠ some p.id)
    (hnew : p.id ∈ ids ∨ (t.fresh → ∀ r ∈ t.old, r.id ≠ p.id)) :
    Leads (Has (Tracks t ids landed)) (keepPatch p) (fun _ => Has (Tracks t (p.id :: ids) landed))
      (Has (Tracks t ids landed)) := by
  refine (apart_leads Act.now_apart).bind fun now => .given fun _ =>
    .storing (fun w s hw hput => ?_) fun _ hw => hw
  have hnow : t.Holds none { p with updatedAt := now } := hp.of_eq rfl rfl rfl rfl rfl hp.owner
  have hput := hw.put hput hnow hlanded hnew
  exact hput

theorem move_moves (p : Patch) (a : PatchAction) : Obeys Apart (Patch.Moves p a) (move p a) :=
  (move_act p a).mono fun _ ⟨_, _, hact⟩ => Patch.moves_of_act hact

/-- **A candidate that is stored is moved and stored again.** -/
theorem move_keep_leads {a : PatchAction} (ha : ¬ Patch.Marking a) (hp : t.Member p)
    (hid : p.id ∈ ids) (hlanded : landed ≠ some p.id) (hbegin : a = .begin → p.needsReview = false) :
    Leads (Has (Tracks t ids landed)) (do
      let q ← move p a
      keepPatch q
      pure q)
      (fun q w => (q.id = p.id ∧ t.Member q) ∧ Has (Tracks t ids landed) w)
      (Has (Tracks t ids landed)) := by
  refine (apart_leads (move_moves p a)).bind fun q => .given fun hm => ?_
  have hq : q.id ∈ ids := hm.id ▸ hid
  refine (keepPatch_leads (hp.holds_moved hm hbegin ha) (hm.id ▸ hlanded) (Or.inl hq)).bind fun _ =>
    .pure fun w hw => ⟨⟨hm.id, hp.moves hm hbegin⟩, ?_⟩
  -- the name is one of those that are known already
  exact hw.congr fun id => ⟨fun h => (List.mem_cons.1 h).elim (· ▸ hq) fun h => h,
    List.mem_cons_of_mem _⟩

/-! ## Candidates one after the other -/

/-- The candidates of a repair, under their names. -/
structure Roll (t : Track) (ids : List String) (ps : List Patch) : Prop where
  names : ps.map Patch.id = ids
  members : ∀ p ∈ ps, t.Member p

theorem moveEach_leads {c : Patch → Bool} {a : PatchAction} (ha : ¬ Patch.Marking a)
    {ps : List Patch} (hps : ∀ p ∈ ps, t.Member p ∧ p.id ∈ ids)
    (hc : ∀ p ∈ ps, c p = true → landed ≠ some p.id ∧ (a = .begin → p.needsReview = false)) :
    Leads (Has (Tracks t ids landed)) (moveEach c a ps)
      (fun qs w => Roll t (ps.map Patch.id) qs ∧ Has (Tracks t ids landed) w)
      (Has (Tracks t ids landed)) := by
  induction ps with
  | nil => exact .pure fun _ hw => ⟨⟨rfl, by simp⟩, hw⟩
  | cons p ps ih =>
    obtain ⟨⟨hp, hid⟩, hrest⟩ := List.forall_mem_cons.1 hps
    obtain ⟨hcp, hcrest⟩ := List.forall_mem_cons.1 hc
    have hnext (q : Patch) (hq : q.id = p.id ∧ t.Member q) :
        Leads (Has (Tracks t ids landed)) (do
          let qs ← moveEach c a ps
          pure (q :: qs))
          (fun qs w => Roll t ((p :: ps).map Patch.id) qs ∧ Has (Tracks t ids landed) w)
          (Has (Tracks t ids landed)) := by
      refine (ih hrest hcrest).bind fun qs => .pure fun w ⟨hqs, hw⟩ => ⟨⟨?_, ?_⟩, hw⟩
      · rw [List.map_cons, List.map_cons, hq.1, hqs.names]
      · exact List.forall_mem_cons.2 ⟨hq.2, hqs.members⟩
    rw [moveEach]
    split
    · rename_i hkind
      obtain ⟨hlanded, hbegin⟩ := hcp hkind
      have hmoved := (move_keep_leads ha hp hid hlanded hbegin).bind fun q => .given (hnext q)
      simpa only [bind_assoc, pure_bind] using hmoved
    · exact hnext p ⟨rfl, hp⟩

/-! ## Validation -/

theorem keepPatches_from {ps : List Patch} (hps : ∀ p ∈ ps, p.New ∧ t.Member p)
    (hnew : t.fresh → ∀ p ∈ ps, ∀ r ∈ t.old, r.id ≠ p.id) :
    Leads (Has (Tracks t ids none)) (keepPatches ps)
      (fun _ => Has (Tracks t ((ps.map Patch.id).reverse ++ ids) none)) (Has (Halted t)) := by
  induction ps generalizing ids with
  | nil => exact .pure fun _ hw => hw
  | cons p ps ih =>
    obtain ⟨⟨hp, hmember⟩, hrest⟩ := List.forall_mem_cons.1 hps
    have hkeep : Leads (Has (Tracks t ids none)) (keepPatch p)
        (fun _ => Has (Tracks t (p.id :: ids) none)) (Has (Tracks t ids none)) :=
      keepPatch_leads (hmember.holds_new hp) (by simp) (Or.inr fun hf => hnew hf p List.mem_cons_self)
    refine (hkeep.stops fun _ hw => hw.halted).bind fun _ => ?_
    refine (ih hrest fun hf q hq => hnew hf q (List.mem_cons_of_mem _ hq)).post fun _ w hw => ?_
    rw [List.map_cons, List.reverse_cons, List.append_assoc]
    exact hw

/-- **New candidates are stored**, one name after the other. -/
theorem keepPatches_leads {ps : List Patch} (hps : ∀ p ∈ ps, p.New ∧ t.Member p)
    (hnew : t.fresh → ∀ p ∈ ps, ∀ r ∈ t.old, r.id ≠ p.id) :
    Leads (Has (Tracks t [] none)) (keepPatches ps)
      (fun _ => Has (Tracks t (ps.map Patch.id) none)) (Has (Halted t)) :=
  (keepPatches_from hps hnew).post fun _ _ hw => hw.congr fun id => by simp

/-- **The validation of those candidates begins that need no review.** -/
theorem beginAll_leads {ps : List Patch} (hps : ∀ p ∈ ps, t.Member p) :
    Leads (Has (Tracks t (ps.map Patch.id) none)) (beginAll ps)
      (fun qs w => Roll t (ps.map Patch.id) qs ∧ Has (Tracks t (ps.map Patch.id) none) w)
      (Has (Halted t)) := by
  rw [beginAll_eq]
  refine (moveEach_leads id (fun p hp => ⟨hps p hp, List.mem_map_of_mem hp⟩)
    fun p _ hc => ⟨by simp, fun _ => ?_⟩).stops fun _ hw => hw.halted
  rw [isOpenCandidate, Bool.and_eq_true, Bool.not_eq_true'] at hc
  exact hc.2

theorem recordInto_leads {allow : Bool} {r : ValidationResult} (hp : t.Member p)
    (hid : p.id ∈ ids) :
    Leads (Has (Tracks t ids none)) (recordInto allow p r)
      (fun e w => (e.1.id = p.id ∧ t.Member e.1) ∧ Has (Tracks t ids none) w) (Has (Halted t)) := by
  have hrecord : Leads (Has (Tracks t ids none)) (recordResult allow p r)
      (fun _ => Has (Tracks t ids none)) (Has (Tracks t ids none)) := by
    refine Leads.bind (Q := fun _ => Has (Tracks t ids none)) (.storing (fun w s hw hadd => ?_)
      fun _ hw => hw) fun _ => (move_keep_leads id hp hid (by simp) (by simp)).post fun _ _ h => h.2
    obtain ⟨stamp, rfl⟩ := Store.addResult_eq hadd
    exact hw.of_eq rfl rfl
  intro w hw
  obtain ⟨q, fault, hrun, hmoved⟩ := recordInto_run allow p r w
  rw [hrun]
  refine ⟨?_, Leads.ends_iff.1 hrecord w hw⟩
  rcases hmoved with rfl | hm
  · exact ⟨rfl, hp⟩
  · exact ⟨hm.id, hp.moves hm (by simp)⟩

/-- A report on a repair in which a candidate may have landed. -/
structure Sheet (t : Track) (ids : List String) (landed : Option String) (r : IssueReport) :
    Prop where
  issue : r.issue.id = t.issue
  roll : Roll t ids r.candidates
  applied : r.applied = landed
  kept : r.rolledBack = false

/-- What is put in the place of a patch has its name. -/
theorem map_replaced (ps : List Patch) (q : Patch) :
    (replaced ps q).map Patch.id = ps.map Patch.id := by
  rw [replaced, List.map_map]
  refine List.map_congr_left fun p _ => ?_
  rw [Function.comp_apply]
  split
  · rename_i heq
    exact (beq_iff_eq.1 heq).symm
  · rfl

theorem Roll.replaced {ps : List Patch} (h : Roll t ids ps) (hq : t.Member q) :
    Roll t ids (replaced ps q) := by
  refine ⟨(map_replaced ps q).trans h.names, fun p hp => ?_⟩
  obtain ⟨o, ho, rfl⟩ := List.mem_map.1 hp
  split
  · exact hq
  · exact h.members o ho

/-- **The results of the gate are recorded**, as far as they are taken. -/
theorem recordAll_leads {allow : Bool} {report : IssueReport}
    {rs : List (Patch × ValidationResult)} (hreport : Sheet t ids none report)
    (hrs : ∀ e ∈ rs, t.Member e.1 ∧ e.1.id ∈ ids) :
    Leads (Has (Tracks t ids none)) (recordAll allow report rs)
      (fun r w => Sheet t ids none r.1 ∧ Has (Tracks t ids none) w) (Has (Halted t)) := by
  induction rs generalizing report with
  | nil => exact .pure fun _ hw => ⟨hreport, hw⟩
  | cons e rest ih =>
    obtain ⟨⟨hp, hid⟩, hrest⟩ := List.forall_mem_cons.1 hrs
    refine (recordInto_leads hp hid).bind fun recorded => .given fun hq => ?_
    obtain ⟨q, fault⟩ := recorded
    have hsheet : Sheet t ids none { report with candidates := replaced report.candidates q } :=
      ⟨hreport.issue, hreport.roll.replaced hq.2, hreport.applied, hreport.kept⟩
    cases fault with
    | some f => exact .pure fun _ hw => ⟨hsheet, hw⟩
    | none => exact ih ⟨hsheet.issue, hsheet.roll, hsheet.applied, hsheet.kept⟩ hrest

theorem validateInto_leads (s : Session) {report : IssueReport} (hreport : Sheet t ids none report) :
    Leads (Has (Tracks t ids none)) (s.validateInto report)
      (fun r w => Sheet t ids none r.1 ∧ Has (Tracks t ids none) w) (Has (Halted t)) := by
  refine (apart_leads (s.gate.validateMany_earned _)).attempt.bind fun results => ?_
  cases results with
  | error f => exact .pure fun _ hw => ⟨hreport, hw⟩
  | ok rs =>
    refine .given fun _ => recordAll_leads hreport fun e he => ?_
    have hmem := List.mem_of_mem_filter (List.of_mem_zip he).1
    refine ⟨hreport.roll.members e.1 hmem, ?_⟩
    rw [← hreport.roll.names]
    exact List.mem_map_of_mem hmem

end Session

end RepairLoop

/-!
## Repair — how a repair ends

Every way through a repair that comes to a report settles the issue
(`Settles`): the store shows it as resolved or open as the report says, and of
the candidates in the report one stands applied if it is resolved and none if
it is not. Every fault that stops a repair leaves the issue in progress, since
no step behind the last change of the status can fail. Whatever is applied in
either case was applied before or was let through by the gate.
-/

namespace RepairLoop

open Act (Keeps Obeys Leads)
open World (Apart Ready Has)
open Store (Tracks Halted)

variable {t : Track} {ids : List String} {p q : Patch} {id : String}

/-- The report tells how the issue stands in the store. -/
structure IssueReport.Settles (t : Track) (r : IssueReport) (s : Store) : Prop where
  safe : s.Safe t
  status : t.fresh → s.Shows t.issue (if r.isResolved then .resolved else .open_)
  count : t.fresh →
    r.candidates.countP (fun p => s.standing p.id) = if r.isResolved then 1 else 0

namespace IssueReport.Settles

variable {r : IssueReport} {s : Store}

theorem of_open (h : r.isResolved = false) (hsafe : s.Safe t)
    (hstatus : t.fresh → s.Shows t.issue .open_)
    (hcount : t.fresh → r.candidates.countP (fun p => s.standing p.id) = 0) : r.Settles t s := by
  refine ⟨hsafe, ?_, ?_⟩
  · rw [h]
    exact hstatus
  · rw [h]
    exact hcount

theorem of_resolved (h : r.isResolved = true) (hsafe : s.Safe t)
    (hstatus : t.fresh → s.Shows t.issue .resolved)
    (hcount : t.fresh → r.candidates.countP (fun p => s.standing p.id) = 1) : r.Settles t s := by
  refine ⟨hsafe, ?_, ?_⟩
  · rw [h]
    exact hstatus
  · rw [h]
    exact hcount

end IssueReport.Settles

namespace Session

/-! ### Reports on issues that stay open -/

/-- **An issue that is left open is open, and nothing stands for it.** -/
theorem leftOpen_leads {report : IssueReport} (error : String)
    (hreport : Sheet t ids none report) :
    Leads (Has (Tracks t ids none)) (leftOpen report error) (fun r w => r.Settles t w.store)
      (Has (Halted t)) := by
  refine Leads.bind ((setStatus_leads (J := fun s => s.Safe t ∧ s.Shows t.issue .open_ ∧
    (t.fresh → report.candidates.countP (fun p => s.standing p.id) = 0)) ?_).stops
      fun _ hw => hw.halted) fun i => .pure fun w ⟨_, hsafe, hstatus, hcount⟩ => ?_
  · intro s s' now hs hset
    have hstatus := Store.setIssueStatus_status hset
    rw [hreport.issue] at hstatus
    obtain ⟨_, -, rfl⟩ := Store.setIssueStatus_eq hset
    rw [← hreport.roll.names] at hs
    exact ⟨hs.safe, hstatus, hs.countP_none⟩
  · refine .of_open ?_ hsafe (fun _ => hstatus) hcount
    simp [IssueReport.isResolved, IssueReport.withError, hreport.applied]

/-! ### Applying -/

/-- **A candidate that is applied lands**, and a fault comes before that. -/
theorem applyPatch_leads (s : Session) (i : Issue) (hp : t.Member p) (hid : p.id ∈ ids) :
    Leads (Has (Tracks t ids none)) (s.applyPatch i p)
      (fun q w => (q.id = p.id ∧ t.Member q) ∧ Has (Tracks t ids (some p.id)) w)
      (Has (Tracks t ids none)) := by
  refine (apart_leads (requireValidated_apart p)).bind fun _ => .given fun _ => ?_
  refine (apart_leads (applyToRepository_apart _ i p)).bind fun change => .given fun _ => ?_
  refine (apart_leads (move_moves p _)).bind fun q => .given fun hm => ?_
  refine (apart_leads Act.now_apart).bind fun now => .given fun _ => ?_
  refine Leads.bind (Q := fun _ => Has (Tracks t ids (some p.id)))
    (.storing (fun _ _ hw hmark => hw.markApplied hid hmark) fun _ hw => hw) fun _ => ?_
  refine Leads.emit.bind fun _ => .pure fun w' ⟨w, hw, hstore⟩ => ⟨⟨hm.id, ?_⟩, ?_⟩
  · exact hp.moves hm (by simp)
  · rw [Has, hstore]
    exact hw

/-! ### Rolling back -/

/-- The store where the candidate that had landed was rolled back. -/
structure Undone (t : Track) (ids : List String) (s : Store) : Prop where
  safe : s.Safe t
  status : t.fresh → s.Shows t.issue .open_
  rows : ∀ q ∈ s.patches, q.id ∈ ids → q.applied = true → q.rolledBack = true

/-- What stands is not rolled back. -/
theorem standing_of_rows {s : Store} (h : ∀ q ∈ s.patches, q.id ∈ ids → q.applied = true →
    q.rolledBack = true) (hid : id ∈ ids) : s.standing id = false := by
  rw [Store.standing]
  cases hrow : s.rawPatch? id with
  | none => rfl
  | some q =>
    obtain ⟨hq, rfl⟩ := Store.rawPatch?_eq_some hrow
    rw [Option.any_some]
    cases ha : q.applied with
    | false => rfl
    | true => rw [h q hq hid ha]; rfl

/-- **A rollback opens the issue of its patch in its last change of the
store**; a fault comes before that. -/
theorem rollBack_leads (s : Session) (hid : id ∈ ids) :
    Leads (Has (Tracks t ids (some id))) (s.rollBack id) (fun _ => Has (Undone t ids))
      (Has (Halted t)) := by
  have hstops {α : Type} {T : α → Prop} {x : Act α} (h : Obeys Apart T x) :
      Leads (Has (Tracks t ids (some id))) x (fun a w => T a ∧ Has (Tracks t ids (some id)) w)
        (Has (Halted t)) := (apart_leads h).stops fun _ hw => hw.halted
  refine Leads.bind (Q := fun found w =>
      (∀ p, found = some p → p.id = id ∧ (t.fresh → p.issueId = t.issue)) ∧
        Has (Tracks t ids (some id)) w)
    (.stored (fun w found hw hfound => ⟨fun p hp => ?_, hw⟩) fun _ hw => hw.halted) fun found =>
      .given fun hfound => ?_
  · obtain ⟨hrow, rfl⟩ := Store.patch?_eq_some (hp ▸ hfound)
    exact ⟨rfl, (hw.rows p hrow hid).owner⟩
  cases found with
  | none => exact .throw fun _ hw => hw.halted
  | some p =>
    obtain ⟨rfl, howner⟩ := hfound p rfl
    simp only
    split
    · exact .throw_bind fun _ hw => hw.halted
    · refine (hstops (undo_apart _ p)).bind fun method => .given fun _ => ?_
      refine (hstops (move_moves p _)).bind fun q => .given fun hm => ?_
      refine (hstops Act.now_apart).bind fun now => .given fun _ => ?_
      have hq : q.id = p.id ∧ q.issueId = p.issueId := by
        cases hm
        exact ⟨rfl, rfl⟩
      -- from here on nothing stands, and only the status is left
      refine Leads.bind (Q := fun _ => Has fun s => s.Halted t ∧ ∀ r ∈ s.patches, r.id ∈ ids →
          r.applied = true → r.rolledBack = true)
        (.storing (fun _ _ hw hmark => hw.markRolledBack hid (hq.1 ▸ hmark)) fun _ hw => hw.halted)
        fun _ => ?_
      refine ((apart_leads Act.now_apart).stops fun _ hw => hw.1).bind fun now => .given fun _ => ?_
      refine Leads.bind (Q := fun _ => Has (Undone t ids))
        (.storing (fun w s' hw hset => ?_) fun _ hw => hw.1) fun _ =>
          Leads.emit.bind fun _ => .pure fun w' ⟨w, hw, hstore⟩ => ?_
      · have hstatus := Store.setIssueStatus_status hset
        obtain ⟨_, -, rfl⟩ := Store.setIssueStatus_eq hset
        exact ⟨hw.1.safe, fun hf => (hq.2.trans (howner hf)) ▸ hstatus, hw.2⟩
      · rw [Has, hstore]
        exact hw

/-! ### From the candidates to the report -/

theorem afterApplying_leads (s : Session) {report : IssueReport} {winner : String}
    (hreport : Sheet t ids (some winner) report) (hid : winner ∈ ids) (hnames : ids.Nodup) :
    Leads (Has (Tracks t ids (some winner))) (s.afterApplying report winner)
      (fun r w => r.Settles t w.store) (Has (Halted t)) := by
  have hothers : Leads (Has (Tracks t ids (some winner))) (rejectOthers winner report.candidates)
      (fun qs w => Roll t ids qs ∧ Has (Tracks t ids (some winner)) w) (Has (Halted t)) := by
    rw [rejectOthers_eq, ← hreport.roll.names]
    rw [← hreport.roll.names] at hid
    refine (moveEach_leads id (fun p hp => ?_) fun p _ hc => ⟨fun heq => ?_, by simp⟩).stops
      fun _ hw => hw.halted
    · exact ⟨hreport.roll.members p hp, List.mem_map_of_mem hp⟩
    · rw [Bool.and_eq_true, bne_iff_ne] at hc
      exact hc.1 (Option.some.inj heq).symm
  refine hothers.bind fun candidates => .given fun hroll => ?_
  refine ((apart_leads (s.firstFailure_apart _ _)).stops fun _ hw => hw.halted).bind fun failed =>
    .given fun _ => ?_
  cases failed with
  | some error =>
    -- the stages have failed, so the candidate is rolled back
    refine (s.rollBack_leads hid).bind fun _ => .pure fun w hw =>
      .of_open (by simp [IssueReport.isResolved]) hw.safe hw.status fun _ => ?_
    refine List.countP_eq_zero.2 fun p hp => ?_
    have hmem : p.id ∈ ids := hroll.names ▸ List.mem_map_of_mem hp
    rw [standing_of_rows hw.rows hmem]
    simp
  | none =>
    refine ((setStatus_leads (J := fun s => s.Safe t ∧ s.Shows t.issue .resolved ∧
      (t.fresh → candidates.countP (fun p => s.standing p.id) = 1)) ?_).stops
        fun _ hw => hw.halted).bind fun i => .pure fun w ⟨_, hsafe, hstatus, hcount⟩ => ?_
    · intro s s' now hs hset
      have hstatus := Store.setIssueStatus_status hset
      rw [hreport.issue] at hstatus
      obtain ⟨_, -, rfl⟩ := Store.setIssueStatus_eq hset
      refine ⟨hs.safe, hstatus, fun hf => ?_⟩
      rw [← hroll.names] at hs hid hnames
      exact hs.countP_some hf hid hnames
    · refine .of_resolved ?_ hsafe (fun _ => hstatus) hcount
      simp [IssueReport.isResolved, hreport.applied, hreport.kept]

theorem mem_of_winner? {ps : List Patch} (h : winner? ps = some p) : p ∈ ps :=
  List.mem_of_mem_filter (Patch.mem_ranked.1 (List.mem_of_head? h))

/-- **Once the candidates are validated the issue is settled**, whether one of
them lands, is rolled back, or is refused. -/
theorem afterValidating_leads (s : Session) {report : IssueReport}
    (hreport : Sheet t ids none report) (hnames : ids.Nodup) :
    Leads (Has (Tracks t ids none)) (s.afterValidating report) (fun r w => r.Settles t w.store)
      (Has (Halted t)) := by
  unfold afterValidating
  split
  · exact leftOpen_leads _ hreport
  · rename_i winner hwinner
    have hmem := mem_of_winner? hwinner
    have hid : winner.id ∈ ids := hreport.roll.names ▸ List.mem_map_of_mem hmem
    refine (s.applyPatch_leads report.issue (hreport.roll.members winner hmem) hid).attempt.bind
      fun applied => ?_
    cases applied with
    | error f =>
      simp only
      split
      · exact leftOpen_leads _ hreport
      · exact .throw fun _ hw => hw.halted
    | ok q =>
      refine .given fun hq => ?_
      rw [← hq.1] at hid ⊢
      exact s.afterApplying_leads ⟨hreport.issue, hreport.roll.replaced hq.2, rfl, hreport.kept⟩ hid
        hnames

/-- **Once there are candidates the issue is settled, or in progress where a
fault stops the repair.** -/
theorem afterProposing_leads (s : Session) {report : IssueReport}
    (hissue : report.issue.id = t.issue) (happlied : report.applied = none)
    (hkept : report.rolledBack = false) (hps : ∀ p ∈ report.candidates, p.New ∧ t.Member p)
    (hnew : t.fresh → ∀ p ∈ report.candidates, ∀ r ∈ t.old, r.id ≠ p.id)
    (hnames : (report.candidates.map Patch.id).Nodup) :
    Leads (Has (Tracks t [] none)) (s.afterProposing report) (fun r w => r.Settles t w.store)
      (Has (Halted t)) := by
  refine (keepPatches_leads hps hnew).bind fun _ => ?_
  refine (beginAll_leads fun p hp => (hps p hp).2).bind fun candidates => .given fun hroll => ?_
  have hbegun : Sheet t (report.candidates.map Patch.id) none
      { report with candidates := candidates } := ⟨hissue, hroll, happlied, hkept⟩
  refine (s.validateInto_leads hbegun).bind fun validated => .given fun hsheet => ?_
  obtain ⟨report', fault⟩ := validated
  cases fault with
  | none => exact s.afterValidating_leads hsheet hnames
  | some f =>
    have hgiveUp : Leads (Has (Tracks t (report.candidates.map Patch.id) none))
        (giveUp report'.candidates)
        (fun qs w => Roll t (report.candidates.map Patch.id) qs ∧
          Has (Tracks t (report.candidates.map Patch.id) none) w) (Has (Halted t)) := by
      rw [giveUp_eq, ← hsheet.roll.names]
      exact (moveEach_leads id
        (fun p hp => ⟨hsheet.roll.members p hp, List.mem_map_of_mem hp⟩)
        fun p _ _ => ⟨by simp, by simp⟩).stops fun _ hw => hw.halted
    refine hgiveUp.bind fun candidates => .given fun hroll => leftOpen_leads _ ?_
    exact ⟨hsheet.issue, hroll, hsheet.applied, hsheet.kept⟩

end Session

end RepairLoop
