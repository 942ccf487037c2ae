import RepairLoop.Proofs.Repair.InHand
import RepairLoop.Proofs.Repair.Settled
/-!
# Repair — where the candidates end

Through all loops of a repair the store mirrors the candidates in hand, so what is known of
these in the end is known of those on record (`process_endStates`). The one place where a
fault is looked at and a candidate has been moved but not stored is the recording of a
result. There the store has refused nothing but the time, and it refuses every later one as
well (`recordInto_onRecord`), so such a repair comes to no report (`leftOpen_expired`).
-/

namespace RepairLoop

open Act (Keeps Obeys Leads)
open World (Apart Clocked Expired)

namespace Session

variable {p q : Patch} {ps us : List Patch}

/-! ## Recording results -/

/-- **Where the recording of a result is stopped the candidate is as it was, or the time is
refused for good.** -/
theorem recordInto_onRecord {allow : Bool} {r : ValidationResult} (hne : ∀ u ∈ us, u.id ≠ p.id) :
    Leads (fun w => OnRecord p w ∧ ∀ u ∈ us, OnRecord u w) (recordInto allow p r)
      (fun e w => match e.2 with
        | none => Patch.Moves p (.record r allow) e.1 ∧ OnRecord e.1 w ∧ ∀ u ∈ us, OnRecord u w
        | some _ => (e.1 = p ∧ OnRecord p w ∧ ∀ u ∈ us, OnRecord u w) ∨ w.Expired)
      (fun _ => False) := by
  have hjudge : Leads (fun w => OnRecord p w ∧ ∀ u ∈ us, OnRecord u w) (do
      Act.storing fun s => s.addResult r
      move p (.record r allow))
      (fun q w => Patch.Moves p (.record r allow) q ∧ OnRecord p w ∧ ∀ u ∈ us, OnRecord u w)
      (fun w => OnRecord p w ∧ ∀ u ∈ us, OnRecord u w) := by
    refine Leads.bind (Q := fun _ w => OnRecord p w ∧ ∀ u ∈ us, OnRecord u w)
      (.storing (fun w s hw hadd => ?_) fun _ hw => hw) fun _ =>
        .of_obeys (move_quiet p _) fun w w' hw hq => ?_
    · have hpatches : s.patches = w.store.patches := by
        obtain ⟨_, rfl⟩ := Store.addResult_eq hadd
        rfl
      have hadded (u : Patch) (hu : OnRecord u w) : OnRecord u { w with store := s } :=
        ⟨hu.mirrored.of_eq hpatches, hu.storable, hu.dated⟩
      exact ⟨hadded p hw.1, fun u hu => hadded u (hw.2 u hu)⟩
    · have hquiet := lasts_onRecord.quiet
      exact ⟨hquiet p w w' hq hw.1, fun u hu => hquiet u w w' hq (hw.2 u hu)⟩
  refine hjudge.attempt.bind fun judged => ?_
  cases judged with
  | error f => exact .pure fun w hw => .inl ⟨rfl, hw⟩
  | ok q =>
    refine .given fun hm => fun w hw => ?_
    rw [run_bind_of_ok (Act.attempt_run _ w)]
    cases hrun : (keepPatch q).run w with
    | mk kept w' =>
      cases kept with
      | ok _ =>
        have hkept : OnRecord q w' := lasts_onRecord.stored q w w' hrun (hm.rule id)
        refine ⟨hm, hkept, fun u hu => ?_⟩
        exact lasts_onRecord.others q u w w' hrun (hm.id ▸ hne u hu) (hw.2 u hu)
      | error f =>
        -- only the last change differs between what was stored and what is refused
        have hstorable : q.Storable := by
          refine Store.storable_of_eq hw.1.storable ?_ ?_ ?_ <;> cases hm <;> rfl
        exact .inr (hw.1.expired hstorable hm.id hrun)

/-- Of the patches in hand one was replaced. -/
theorem mem_replaced (h : p ∈ replaced ps q) : p = q ∨ (p ∈ ps ∧ p.id ≠ q.id) := by
  obtain ⟨o, ho, rfl⟩ := List.mem_map.1 h
  split
  · exact .inl rfl
  · rename_i hne
    exact .inr ⟨ho, fun hid => hne (beq_iff_eq.2 hid)⟩

/-- What is on record stays so where one of the patches is replaced by one on record. -/
theorem onRecord_replaced {w : World} (hid : q.id = p.id) (hq : OnRecord q w)
    (hw : ∀ u ∈ ps.filter (·.id != p.id), OnRecord u w) : ∀ u ∈ replaced ps q, OnRecord u w := by
  intro u hu
  rcases mem_replaced hu with rfl | ⟨hu, hne⟩
  · exact hq
  · exact hw u (List.mem_filter.2 ⟨hu, by simpa [← hid] using hne⟩)

/-- A report while no candidate has been applied. -/
structure Draft (ids : List String) (statuses : List ValidationStatus) (r : IssueReport) :
    Prop where
  applied : r.applied = none
  names : r.candidates.map Patch.id = ids
  idle : ∀ p ∈ r.candidates, p.Idle statuses

variable {ids : List String} {report : IssueReport}

theorem Draft.replaced {statuses : List ValidationStatus} (h : Draft ids statuses report)
    (hq : q.Idle statuses) :
    Draft ids statuses { report with candidates := replaced report.candidates q } := by
  refine ⟨h.applied, (map_replaced _ q).trans h.names, fun p hp => ?_⟩
  rcases mem_replaced hp with rfl | ⟨hp, -⟩
  · exact hq
  · exact h.idle p hp

/-- A report whose results were recorded: all candidates are decided, or a fault came and
all are as they are on record, unless the time is refused for good. -/
def Recorded (ids : List String) (e : IssueReport × Option Fault) (w : World) : Prop :=
  match e.2 with
  | none => Draft ids [.valid] e.1 ∧ ∀ p ∈ e.1.candidates, OnRecord p w
  | some _ => (Draft ids [.validating, .valid] e.1 ∧ ∀ p ∈ e.1.candidates, OnRecord p w) ∨ w.Expired

/-- **Once all results are recorded no candidate is being validated.** -/
theorem recordAll_recorded {allow : Bool} {rs : List (Patch × ValidationResult)}
    (hreport : Draft ids [.validating, .valid] report)
    (hopen : ∀ p ∈ report.candidates, p.validationStatus = .validating → p ∈ rs.map Prod.fst)
    (hrs : ∀ e ∈ rs, e.1 ∈ report.candidates) (hnames : (rs.map fun e => e.1.id).Nodup) :
    Leads (fun w => ∀ p ∈ report.candidates, OnRecord p w) (recordAll allow report rs)
      (Recorded ids) (fun _ => True) := by
  induction rs generalizing report with
  | nil =>
    refine .pure fun w hw => ⟨⟨hreport.applied, hreport.names, fun p hp => ?_⟩, hw⟩
    obtain ⟨hna, hrolled, hstatus⟩ := hreport.idle p hp
    refine ⟨hna, hrolled, hstatus.imp_left fun hmem => ?_⟩
    have hclosed : p.validationStatus ≠ .validating := fun hv => (List.not_mem_nil (hopen p hp hv)).elim
    exact (List.mem_cons.1 hmem).resolve_left hclosed
  | cons e rest ih =>
    obtain ⟨p, r⟩ := e
    obtain ⟨hp, hrest⟩ := List.forall_mem_cons.1 hrs
    obtain ⟨hfirst, hnames⟩ := List.nodup_cons.1 hnames
    -- the others are those with other names
    have hothers : ∀ u ∈ report.candidates.filter (·.id != p.id), u.id ≠ p.id := fun u hu => by
      simpa using (List.mem_filter.1 hu).2
    have hrecord : Leads (fun w => ∀ u ∈ report.candidates, OnRecord u w) (recordInto allow p r)
        _ (fun _ => True) := (recordInto_onRecord hothers).imp
      (fun w hw => ⟨hw p hp, fun u hu => hw u (List.mem_of_mem_filter hu)⟩) (fun _ _ h => h)
      fun _ _ => trivial
    refine hrecord.bind fun recorded => ?_
    obtain ⟨q, fault⟩ := recorded
    cases fault with
    | some f =>
      refine .pure fun w hw => hw.imp_left fun hstopped => ?_
      obtain ⟨hsame, hpw, hus⟩ := hstopped
      obtain rfl : q = p := hsame
      exact ⟨hreport.replaced (hreport.idle q hp), onRecord_replaced rfl hpw hus⟩
    | none =>
      refine .given fun hm => ?_
      have hm : Patch.Moves p (.record r allow) q := hm
      have hidle : q.Idle [.valid] := hm.idle_record
      have hdraft := hreport.replaced (hidle.mono (List.subset_cons_self ValidationStatus.validating _))
      have hnext := @ih { report with
          candidates := replaced report.candidates q
          validations := report.validations ++ [(q.id, r)] }
        ⟨hdraft.applied, hdraft.names, hdraft.idle⟩ (fun u hu hv => ?_) (fun e he => ?_) hnames
      · exact hnext.pre fun w hw => onRecord_replaced hm.id hw.1 hw.2
      · rcases mem_replaced hu with rfl | ⟨hu, hne⟩
        · exact absurd hv hidle.not_validating
        · refine (List.mem_cons.1 (hopen u hu hv)).resolve_left fun hsame => hne ?_
          rw [hsame, hm.id]
      · refine List.mem_map.2 ⟨e.1, hrest e he, if_neg fun heq => hfirst ?_⟩
        exact List.mem_map.2 ⟨e, he, (beq_iff_eq.1 heq).trans hm.id⟩

/-- **The candidates that are validated get their results**, as far as these are taken. -/
theorem validateInto_recorded (s : Session) (hreport : Draft ids [.validating] report)
    (hnames : ids.Nodup) :
    Leads (fun w => ∀ p ∈ report.candidates, OnRecord p w) (s.validateInto report) (Recorded ids)
      (fun _ => True) := by
  have hbegun : Draft ids [.validating, .valid] report :=
    ⟨hreport.applied, hreport.names, fun p hp => (hreport.idle p hp).mono (by simp)⟩
  have hgate (ps : List Patch) : Obeys (fun w w' => Apart w w' ∧ Clocked w w')
      (fun rs => rs.length = ps.length) (s.gate.validateMany ps) := fun w =>
    ⟨⟨(s.gate.bears_apart.validateMany ps w).1, (s.gate.bears_clocked.validateMany ps w).1⟩,
      fun rs hrs => (s.gate.validateMany_yields ps w rs _ (Prod.ext hrs rfl)).1⟩
  have hvalidate (ps : List Patch) : Leads (fun w => ∀ p ∈ report.candidates, OnRecord p w)
      (s.gate.validateMany ps)
      (fun rs w => rs.length = ps.length ∧ ∀ p ∈ report.candidates, OnRecord p w)
      (fun w => ∀ p ∈ report.candidates, OnRecord p w) := by
    refine .of_obeys (hgate ps) fun w w' hw hgone p hp => ?_
    obtain ⟨hmirrored, hstorable, hdated⟩ := hw p hp
    exact ⟨hgone.1.store ▸ hmirrored, hstorable, hdated.on hgone.2⟩
  refine (hvalidate _).attempt.bind fun results => ?_
  cases results with
  | error f => exact .pure fun w hw => .inl ⟨hbegun, hw⟩
  | ok rs =>
    refine .given fun hlength => ?_
    have hfirsts : ((report.candidates.filter (·.state == .validating)).zip rs).map Prod.fst =
        report.candidates.filter (·.state == .validating) :=
      List.map_fst_zip (Nat.le_of_eq hlength.symm)
    refine recordAll_recorded hbegun (fun p hp hv => ?_) (fun e he => ?_) ?_
    · have hstate : p.state = .validating := by
        rw [(hreport.idle p hp).state, hv]
        rfl
      rw [hfirsts]
      exact List.mem_filter.2 ⟨hp, beq_iff_eq.2 hstate⟩
    · exact List.mem_of_mem_filter (List.of_mem_zip he).1
    · have hmap : ((report.candidates.filter (·.state == .validating)).zip rs).map (fun e => e.1.id) =
          (report.candidates.filter (·.state == .validating)).map Patch.id := by
        rw [← hfirsts, List.map_map]
        simp only [hfirsts]
        rfl
      rw [hmap]
      rw [← hreport.names] at hnames
      exact hnames.sublist (List.filter_sublist.map _)

end Session

/-! ## Reports -/

/-- **Where the candidates of a report end**: none is being validated, one is applied exactly
if it is the one that the report names, and then all others were passed over. -/
structure IssueReport.EndStates (r : IssueReport) (s : Store) : Prop where
  ended : ∀ p ∈ r.candidates, ∃ q, s.patch? p.id = .ok (some q) ∧
    q.validationStatus ≠ .validating ∧ (q.applied = true ↔ r.applied = some p.id)
  others : ∀ id, r.applied = some id → id ∈ r.candidates.map Patch.id ∧
    ∀ p ∈ r.candidates, p.id ≠ id → ∃ q, s.patch? p.id = .ok (some q) ∧ q.PassedOver

variable {p q : Patch} {ps : List Patch} {ids : List String} {report : IssueReport}

/-- What is passed over in hand is passed over on record. -/
theorem Patch.Reflects.passedOver (h : q.Reflects p) (hp : p.PassedOver) : q.PassedOver := by
  rw [PassedOver, h.applied, h.status, h.review]
  exact hp

namespace Session

theorem Draft.endStates {s : Store} (h : Draft ids [.valid] report)
    (hs : ∀ p ∈ report.candidates, s.Mirrors p) : report.EndStates s := by
  refine ⟨fun p hp => ?_, fun id hid => by rw [h.applied] at hid; cases hid⟩
  obtain ⟨q, hread, hreflects⟩ := (hs p hp).read
  have hidle := h.idle p hp
  refine ⟨q, hread, hreflects.status ▸ hidle.not_validating, ?_⟩
  rw [hreflects.applied, hidle.applied, h.applied]
  simp

/-- **Where no candidate is applied the report is left with candidates that are decided.** -/
theorem leftOpen_ends (error : String) (h : Draft ids [.valid] report) :
    Leads (fun w => ∀ p ∈ report.candidates, w.store.Mirrors p) (leftOpen report error)
      (fun r w => r.EndStates w.store) (fun _ => True) := by
  refine (leads_of_mirroring (setStatus_mirroring _ _) _).bind fun i => .pure fun w hw => ?_
  have hends := h.endStates hw
  exact ⟨hends.ended, hends.others⟩

/-- **Where the time is refused for good there is no report.** -/
theorem leftOpen_expired (error : String) :
    Leads Expired (leftOpen report error) (fun _ _ => False) (fun _ => True) := by
  have hnow : Leads Expired Act.now (fun now _ => now.toUniversal? = none) (fun _ => True) :=
    fun w hw => hw w.supply (.refl _)
  have hset (now : Moment) : Leads (fun _ => now.toUniversal? = none)
      (Act.storing fun s => s.setIssueStatus report.issue.id .open_ now) (fun _ _ => False)
      (fun _ => True) := by
    refine .storing (fun w s hw hset => ?_) fun _ _ => trivial
    unfold Store.setIssueStatus at hset
    obtain ⟨time, htime, -⟩ := ok_of_bind hset
    rw [Store.keptTime, hw] at htime
    cases htime
  have hstatus : Leads Expired (setStatus report.issue .open_) (fun _ _ => False) (fun _ => True) :=
    hnow.bind fun now => (hset now).bind fun _ _ hw => False.elim hw
  exact hstatus.bind fun _ _ hw => False.elim hw

/-- **Candidates whose validation did not end are given up.** -/
theorem giveUp_ends (error : String) (h : Draft ids [.validating, .valid] report)
    (hnames : ids.Nodup) :
    Leads (fun w => ∀ p ∈ report.candidates, w.store.Mirrors p) (do
      let candidates ← giveUp report.candidates
      leftOpen { report with candidates := candidates } error)
      (fun r w => r.EndStates w.store) (fun _ => True) := by
  rw [giveUp_eq]
  have hunmarked : ¬ Patch.Marking (.invalidate .validationError false) := id
  refine (moveEach_lasts lasts_mirrored _ hunmarked (h.names ▸ hnames)).bind fun candidates =>
    .given fun hmoved => ?_
  have hdraft : Draft ids [.valid] { report with candidates := candidates } := by
    refine ⟨h.applied, hmoved.names.trans h.names, fun q hq => ?_⟩
    obtain ⟨p, hp, ⟨-, hm⟩ | ⟨hstay, rfl⟩⟩ := hmoved.each q hq
    · exact hm.idle_invalidate.mono (List.nil_subset _)
    · have hidle := h.idle q hp
      refine ⟨hidle.applied, hidle.rolledBack, hidle.status.imp_left fun hmem => ?_⟩
      refine (List.mem_cons.1 hmem).resolve_left fun hv => ?_
      have hstate : q.state = .validating := by
        rw [hidle.state, hv]
        rfl
      rw [hstate] at hstay
      cases hstay
  exact leftOpen_ends error hdraft

/-! ## Applying -/

/-- A candidate that was applied. -/
structure Applied (p : Patch) : Prop where
  applied : p.applied = true
  status : p.validationStatus = .valid

/-- **An applied candidate is on record as such**, and the others as before. -/
theorem applyPatch_mirrored (s : Session) (i : Issue) (hp : p ∈ ps)
    (hvalid : p.validationStatus = .valid) :
    Leads (fun w => ∀ u ∈ ps, w.store.Mirrors u) (s.applyPatch i p)
      (fun q w => (q.id = p.id ∧ Applied q) ∧ ∀ u ∈ replaced ps q, w.store.Mirrors u)
      (fun w => ∀ u ∈ ps, w.store.Mirrors u) := by
  have hapart {α : Type} {T : α → Prop} {x : Act α} (hx : Obeys Apart T x) :
      Leads (fun w => ∀ u ∈ ps, w.store.Mirrors u) x
        (fun a w => T a ∧ ∀ u ∈ ps, w.store.Mirrors u) (fun w => ∀ u ∈ ps, w.store.Mirrors u) :=
    .of_obeys hx fun w w' hw ha u hu => ha.store ▸ hw u hu
  refine (hapart (requireValidated_apart p)).bind fun _ => .given fun _ => ?_
  refine (hapart (applyToRepository_apart _ i p)).bind fun change => .given fun _ => ?_
  refine (hapart (move_moves p _)).bind fun q => .given fun hm => ?_
  refine (hapart Act.now_apart).bind fun now => .given fun _ => ?_
  have hq : q.id = p.id ∧ q.validationStatus = p.validationStatus ∧
      q.needsReview = p.needsReview ∧ q.applied = true := by
    cases hm with
    | apply => exact ⟨rfl, rfl, rfl, rfl⟩
  obtain ⟨hid, hstatus, hreview, happlied⟩ := hq
  have hmark : Leads (fun w => ∀ u ∈ ps, w.store.Mirrors u)
      (Act.storing fun s =>
        s.markApplied p.id change.rollback (some change.commit) change.backup now)
      (fun _ w => ∀ u ∈ replaced ps q, w.store.Mirrors u)
      (fun w => ∀ u ∈ ps, w.store.Mirrors u) := by
    refine .storing (fun w s' hw hmark u hu => ?_) fun _ hw => hw
    rcases mem_replaced hu with rfl | ⟨hu, hne⟩
    · exact (hw p hp).markApplied hmark hvalid hid hstatus hreview happlied
    · exact (hw u hu).markApplied_other hmark (hid ▸ hne)
  refine hmark.bind fun _ => Leads.emit.bind fun _ => .pure fun w' ⟨w, hw, hstore⟩ => ?_
  exact ⟨⟨hid, happlied, hstatus.trans hvalid⟩, fun u hu => hstore ▸ hw u hu⟩

/-- The report on a repair that has applied a candidate: it is the one with the name, and
the others are idle. -/
structure Landed (ids : List String) (winner : String) (statuses : List ValidationStatus)
    (r : IssueReport) : Prop where
  applied : r.applied = some winner
  names : r.candidates.map Patch.id = ids
  known : winner ∈ ids
  landed : ∀ p ∈ r.candidates, p.id = winner → Applied p
  idle : ∀ p ∈ r.candidates, p.id ≠ winner → p.Idle statuses

variable {winner : String}

theorem Landed.endStates {s : Store} (h : Landed ids winner [] report)
    (hs : ∀ p ∈ report.candidates, s.Mirrors p) : report.EndStates s := by
  have hover (p : Patch) (hp : p ∈ report.candidates) (hne : p.id ≠ winner) : p.PassedOver :=
    (h.idle p hp hne).passedOver List.not_mem_nil
  refine ⟨fun p hp => ?_, fun id hid => ⟨?_, fun p hp hne => ?_⟩⟩
  · obtain ⟨q, hread, hreflects⟩ := (hs p hp).read
    refine ⟨q, hread, ?_, ?_⟩
    · by_cases hsame : p.id = winner
      · rw [hreflects.status, (h.landed p hp hsame).status]
        decide
      · exact (hreflects.passedOver (hover p hp hsame)).not_validating
    · rw [hreflects.applied, h.applied, Option.some.injEq]
      by_cases hsame : p.id = winner
      · exact iff_of_true (h.landed p hp hsame).applied hsame.symm
      · exact iff_of_false (by rw [(hover p hp hsame).1]; decide) fun heq => hsame heq.symm
  · obtain rfl := Option.some.inj (h.applied.symm.trans hid)
    exact h.names ▸ h.known
  · obtain rfl := Option.some.inj (h.applied.symm.trans hid)
    obtain ⟨q, hread, hreflects⟩ := (hs p hp).read
    exact ⟨q, hread, hreflects.passedOver (hover p hp hne)⟩

/-- **Behind an application the other valid candidates are rejected.** -/
theorem rejectOthers_landed (h : Landed ids winner [.valid] report) (hnames : ids.Nodup) :
    Leads (fun w => ∀ p ∈ report.candidates, w.store.Mirrors p)
      (rejectOthers winner report.candidates)
      (fun qs w => Landed ids winner [] { report with candidates := qs } ∧
        ∀ q ∈ qs, w.store.Mirrors q) (fun _ => True) := by
  rw [rejectOthers_eq]
  have hunmarked : ¬ Patch.Marking (.reject none) := id
  refine (moveEach_lasts lasts_mirrored _ hunmarked (h.names ▸ hnames)).post fun qs w hw => ?_
  obtain ⟨hmoved, hmirrored⟩ := hw
  refine ⟨⟨h.applied, hmoved.names.trans h.names, h.known, fun q hq hid => ?_, fun q hq hne => ?_⟩,
    hmirrored⟩
  · obtain ⟨p, hp, ⟨hc, hm⟩ | ⟨-, rfl⟩⟩ := hmoved.each q hq
    · rw [← hm.id, hid] at hc
      simp at hc
    · exact h.landed q hp hid
  · obtain ⟨p, hp, ⟨-, hm⟩ | ⟨hc, rfl⟩⟩ := hmoved.each q hq
    · exact hm.idle_reject
    · have hidle := h.idle q hp hne
      refine ⟨hidle.applied, hidle.rolledBack, .inr (hidle.passedOver fun hvalid => ?_)⟩
      rw [List.mem_singleton.1 hvalid] at hc
      simp [hne] at hc

/-- **Nothing that follows brings one of them back.** -/
theorem afterApplying_ends (s : Session) (h : Landed ids winner [.valid] report)
    (hnames : ids.Nodup) :
    Leads (fun w => ∀ p ∈ report.candidates, w.store.Mirrors p) (s.afterApplying report winner)
      (fun r w => r.EndStates w.store) (fun _ => True) := by
  refine (rejectOthers_landed h hnames).bind fun candidates => .given fun hlanded => ?_
  have hcheck := mirroring_of_apart (s.firstFailure_apart winner (stagesAfter s.settings.validation))
  refine (leads_of_mirroring hcheck candidates).bind fun failed => ?_
  cases failed with
  | some error =>
    refine (leads_of_mirroring (rollBack_mirroring s winner) candidates).bind fun _ =>
      .pure fun w hw => ?_
    have hends := hlanded.endStates hw
    exact ⟨hends.ended, hends.others⟩
  | none =>
    refine (leads_of_mirroring (setStatus_mirroring _ _) candidates).bind fun _ => .pure fun w hw => ?_
    have hends := hlanded.endStates hw
    exact ⟨hends.ended, hends.others⟩

theorem afterValidating_ends (s : Session) (h : Draft ids [.valid] report) (hnames : ids.Nodup) :
    Leads (fun w => ∀ p ∈ report.candidates, w.store.Mirrors p) (s.afterValidating report)
      (fun r w => r.EndStates w.store) (fun _ => True) := by
  unfold afterValidating
  split
  · exact leftOpen_ends _ h
  · rename_i winner hwinner
    have hmem : winner ∈ report.candidates := mem_of_winner? hwinner
    have hvalid : winner.validationStatus = .valid := by
      have hranked := Patch.mem_ranked.1 (List.mem_of_head? hwinner)
      exact beq_iff_eq.1 (List.mem_filter.1 hranked).2
    refine (applyPatch_mirrored s report.issue hmem hvalid).attempt.bind fun applied => ?_
    cases applied with
    | error f =>
      simp only
      split
      · exact leftOpen_ends _ h
      · exact .throw fun _ _ => trivial
    | ok q =>
      refine .given fun hq => ?_
      obtain ⟨hid, happlied⟩ := hq
      have hlanded : Landed ids q.id [.valid] { report with
          applied := some q.id, candidates := replaced report.candidates q } := by
        refine ⟨rfl, (map_replaced _ q).trans h.names, ?_, fun p hp hsame => ?_, fun p hp hne => ?_⟩
        · rw [hid, ← h.names]
          exact List.mem_map_of_mem hmem
        · rcases mem_replaced hp with rfl | ⟨-, hne⟩
          · exact happlied
          · exact absurd hsame hne
        · rcases mem_replaced hp with rfl | ⟨hp, -⟩
          · exact absurd rfl hne
          · exact h.idle p hp
      exact s.afterApplying_ends hlanded hnames

/-! ## The whole repair -/

theorem afterProposing_ends (s : Session) (happlied : report.applied = none)
    (hnew : ∀ p ∈ report.candidates, p.New) (hnames : (report.candidates.map Patch.id).Nodup) :
    Leads (fun _ => True) (s.afterProposing report) (fun r w => r.EndStates w.store)
      (fun _ => True) := by
  have hkeep : Leads (fun _ => True) (keepPatches report.candidates)
      (fun _ w => ∀ p ∈ report.candidates, OnRecord p w) (fun _ => True) :=
    keepPatches_lasts lasts_onRecord (fun p hp => Patch.rule_of_unapplied (hnew p hp).applied) hnames
  have hbegin : Leads (fun w => ∀ p ∈ report.candidates, OnRecord p w)
      (beginAll report.candidates)
      (fun qs w => Draft (report.candidates.map Patch.id) [.validating]
        { report with candidates := qs } ∧ ∀ q ∈ qs, OnRecord q w) (fun _ => True) := by
    rw [beginAll_eq]
    have hunmarked : ¬ Patch.Marking .begin := id
    refine (moveEach_lasts lasts_onRecord _ hunmarked hnames).post fun qs w hw =>
      ⟨⟨happlied, hw.1.names, fun q hq => ?_⟩, hw.2⟩
    obtain ⟨p, hp, ⟨-, hm⟩ | ⟨hstay, rfl⟩⟩ := hw.1.each q hq
    · exact (hnew p hp).idle_begin hm
    · exact (hnew q hp).idle hstay
  refine hkeep.bind fun _ => hbegin.bind fun candidates => .given fun hdraft => ?_
  refine (s.validateInto_recorded hdraft hnames).bind fun recorded => ?_
  obtain ⟨report', fault⟩ := recorded
  have hmirrored {w : World} (hw : ∀ p ∈ report'.candidates, OnRecord p w) :
      ∀ p ∈ report'.candidates, w.store.Mirrors p := fun p hp => (hw p hp).mirrored
  cases fault with
  | none =>
    refine .given fun hdecided => ?_
    exact (s.afterValidating_ends hdecided hnames).pre fun _ hw => hmirrored hw
  | some f =>
    -- all candidates are as they are on record, or the time is refused for good
    intro w hw
    rcases hw with ⟨hstopped, hrecord⟩ | hexpired
    · exact giveUp_ends _ hstopped hnames w (hmirrored hrecord)
    · have hgiveUp : Leads Expired (giveUp report'.candidates) (fun _ => Expired) (fun _ => True) := by
        rw [giveUp_eq]
        exact ((Leads.of_obeys (moveEach_clocked _ _ _) fun _ _ hw hc => hw.on hc).post
          fun _ _ h => h.2).stops fun _ _ => trivial
      refine (hgiveUp.bind fun candidates => ?_) w hexpired
      exact (leftOpen_expired _).post fun _ _ h => False.elim h

/-- **The end states of candidates.** Whenever a repair comes to a report, no candidate in it
is stored as being validated. The one that is stored as applied is the one that the report
names; and if it names one, every other candidate is stored as invalid, as rejected, or as
pending and in need of a review. -/
theorem process_endStates {s : Session} {i : Issue} {w w' : World} {report : IssueReport}
    (hrun : (s.process i).run w = (.ok report, w')) : report.EndStates w'.store := by
  have hprocess : Leads (Untouched w) (s.process i) (fun r w' => r.EndStates w'.store)
      (fun _ => True) := by
    rw [process_eq]
    refine ((mark_leads s i w).stops fun _ _ => trivial).bind fun j => .given fun hj => ?_
    rw [hj]
    refine Leads.bind (proposed_leads s i w).attempt fun r => ?_
    cases r with
    | ok ps =>
      refine .given fun hps => ?_
      have hnew : ∀ p ∈ ps, p.New := fun p hp => (hps.each p hp).1
      exact (s.afterProposing_ends rfl hnew hps.names).pre fun _ _ => trivial
    | error f =>
      simp only
      split
      · refine (@leftOpen_ends [] _ _ ⟨rfl, rfl, ?_⟩).pre ?_
        · exact fun p hp => (List.not_mem_nil hp).elim
        · exact fun w _ p hp => (List.not_mem_nil hp).elim
      · exact .throw fun _ _ => trivial
  exact hprocess.of_run (.refl w) hrun

/-- The candidate of the small project is applied. -/
theorem process_endStates_landed : ∃ report w',
    ((Small.session "fix").process Small.issue).run (Small.world "a\nb\n".toUTF8) =
      (.ok report, w') ∧ report.isResolved = true ∧ report.EndStates w'.store := by
  obtain ⟨report, w', hrun, hresolved, -⟩ := Small.of_landed Small.lands
  exact ⟨report, w', hrun, hresolved, process_endStates hrun⟩

end Session

end RepairLoop
