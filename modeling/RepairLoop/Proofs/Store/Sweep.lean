import RepairLoop.Proofs.Store.Origin
import RepairLoop.Proofs.Store.Rows
/-!
# Sweep — what is dropped when old issues are

A store that is reached by operations holds every issue once, with its times kept
(`Store.Filed`), so the texts of the times tell which issues were resolved before an instant
(`Filed.isOld_eq`). Since every patch has its issue and every result its patch, what belongs to
nothing once these issues are gone is what belonged to them (`sweep_eq`), and the tables lose the
same rows (`Tables.cleanUp_eq`). The outcome is `Operation.cleanUp_exact`.
-/

namespace RepairLoop

/-- The issue was resolved before an instant. -/
def Issue.resolvedBefore (limit : Int) (i : Issue) : Bool :=
  i.status == .resolved && i.resolvedAt.any fun t => decide (t.instant < limit)

theorem Issue.resolvedBefore_mono {i : Issue} {earlier limit : Int} (hle : earlier ≤ limit)
    (h : i.resolvedBefore earlier = true) : i.resolvedBefore limit = true := by
  obtain ⟨hstatus, hany⟩ := Bool.and_eq_true_iff.1 h
  obtain ⟨t, ht, hbefore⟩ := (Option.any_eq_true _ _).1 hany
  refine Bool.and_eq_true_iff.2 ⟨hstatus, (Option.any_eq_true _ _).2 ⟨t, ht, ?_⟩⟩
  rw [decide_eq_true_eq] at hbefore ⊢
  omega

theorem IssueStatus.name_eq_iff {a b : IssueStatus} : a.name = b.name ↔ a = b := by
  constructor
  · intro h
    have hread := a.ofName?_name
    rw [h, b.ofName?_name] at hread
    exact (Option.some.inj hread).symm
  · rintro rfl
    rfl

namespace Span

/-- Whole days that lead from one time of the calendar to another are a span. -/
theorem ofDays_ok {r days : Int} (hr : Moment.isRepresentable r = true)
    (hcutoff : Moment.isRepresentable (r - days * Moment.dayLength) = true) :
    ofDays days = .ok (days * Moment.dayLength) := by
  have hlength : Moment.dayLength = 86400000000 := rfl
  have hcalendar : Int.ofNat Date.limit = 3652059 := rfl
  simp only [Moment.isRepresentable, Bool.and_eq_true, decide_eq_true_eq, hlength, hcalendar]
    at hr hcutoff
  have hdays : (days * Moment.dayLength).fdiv Moment.dayLength = days :=
    Int.mul_fdiv_cancel _ (by decide)
  have hmost : days.natAbs ≤ maxDays := by
    rw [maxDays]
    omega
  rw [ofDays, checked]
  simp only [hdays, if_pos hmost]

end Span

namespace Store

variable {s s' : Store} {i : Issue} {p : Patch}

/-! ## Stores whose issues are in order -/

/-- No two issues have one name, and it is kept when they were resolved. -/
structure Filed (s : Store) : Prop where
  names : (s.issues.map Issue.id).Nodup
  resolved : ∀ i ∈ s.issues, ∀ t, i.resolvedAt = some t → t.IsKept

theorem filed_empty : empty.Filed := ⟨List.nodup_nil, fun _ hi => (List.not_mem_nil hi).elim⟩

theorem Filed.of_issues (h : s.Filed) (hsame : s'.issues = s.issues) : s'.Filed :=
  ⟨hsame ▸ h.names, hsame ▸ h.resolved⟩

theorem Filed.filter (h : s.Filed) {c : Issue → Bool} (hsame : s'.issues = s.issues.filter c) :
    s'.Filed := by
  refine ⟨?_, ?_⟩
  · rw [hsame]
    exact h.names.sublist (List.filter_sublist.map _)
  · rw [hsame]
    exact fun i hi => h.resolved i (List.mem_of_mem_filter hi)

theorem Filed.addIssue (h : s.Filed) (hadd : s.addIssue i = .ok s') : s'.Filed := by
  obtain ⟨kept, hkept, hfree, rfl⟩ := addIssue_kept hadd
  obtain ⟨rfl, hkept⟩ := keptIssue_universal hkept
  refine ⟨?_, List.forall_mem_append.2 ⟨h.resolved, List.forall_mem_singleton.2 hkept.resolved⟩⟩
  rw [List.map_append, List.nodup_append']
  refine ⟨h.names, List.nodup_singleton _, List.disjoint_singleton.2 fun hmem => ?_⟩
  obtain ⟨j, hj, hid⟩ := List.mem_map.1 hmem
  have hknown : (s.issue? i.id).isSome = true := issue?_isSome_iff.2 ⟨j, hj, hid⟩
  rw [hfree] at hknown
  cases hknown

theorem Filed.setIssueStatus {id : String} {status : IssueStatus} {now : Moment} (h : s.Filed)
    (hset : s.setIssueStatus id status now = .ok s') : s'.Filed := by
  unfold Store.setIssueStatus at hset
  obtain ⟨time, htime, hset⟩ := ok_of_bind hset
  obtain ⟨-, htime⟩ := keptTime_eq htime
  split at hset
  · obtain rfl := Except.ok.inj hset
    refine ⟨?_, fun j hj t ht => ?_⟩
    · rw [List.map_map]
      refine (List.map_congr_left fun j _ => ?_) ▸ h.names
      show j.id = Issue.id (if j.id == id then _ else j)
      split <;> rfl
    · obtain ⟨k, hk, rfl⟩ := List.mem_map.1 hj
      split at ht
      · -- a status that is no resolution takes the time of one away
        dsimp only at ht
        split at ht
        · exact Option.some.inj ht ▸ htime
        · cases ht
      · exact h.resolved k hk t ht
  · cases hset

namespace Operation

/-- **All that one operation can do** to issues: they stay as they are, one is added, the status
of one is set, or some are dropped. -/
theorem perform_issues {o : Operation} (hperform : o.perform s = .ok s') :
    s'.issues = s.issues ∨ (∃ i, s.addIssue i = .ok s') ∨
      (∃ id status now, s.setIssueStatus id status now = .ok s') ∨
      ∃ c : Issue → Bool, s'.issues = s.issues.filter c := by
  cases o with
  | createIssue i => exact .inr (.inl ⟨i, hperform⟩)
  | setIssueStatus id status now => exact .inr (.inr (.inl ⟨id, status, now, hperform⟩))
  | createPatch p now =>
    obtain ⟨kept, -, rfl | ⟨-, rfl⟩⟩ := putPatch_cases hperform
    · exact .inl rfl
    · exact .inl rfl
  | setValidation id status kind now =>
    obtain ⟨time, rfl⟩ := setValidation_eq hperform
    exact .inl rfl
  | markApplied id rollback commit backup now =>
    have hmark : s.markUndoable id rollback commit backup now = .ok s' := hperform
    unfold markUndoable at hmark
    split at hmark
    · cases hmark
    · obtain ⟨-, time, rfl⟩ := markApplied_eq hmark
      exact .inl rfl
  | markRolledBack id now =>
    obtain ⟨time, rfl⟩ := markRolledBack_eq hperform
    exact .inl rfl
  | addResult r =>
    obtain ⟨stamp, rfl⟩ := addResult_eq hperform
    exact .inl rfl
  | cleanUp age now =>
    obtain ⟨n, hclean⟩ := perform_cleanUp hperform
    obtain ⟨kept, rfl⟩ := cleanUp_eq hclean
    exact .inr (.inr (.inr ⟨_, rfl⟩))

/-- **One operation keeps the issues in order.** -/
theorem perform_filed {o : Operation} (h : s.Filed) (hperform : o.perform s = .ok s') :
    s'.Filed := by
  rcases perform_issues hperform with hsame | ⟨i, hadd⟩ | ⟨id, status, now, hset⟩ | ⟨c, hdrop⟩
  · exact h.of_issues hsame
  · exact h.addIssue hadd
  · exact h.setIssueStatus hset
  · exact h.filter hdrop

/-- **Whatever is done in a row**, the store holds together and its issues are in order. -/
theorem run_orderly (ops : List Operation) : (run ops).Consistent ∧ (run ops).Filed :=
  run_induction (P := fun s => s.Consistent ∧ s.Filed) ⟨consistent_empty, filed_empty⟩
    (fun _ _ _ h hperform => ⟨perform_consistent h.1 hperform, perform_filed h.2 hperform⟩) ops

end Operation

/-! ## What goes with an issue -/

/-- A store without some issues, the patches for these, and the results for those patches. -/
def without (s : Store) (gone : Issue → Bool) : Store :=
  let loses (p : Patch) : Bool := s.issues.any fun i => gone i && i.id == p.issueId
  { issues := s.issues.filter (!gone ·)
    patches := s.patches.filter (!loses ·)
    results := s.results.filter fun r =>
      !s.patches.any fun p => loses p && p.id == r.result.patchId }

/-- The one record of a name is among those that are left, or among those that are not. -/
theorem any_filter_not {α : Type} {xs : List α} {name : α → String} {c : α → Bool} {id : String}
    (hnames : (xs.map name).Nodup) (hfound : ∃ x ∈ xs, name x = id) :
    (xs.filter (!c ·)).any (name · == id) = !xs.any fun x => c x && name x == id := by
  obtain ⟨x, hx, rfl⟩ := hfound
  have hone : ∀ y ∈ xs, name y = name x → y = x :=
    fun y hy hname => List.inj_on_of_nodup_map hnames hy hx hname
  have hleft : (xs.filter (!c ·)).any (name · == name x) = true ↔ c x = false := by
    rw [List.any_eq_true]
    constructor
    · rintro ⟨y, hy, hname⟩
      obtain ⟨hy, hc⟩ := List.mem_filter.1 hy
      rw [← hone y hy (beq_iff_eq.1 hname)]
      simpa using hc
    · exact fun hc => ⟨x, List.mem_filter.2 ⟨hx, by rw [hc]; rfl⟩, beq_self_eq_true _⟩
  have hlost : (xs.any fun y => c y && name y == name x) = true ↔ c x = true := by
    rw [List.any_eq_true]
    constructor
    · rintro ⟨y, hy, hboth⟩
      obtain ⟨hc, hname⟩ := Bool.and_eq_true_iff.1 hboth
      rwa [hone y hy (beq_iff_eq.1 hname)] at hc
    · exact fun hc => ⟨x, hx, by rw [hc, beq_self_eq_true]; rfl⟩
  rw [Bool.eq_iff_iff, hleft, Bool.not_eq_true', ← Bool.not_eq_true, ← Bool.not_eq_true, hlost]

/-- **What belongs to nothing once some issues are gone is what belonged to them.** -/
theorem sweep_eq (h : s.Consistent) (hfiled : s.Filed) (gone : Issue → Bool) :
    sweep { s with issues := s.issues.filter (!gone ·) } = s.without gone := by
  have hpatches : (s.patches.filter fun p => (s.issues.filter (!gone ·)).any (·.id == p.issueId)) =
      (s.without gone).patches :=
    List.filter_congr fun p hp => any_filter_not hfiled.names (h.owners p hp)
  have hresults : (s.results.filter fun r =>
      (s.without gone).patches.any (·.id == r.result.patchId)) = (s.without gone).results :=
    List.filter_congr fun r hr => any_filter_not h.names (h.results r hr)
  simp only [sweep, hpatches, hresults]
  rfl

theorem without_none (s : Store) {gone : Issue → Bool} (h : ∀ i ∈ s.issues, gone i = false) :
    s.without gone = s := by
  have hany : ∀ p : Patch, (s.issues.any fun i => gone i && i.id == p.issueId) = false := by
    intro p
    rw [List.any_eq_false]
    intro i hi
    rw [h i hi]
    exact Bool.false_ne_true
  have hissues : s.issues.filter (!gone ·) = s.issues :=
    List.filter_eq_self.2 fun i hi => by rw [h i hi]; rfl
  have hpatches : s.patches.any (fun _ => false) = false :=
    List.any_eq_false.2 fun _ _ => Bool.false_ne_true
  simp only [without, hany, hissues, hpatches, Bool.false_and, Bool.not_false, List.filter_true]

/-! ## Old issues -/

/-- **The texts of times tell which issues are old.** -/
theorem Filed.isOld_eq (h : s.Filed) {cutoff : Moment} (hcutoff : cutoff.IsKept)
    (hi : i ∈ s.issues) : isOld cutoff i = i.resolvedBefore cutoff.instant := by
  rw [isOld, Issue.resolvedBefore]
  cases hresolved : i.resolvedAt with
  | none => rfl
  | some t =>
    have hlt : stampOf t < stampOf cutoff ↔ t.instant < cutoff.instant :=
      (h.resolved i hi t hresolved).isoText_lt_iff hcutoff
    simp only [Option.any_some, decide_eq_decide.2 hlt]

/-- **A store that is in order loses its old issues and all that belongs to them.** -/
theorem cleanUp_without (h : s.Consistent) (hfiled : s.Filed) {age : Int} {now : Moment}
    (hnow : now.IsKept) (hcutoff : Moment.isRepresentable (now.reading - age) = true) :
    s.cleanUp age now = .ok (s.without (Issue.resolvedBefore (now.instant - age)),
      (s.issues.filter (Issue.resolvedBefore (now.instant - age))).length) := by
  have hkept : Moment.IsKept ⟨now.reading - age, now.offset⟩ := ⟨hnow.offset, hcutoff⟩
  have hold : ∀ i ∈ s.issues, isOld ⟨now.reading - age, now.offset⟩ i =
      i.resolvedBefore (now.instant - age) := by
    intro i hi
    rw [hfiled.isOld_eq hkept hi, hkept.instant, hnow.instant]
  have hleft : (s.issues.filter fun i => !isOld ⟨now.reading - age, now.offset⟩ i) =
      s.issues.filter (!Issue.resolvedBefore (now.instant - age) ·) :=
    List.filter_congr fun i hi => by rw [hold i hi]
  have hcount : s.issues.filter (isOld ⟨now.reading - age, now.offset⟩) =
      s.issues.filter (Issue.resolvedBefore (now.instant - age)) := List.filter_congr hold
  have hbefore : now.before age = .ok ⟨now.reading - age, now.offset⟩ := if_pos hcutoff
  rw [cleanUp, hbefore]
  show (keptTime _ >>= fun cutoff => Except.ok (sweep _, _)) = _
  rw [hkept.keptTime]
  show Except.ok (sweep { s with issues := s.issues.filter fun i => !isOld _ i },
    (s.issues.filter (isOld _)).length) = _
  rw [hleft, hcount, sweep_eq h hfiled]

/-! ## The rows -/

/-- The rows that are deleted are those of what the store loses. -/
theorem tables_without (s : Store) (gone : IssueRow → Bool) :
    s.tables.deleteIssues gone = (s.without (gone ∘ IssueRow.of)).tables := by
  simp only [Tables.deleteIssues, tables, without, List.filter_map, List.any_map]
  rfl

/-- A row tells what its issue tells of its age. -/
theorem isOldRow_of (cutoff : Moment) (i : Issue) :
    Tables.isOldRow cutoff.isoText (IssueRow.of i) = isOld cutoff i := by
  have hstatus : (i.status.name == IssueStatus.resolved.name) = (i.status == .resolved) := by
    rw [Bool.eq_iff_iff, beq_iff_eq, beq_iff_eq]
    exact IssueStatus.name_eq_iff
  rw [Tables.isOldRow, isOld, ← hstatus]
  cases hresolved : i.resolvedAt with
  | none => simp only [IssueRow.of, hresolved, Option.map_none, Option.any_none]
  | some t =>
    simp only [IssueRow.of, hresolved, Option.map_some, Option.any_some, stampOf]
    rfl

end Store

/-- **The tables lose the rows of what the store loses.** -/
theorem Tables.cleanUp_eq {s : Store} (h : s.Consistent) (hfiled : s.Filed) (age : Int)
    (now : Moment) :
    s.tables.cleanUp age now = (s.cleanUp age now).map fun left => (left.1.tables, left.2) := by
  unfold Tables.cleanUp Store.cleanUp
  cases now.before age with
  | error f => rfl
  | ok cutoff =>
    show (Store.keptTime cutoff >>= _) = Except.map _ (Store.keptTime cutoff >>= _)
    cases Store.keptTime cutoff with
    | error f => rfl
    | ok cutoff =>
      have hold : Tables.isOldRow cutoff.isoText ∘ IssueRow.of = Store.isOld cutoff :=
        funext (Store.isOldRow_of cutoff)
      have hcount : (s.tables.issues.filter (Tables.isOldRow cutoff.isoText)).length =
          (s.issues.filter (Store.isOld cutoff)).length := by
        rw [Store.tables, List.filter_map, List.length_map, hold]
      show Except.ok (s.tables.deleteIssues _, _) = Except.ok (Store.tables (Store.sweep _), _)
      rw [Store.tables_without, hold, hcount, Store.sweep_eq h hfiled]

namespace Store.Operation

open Moment (isRepresentable dayLength)

/-- **Cleaning up drops the old issues and what belongs to them, and nothing else.** Let any row
of operations have been done, and let a number of days lead back from now to a time of the
calendar. Then the issues that were resolved before that time are dropped, with the patches for
them and the results for these patches; everything else stays, in the records as in the rows of
all three tables, and the number that is told is that of the issues. To clean up once more at the
same time drops nothing, whether the days are as many or more. -/
theorem cleanUp_exact (ops : List Operation) (days : Int) {now : Moment} (hnow : now.IsKept)
    (hcutoff : isRepresentable (now.reading - days * dayLength) = true) :
    let s := run ops
    let gone := Issue.resolvedBefore (now.instant - days * dayLength)
    ∃ age, Span.ofDays days = .ok age ∧
      s.cleanUp age now = .ok (s.without gone, (s.issues.filter gone).length) ∧
      s.tables.cleanUp age now = .ok ((s.without gone).tables, (s.issues.filter gone).length) ∧
      ∀ more, days ≤ more → isRepresentable (now.reading - more * dayLength) = true →
        ∃ longer, Span.ofDays more = .ok longer ∧
          (s.without gone).cleanUp longer now = .ok (s.without gone, 0) := by
  intro s gone
  obtain ⟨hconsistent, hfiled⟩ := run_orderly ops
  have hclean : s.cleanUp (days * dayLength) now =
      .ok (s.without gone, (s.issues.filter gone).length) :=
    cleanUp_without hconsistent hfiled hnow hcutoff
  refine ⟨days * dayLength, Span.ofDays_ok hnow.year hcutoff, hclean, ?_, ?_⟩
  · rw [Tables.cleanUp_eq hconsistent hfiled, hclean]
    rfl
  · intro more hmore hearlier
    refine ⟨more * dayLength, Span.ofDays_ok hnow.year hearlier, ?_⟩
    have hnone : ∀ i ∈ (s.without gone).issues,
        i.resolvedBefore (now.instant - more * dayLength) = false := by
      intro i hi
      have hdays : days * dayLength ≤ more * dayLength :=
        Int.mul_le_mul_of_nonneg_right hmore (by decide)
      have hkept : (!gone i) = true := (List.mem_filter.1 hi).2
      by_contra hgone
      rw [Bool.not_eq_false] at hgone
      have hold : gone i = true := Issue.resolvedBefore_mono (by omega) hgone
      rw [hold] at hkept
      cases hkept
    have hempty : (s.without gone).issues.filter
        (Issue.resolvedBefore (now.instant - more * dayLength)) = [] :=
      List.filter_eq_nil_iff.2 fun i hi => by rw [hnone i hi]; exact Bool.false_ne_true
    rw [cleanUp_without (hconsistent.cleanUp hclean) (hfiled.filter rfl) hnow hearlier,
      without_none _ hnone, hempty]
    rfl

/-- Two issues that are resolved, the second by a clock two hours ahead and a microsecond later,
with a patch for each and a result for the first one. -/
def resolutions : List Operation :=
  let p : Patch := { (default : Patch) with id := "patch-2", issueId := "issue-2" }
  puts ++ [.setIssueStatus "issue-1" .resolved ⟨0, none⟩,
    .addResult { (default : ValidationResult) with id := "result-1", patchId := "patch-1" },
    .createIssue { (default : Issue) with
      id := "issue-2", status := .resolved, resolvedAt := some ⟨7200000001, some 7200000000⟩ },
    .createPatch ⟨p, rule_blank "patch-2" "issue-2"⟩ default]

/-- One day and a microsecond later the first issue is older than a day, and the second is not. -/
theorem cleanUp_exact_microsecond :
    let now : Moment := ⟨86400000001, some 0⟩
    ∃ age s', Span.ofDays 1 = .ok age ∧ (run resolutions).cleanUp age now = .ok (s', 1) ∧
      s'.issues.map Issue.id = ["issue-2"] ∧ s'.patches.map Patch.id = ["patch-2"] ∧
      s'.results.length = 0 ∧ (run resolutions).tables.cleanUp age now = .ok (s'.tables, 1) ∧
      s'.cleanUp age now = .ok (s', 0) := by
  intro now
  have hnow : now.IsKept := ⟨rfl, rfl⟩
  obtain ⟨age, hage, hclean, hrows, hagain⟩ := cleanUp_exact resolutions 1 hnow rfl
  obtain ⟨longer, hlonger, hempty⟩ := hagain 1 (Int.le_refl 1) rfl
  obtain rfl : age = longer := Except.ok.inj (hage.symm.trans hlonger)
  exact ⟨age, _, hage, hclean, rfl, rfl, rfl, hrows, hempty⟩

end Store.Operation

end RepairLoop
