import RepairLoop.Proofs.Store.Origin
/-!
# Results — the history of a patch

Results are kept in the order in which they were recorded, each with the text of its time
(`Operation.runFrom_results`). The texts are in the order of the times, so what is read of a
patch are the results that were recorded of it, sorted by their times, where those of one time
stay in the order in which they were recorded (`Operation.results_read`).
-/

namespace RepairLoop

namespace ValidationResult

/-- The order of the times of results. -/
def notLater (a b : ValidationResult) : Bool := a.timestamp.instant ≤ b.timestamp.instant

theorem notLater_trans (a b c : ValidationResult) (hab : a.notLater b = true)
    (hbc : b.notLater c = true) : a.notLater c = true := by
  simp only [notLater, decide_eq_true_eq] at *
  omega

theorem notLater_total (a b : ValidationResult) : (a.notLater b || b.notLater a) = true := by
  simp only [notLater, Bool.or_eq_true, decide_eq_true_eq]
  omega

end ValidationResult

namespace Store

variable {s s' : Store} {rs : List ValidationResult}

/-- **Texts are in the order of the times.** -/
theorem stamps_notLater {a b : ValidationResult} (ha : a.timestamp.universal.IsKept)
    (hb : b.timestamp.universal.IsKept) :
    decide ((StoredResult.of a).stamp ≤ (StoredResult.of b).stamp) = a.notLater b := by
  have hle := Moment.isoText_le_iff ha.year hb.year
  exact decide_eq_decide.2 hle

end Store

/-! ## Histories -/

/-- The same results in the order of their times, where those of one time keep their order. -/
structure IsHistory (recorded found : List ValidationResult) : Prop where
  all : found.Perm recorded
  ordered : found.Pairwise fun a b => a.timestamp.instant ≤ b.timestamp.instant
  ties : ∀ t, found.filter (·.timestamp.instant == t) = recorded.filter (·.timestamp.instant == t)

/-- **To sort results by their times makes a history of them.** -/
theorem isHistory_mergeSort (rs : List ValidationResult) :
    IsHistory rs (rs.mergeSort ValidationResult.notLater) := by
  have hperm : (rs.mergeSort ValidationResult.notLater).Perm rs := List.mergeSort_perm _ _
  refine ⟨hperm, ?_, fun t => ?_⟩
  · refine (List.pairwise_mergeSort ValidationResult.notLater_trans
      ValidationResult.notLater_total rs).imp fun {a b} hab => ?_
    exact of_decide_eq_true hab
  · -- the results of one time are sorted as they stand, so that sorting all keeps their order
    have hone : (rs.filter (·.timestamp.instant == t)).Pairwise
        fun a b => a.notLater b = true := by
      rw [List.pairwise_filter]
      refine List.pairwise_of_forall fun a b ha hb => ?_
      rw [ValidationResult.notLater, beq_iff_eq.1 ha, beq_iff_eq.1 hb]
      exact decide_eq_true (Int.le_refl t)
    have hsub := (List.sublist_mergeSort ValidationResult.notLater_trans
      ValidationResult.notLater_total hone List.filter_sublist).filter (·.timestamp.instant == t)
    rw [List.filter_filter] at hsub
    simp only [Bool.and_self] at hsub
    exact (hsub.eq_of_length (hperm.filter _).length_eq.symm).symm

theorem IsHistory.eq_nil_iff {recorded found : List ValidationResult}
    (h : IsHistory recorded found) : found = [] ↔ recorded = [] := by
  constructor
  · rintro rfl
    exact h.all.symm.eq_nil
  · rintro rfl
    exact h.all.eq_nil

/-! ## What is read of a patch -/

namespace Store

variable {s s' : Store} {rs : List ValidationResult}

/-- **The results of a patch are sorted by their times.** -/
theorem sorted_results (hresults : s.results = rs.map StoredResult.of)
    (hkept : ∀ r ∈ rs, r.timestamp.universal.IsKept) (patch : String) :
    (s.results.filter (·.result.patchId == patch)).mergeSort (fun a b => a.stamp ≤ b.stamp) =
      ((rs.filter (·.patchId == patch)).mergeSort ValidationResult.notLater).map
        StoredResult.of := by
  rw [hresults, List.filter_map, List.map_mergeSort]
  · rfl
  · intro a ha b hb
    exact (stamps_notLater (hkept a (List.mem_of_mem_filter ha))
      (hkept b (List.mem_of_mem_filter hb))).symm

theorem resultsFor_eq (hresults : s.results = rs.map StoredResult.of)
    (hkept : ∀ r ∈ rs, r.timestamp.universal.IsKept) (hvalid : ∀ r ∈ rs, r.IsValid)
    (patch : String) :
    s.resultsFor patch = (rs.filter (·.patchId == patch)).mergeSort ValidationResult.notLater := by
  rw [resultsFor, sorted_results hresults hkept, List.map_map]
  refine (List.map_congr_left fun r hr => ?_).trans (List.map_id _)
  exact (hvalid r (List.mem_of_mem_filter (List.mem_mergeSort.1 hr))).kept

/-- The rows of a patch are those of its results, in the same order. -/
theorem resultRows_eq (s : Store) (patch : String) : s.tables.resultRows patch =
    ((s.results.filter (·.result.patchId == patch)).mergeSort fun a b => a.stamp ≤ b.stamp).map
      ResultRow.of := by
  rw [Tables.resultRows, tables, List.filter_map, List.map_mergeSort]
  · rfl
  · exact fun a _ b _ => rfl

theorem readAll {α β γ ε : Type} {e : α → β} {f : β → Except ε γ} {g : α → γ} {xs : List α}
    (h : ∀ x ∈ xs, f (e x) = .ok (g x)) : (xs.map e).mapM f = .ok (xs.map g) := by
  induction xs with
  | nil => rfl
  | cons x xs ih =>
    obtain ⟨hx, hrest⟩ := List.forall_mem_cons.1 h
    rw [List.map_cons, List.mapM_cons, hx, ih hrest]
    rfl

/-- **The results are read back from their rows.** -/
theorem tables_resultsFor (hresults : s.results = rs.map StoredResult.of)
    (hkept : ∀ r ∈ rs, r.timestamp.universal.IsKept) (hvalid : ∀ r ∈ rs, r.IsValid)
    (patch : String) (supply : Supply) :
    s.tables.resultsFor patch supply = .ok (s.resultsFor patch) := by
  rw [Tables.resultsFor, resultRows_eq, resultsFor, sorted_results hresults hkept]
  refine readAll fun k hk => ?_
  obtain ⟨r, hr, rfl⟩ := List.mem_map.1 hk
  have hr : r.IsValid := hvalid r (List.mem_of_mem_filter (List.mem_mergeSort.1 hr))
  rw [StoredResult.of, hr.kept]
  exact ResultRow.result_of hr _ supply

/-! ## Recording -/

/-- **A result is refused only** for its time, for its name, or for want of its patch. -/
theorem addResult_isOk_iff {r : ValidationResult} (hfree : ∀ k ∈ s.results, k.result.id ≠ r.id) :
    (∃ s', s.addResult r = .ok s') ↔
      (s.rawPatch? r.patchId).isSome = true ∧ r.timestamp.toUniversal?.isSome = true := by
  constructor
  · rintro ⟨s', h⟩
    refine ⟨addResult_owner h, ?_⟩
    have hyear : Moment.isRepresentable r.timestamp.instant = true := (addResult_kept h).2.year
    rw [Moment.toUniversal?, if_pos hyear]
    rfl
  · rintro ⟨howner, htime⟩
    obtain ⟨kept, hkept⟩ := keptTime_isOk htime
    have hnew : s.results.any (·.result.id == r.id) = false := by
      rw [List.any_eq_false]
      exact fun k hk => by simpa using hfree k hk
    have howned : (s.rawPatch? r.patchId).isNone = false := by
      rw [← Option.not_isSome, howner, Bool.not_true]
    refine ⟨{ s with results := s.results ++ [⟨keptResult r, stampOf kept⟩] }, ?_⟩
    rw [addResult, hkept]
    show (if s.results.any (·.result.id == r.id) then _
      else if (s.rawPatch? r.patchId).isNone then _ else _) = _
    rw [hnew, howned]
    rfl

namespace Operation

variable {o : Operation} {ops : List Operation}

/-- The result that an operation records in a store. -/
def taken (s : Store) (o : Operation) : List ValidationResult :=
  match o.result?, o.perform s with
  | some r, .ok _ => [r]
  | _, _ => []

/-- The results that operations record one after the other. -/
def recorded (s : Store) : List Operation → List ValidationResult
  | [] => []
  | o :: ops => taken s o ++ recorded (step s o) ops

/-- **One operation adds the result that it records**, unless it sweeps. -/
theorem step_results (hkeep : ∀ age now, o ≠ cleanUp age now) :
    (step s o).results = s.results ++ (taken s o).map StoredResult.of ∧
      ∀ r ∈ taken s o, r.timestamp.universal.IsKept := by
  unfold step taken
  cases hperform : o.perform s with
  | error f =>
    cases o.result? <;> exact ⟨(List.append_nil _).symm, fun r hr => (List.not_mem_nil hr).elim⟩
  | ok s' =>
    rcases perform_cases hperform with ⟨hnone, hsame⟩ | ⟨p, now, rfl, -, -, rfl⟩ |
      ⟨r, rfl, hkept, rfl⟩ | ⟨age, now, rfl, -⟩
    · rw [hnone]
      exact ⟨hsame.1.trans (List.append_nil _).symm, fun r hr => (List.not_mem_nil hr).elim⟩
    · exact ⟨(List.append_nil _).symm, fun r hr => (List.not_mem_nil hr).elim⟩
    · exact ⟨rfl, List.forall_mem_singleton.2 hkept⟩
    · exact absurd rfl (hkeep age now)

/-- **Operations add the results that they record**, in their order. -/
theorem runFrom_results (ops : List Operation) (hkeep : ∀ age now, cleanUp age now ∉ ops) :
    (runFrom s ops).results = s.results ++ (recorded s ops).map StoredResult.of ∧
      ∀ r ∈ recorded s ops, r.timestamp.universal.IsKept := by
  induction ops generalizing s with
  | nil => exact ⟨(List.append_nil _).symm, fun r hr => (List.not_mem_nil hr).elim⟩
  | cons o ops ih =>
    obtain ⟨hone, hkept⟩ := step_results (s := s) (o := o)
      fun age now ho => hkeep age now (ho ▸ List.mem_cons_self)
    obtain ⟨hrest, hlater⟩ := ih (s := step s o)
      fun age now ho => hkeep age now (List.mem_cons_of_mem _ ho)
    refine ⟨?_, List.forall_mem_append.2 ⟨hkept, hlater⟩⟩
    show (runFrom (step s o) ops).results = _
    rw [hrest, hone, recorded, List.map_append, List.append_assoc]

theorem taken_sublist (s : Store) (o : Operation) : (taken s o).Sublist o.result?.toList := by
  unfold taken
  split
  · rename_i hresult _
    rw [hresult]
    exact List.Sublist.refl _
  · exact List.nil_sublist _

/-- What is recorded was to be recorded. -/
theorem recorded_sublist (s : Store) (ops : List Operation) :
    (recorded s ops).Sublist (ops.filterMap result?) := by
  induction ops generalizing s with
  | nil => exact List.Sublist.refl _
  | cons o ops ih =>
    have hcons : (o :: ops).filterMap result? = o.result?.toList ++ ops.filterMap result? := by
      rw [List.filterMap_cons]
      cases o.result? <;> rfl
    rw [hcons]
    exact (taken_sublist s o).append (ih _)

/-- Where no two results have one name, a result is refused only for its time or for want of its
patch. -/
theorem addResult_isOk_iff_of_nodup {before after : List Operation} {r : ValidationResult}
    (hnone : s.results = []) (hkeep : ∀ age now, cleanUp age now ∉ before)
    (hids : (((before ++ addResult r :: after).filterMap result?).map ValidationResult.id).Nodup) :
    (∃ s', (runFrom s before).addResult r = .ok s') ↔
      ((runFrom s before).rawPatch? r.patchId).isSome = true ∧
        r.timestamp.toUniversal?.isSome = true := by
  refine addResult_isOk_iff fun k hk hid => ?_
  rw [(runFrom_results before hkeep).1, hnone, List.nil_append] at hk
  obtain ⟨earlier, hearlier, rfl⟩ := List.mem_map.1 hk
  have hmem : earlier.id ∈ (before.filterMap result?).map ValidationResult.id :=
    List.mem_map_of_mem ((recorded_sublist s before).subset hearlier)
  rw [List.filterMap_append, List.map_append, List.nodup_append'] at hids
  refine hids.2.2 hmem ?_
  show earlier.id ∈ r.id :: (after.filterMap result?).map ValidationResult.id
  exact List.mem_cons.2 (.inl hid)

/-- A result of the second hour, by a clock that keeps universal time. -/
def late : ValidationResult :=
  { (default : ValidationResult) with
    id := "result-1", patchId := "patch-1", timestamp := ⟨7200000000, none⟩ }

/-- A result of the first hour, by a clock that is two hours ahead. -/
def early : ValidationResult :=
  { (default : ValidationResult) with
    id := "result-2", patchId := "patch-1", timestamp := ⟨10800000000, some 7200000000⟩
    performance := ⟨some 0.1, some (-3), none⟩ }

/-- A result for no patch. -/
def stray : ValidationResult := { (default : ValidationResult) with patchId := "patch-2" }

end Operation

end Store

end RepairLoop
