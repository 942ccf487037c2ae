import RepairLoop.Proofs.Steps
import RepairLoop.Store.Basic
/-!
# Store — what each change does

A change that the store takes has one outcome, stated here once for each:
which sort of records it touches, and what it makes of them. Everything that
is known of stores after changes is read off these.
-/

namespace RepairLoop.Store

variable {s s' : Store} {p q : Patch} {id : String}

/-- A time of the calendar is kept. -/
theorem keptTime_isOk {now : Moment} (hnow : now.toUniversal?.isSome = true) :
    ∃ kept, keptTime now = .ok kept := by
  obtain ⟨kept, hkept⟩ := Option.isSome_iff_exists.1 hnow
  exact ⟨kept, by rw [keptTime, hkept]⟩

/-! ## Issues -/

/-- An issue is kept with its times in universal time. -/
theorem keptIssue_eq {i kept : Issue} (h : keptIssue i = .ok kept) :
    ∃ created updated resolved, kept =
      { i with createdAt := created, updatedAt := updated, resolvedAt := resolved } := by
  unfold keptIssue at h
  obtain ⟨created, -, h⟩ := ok_of_bind h
  obtain ⟨updated, -, h⟩ := ok_of_bind h
  obtain ⟨resolved, -, h⟩ := ok_of_bind h
  split at h
  · exact ⟨created, updated, resolved, (Except.ok.inj h).symm⟩
  · cases h

theorem addIssue_kept {i : Issue} (h : s.addIssue i = .ok s') :
    ∃ kept, keptIssue i = .ok kept ∧ s.issue? i.id = none ∧
      s' = { s with issues := s.issues ++ [kept] } := by
  unfold addIssue at h
  obtain ⟨kept, hkept, h⟩ := ok_of_bind h
  obtain ⟨_, _, _, rfl⟩ := keptIssue_eq hkept
  split at h
  · cases h
  · rename_i hfree
    exact ⟨_, hkept, by simpa using hfree, (Except.ok.inj h).symm⟩

theorem addIssue_eq {i : Issue} (h : s.addIssue i = .ok s') :
    ∃ kept, kept.id = i.id ∧ kept.status = i.status ∧ s.issue? i.id = none ∧
      s' = { s with issues := s.issues ++ [kept] } := by
  obtain ⟨kept, hkept, hfree, hs'⟩ := addIssue_kept h
  obtain ⟨_, _, _, hsame⟩ := keptIssue_eq hkept
  exact ⟨kept, by rw [hsame], by rw [hsame], hfree, hs'⟩

theorem setIssueStatus_eq {status : IssueStatus} {now : Moment}
    (h : s.setIssueStatus id status now = .ok s') :
    ∃ time, (s.issue? id).isSome = true ∧ s' = { s with
      issues := s.issues.map fun i => if i.id == id then
          { i with
            status := status, updatedAt := time
            resolvedAt := if status == .resolved then some time else none }
        else i } := by
  unfold setIssueStatus at h
  obtain ⟨time, -, h⟩ := ok_of_bind h
  split at h
  · rename_i hknown
    exact ⟨time, hknown, (Except.ok.inj h).symm⟩
  · cases h

/-- Where issues are changed under their names, the same one is found. -/
theorem issue?_map {f : Issue → Issue} (hf : ∀ i, (f i).id = i.id) :
    ({ s with issues := s.issues.map f } : Store).issue? id = (s.issue? id).map f := by
  rw [issue?, issue?, List.find?_map]
  have hnames : ((·.id == id) ∘ f) = (·.id == id) := by
    funext i
    rw [Function.comp_apply, hf]
  rw [hnames]

/-- **An issue has the status that was set.** -/
theorem setIssueStatus_status {status : IssueStatus} {now : Moment}
    (h : s.setIssueStatus id status now = .ok s') :
    (s'.issue? id).map Issue.status = some status := by
  obtain ⟨time, hknown, rfl⟩ := setIssueStatus_eq h
  obtain ⟨i, hi⟩ := Option.isSome_iff_exists.1 hknown
  have hid : (i.id == id) = true := by
    rw [issue?] at hi
    simpa using List.find?_some hi
  rw [issue?_map, hi, Option.map_some, Option.map_some, if_pos hid]
  intro j
  split <;> rfl

/-! ## Results -/

theorem addResult_eq {r : ValidationResult} (h : s.addResult r = .ok s') :
    ∃ stamp, s' = { s with results := s.results ++ [⟨keptResult r, stamp⟩] } := by
  unfold addResult at h
  obtain ⟨time, -, h⟩ := ok_of_bind h
  split at h
  · cases h
  split at h
  · cases h
  exact ⟨_, (Except.ok.inj h).symm⟩

/-- A result is taken only for a patch that is stored. -/
theorem addResult_owner {r : ValidationResult} (h : s.addResult r = .ok s') :
    (s.rawPatch? r.patchId).isSome = true := by
  unfold addResult at h
  obtain ⟨time, -, h⟩ := ok_of_bind h
  split at h
  · cases h
  split at h
  · cases h
  · rename_i howner
    rwa [Option.isNone_iff_eq_none, ← ne_eq, ← Option.isSome_iff_ne_none] at howner

/-! ## Patches -/

/-- A patch is kept as it is, but for its times. -/
theorem keptPatch_eq (h : keptPatch p = .ok q) :
    ∃ applied created updated,
      q = { p with appliedAt := applied, createdAt := created, updatedAt := updated } := by
  unfold keptPatch at h
  obtain ⟨applied, -, h⟩ := ok_of_bind h
  obtain ⟨created, -, h⟩ := ok_of_bind h
  obtain ⟨updated, -, h⟩ := ok_of_bind h
  split at h
  · exact ⟨applied, created, updated, (Except.ok.inj h).symm⟩
  · cases h

theorem keptPatch_id (h : keptPatch p = .ok q) : q.id = p.id := by
  obtain ⟨_, _, _, rfl⟩ := keptPatch_eq h
  rfl

theorem rawPatch?_eq_none : s.rawPatch? id = none ↔ ∀ q ∈ s.patches, q.id ≠ id := by
  simp [rawPatch?, List.find?_eq_none]

theorem rawPatch?_eq_some (h : s.rawPatch? id = some q) : q ∈ s.patches ∧ q.id = id := by
  rw [rawPatch?] at h
  exact ⟨List.mem_of_find?_eq_some h, by simpa using List.find?_some h⟩

/-- What is read under a name is the patch that stands there. -/
theorem rawPatch?_of_read (h : s.patch? id = .ok (some q)) : s.rawPatch? id = some q := by
  unfold patch? at h
  split at h
  · cases h
  · rename_i p hp
    unfold readPatch at h
    split at h
    · obtain rfl := Option.some.inj (Except.ok.inj h)
      exact hp
    · cases h

/-- What stands under a name is read, if it keeps the rule. -/
theorem patch?_of_raw (h : s.rawPatch? id = some q) (hrule : q.rule = none) :
    s.patch? id = .ok (some q) := by
  rw [patch?, h]
  simp only [readPatch, hrule]
  rfl

/-- A patch that is read is one that stands in the store. -/
theorem patch?_eq_some (h : s.patch? id = .ok (some q)) : q ∈ s.patches ∧ q.id = id :=
  rawPatch?_eq_some (rawPatch?_of_read h)

/-- **A patch that is put takes the place of the one with its name, or is
added.** -/
theorem putPatch_cases (h : s.putPatch p = .ok s') :
    ∃ kept, keptPatch p = .ok kept ∧
      (s' = { s with patches := s.patches.map fun q =>
          if q.id == p.id then mergePatch q kept else q } ∨
        ((∀ q ∈ s.patches, q.id ≠ p.id) ∧ s' = { s with patches := s.patches ++ [kept] })) := by
  unfold putPatch at h
  obtain ⟨kept, hkept, h⟩ := ok_of_bind h
  rw [keptPatch_id hkept] at h
  refine ⟨kept, hkept, ?_⟩
  split at h
  · exact Or.inl (Except.ok.inj h).symm
  · rename_i hfree
    split at h
    · refine Or.inr ⟨rawPatch?_eq_none.1 ?_, (Except.ok.inj h).symm⟩
      simpa using hfree
    · cases h

theorem updatePatches_eq {kind : Patch → Bool} {f : Patch → Patch} {otherwise : StoreFault}
    (h : s.updatePatches kind f otherwise = .ok s') :
    (∃ q ∈ s.patches, kind q = true) ∧
      s' = { s with patches := s.patches.map fun q => if kind q then f q else q } := by
  unfold updatePatches at h
  split at h
  · rename_i hany
    exact ⟨List.any_eq_true.1 hany, (Except.ok.inj h).symm⟩
  · cases h

/-- Patches of a kind are changed if there is one. -/
theorem updatePatches_isOk {kind : Patch → Bool} (hp : p ∈ s.patches) (hkind : kind p = true)
    (f : Patch → Patch) (otherwise : StoreFault) :
    ∃ s', s.updatePatches kind f otherwise = .ok s' :=
  ⟨_, if_pos (List.any_eq_true.2 ⟨p, hp, hkind⟩)⟩

theorem setValidation_eq {status : ValidationStatus} {kind : Option ErrorKind} {now : Moment}
    (h : s.setValidation id status kind now = .ok s') :
    ∃ time, s' = { s with patches := s.patches.map fun q =>
      if q.id == id && !q.applied then
        { q with validationStatus := status, errorKind := kind, updatedAt := time }
      else q } := by
  unfold setValidation at h
  obtain ⟨time, -, h⟩ := ok_of_bind h
  obtain ⟨-, rfl⟩ := updatePatches_eq h
  exact ⟨time, rfl⟩

theorem markApplied_eq {rollback : String} {commit backup : Option String} {now : Moment}
    (h : s.markApplied id rollback commit backup now = .ok s') :
    (∃ q ∈ s.patches, (q.id == id && q.validationStatus == .valid) = true) ∧
      ∃ time, s' = { s with patches := s.patches.map fun q =>
        if q.id == id && q.validationStatus == .valid then
          { q with
            applied := true, appliedAt := some time, rollbackPatch := some rollback
            commitId := commit, backupBranch := backup, updatedAt := time }
        else q } := by
  unfold markApplied at h
  obtain ⟨time, -, h⟩ := ok_of_bind h
  obtain ⟨hsome, rfl⟩ := updatePatches_eq h
  exact ⟨hsome, time, rfl⟩

/-- A valid patch is marked at a time of the calendar. -/
theorem markApplied_isOk {rollback : String} {commit backup : Option String} {now : Moment}
    (hp : p ∈ s.patches) (hvalid : p.validationStatus = .valid)
    (hnow : now.toUniversal?.isSome = true) :
    ∃ s', s.markApplied p.id rollback commit backup now = .ok s' := by
  obtain ⟨kept, htime⟩ := keptTime_isOk hnow
  rw [markApplied, htime]
  exact updatePatches_isOk hp (by rw [beq_self_eq_true, hvalid]; rfl) _ _

/-- And so is an applied one. -/
theorem markRolledBack_isOk {now : Moment} (hp : p ∈ s.patches) (happlied : p.applied = true)
    (hnow : now.toUniversal?.isSome = true) : ∃ s', s.markRolledBack p.id now = .ok s' := by
  obtain ⟨kept, htime⟩ := keptTime_isOk hnow
  rw [markRolledBack, htime]
  exact updatePatches_isOk hp (by rw [beq_self_eq_true, happlied]; rfl) _ _

theorem markRolledBack_eq {now : Moment} (h : s.markRolledBack id now = .ok s') :
    ∃ time, s' = { s with patches := s.patches.map fun q =>
      if q.id == id && q.applied then { q with rolledBack := true, updatedAt := time } else q } := by
  unfold markRolledBack at h
  obtain ⟨time, -, h⟩ := ok_of_bind h
  obtain ⟨-, rfl⟩ := updatePatches_eq h
  exact ⟨time, rfl⟩

/-- What is marked rolled back was applied. -/
theorem markRolledBack_some {now : Moment} (h : s.markRolledBack id now = .ok s') :
    ∃ q ∈ s.patches, (q.id == id && q.applied) = true := by
  unfold markRolledBack at h
  obtain ⟨time, -, h⟩ := ok_of_bind h
  exact (updatePatches_eq h).1

end RepairLoop.Store

/-!
## Store — patches in hand and on record

A patch in hand is moved first and stored then. The store mirrors it (`Store.Mirrors`) if
what is stored under its name says how far it has come. To put a patch makes the store
mirror it and disturbs no patch of another name; neither does any other change of the store,
the marks apart, which change the patch in hand alike.
-/

namespace RepairLoop

/-- A row says of a patch how far it has come, and can be read. -/
structure Patch.Reflects (q p : Patch) : Prop where
  status : q.validationStatus = p.validationStatus
  review : q.needsReview = p.needsReview
  applied : q.applied = p.applied
  rule : q.rule = none

/-- The store has taken the patch at some time. -/
def Patch.Storable (p : Patch) : Prop :=
  ∃ time kept, Store.keptPatch { p with updatedAt := time } = .ok kept

/-- What is not applied can be read. -/
theorem Patch.rule_of_unapplied {p : Patch} (h : p.applied = false) : p.rule = none := by
  rw [rule, h]
  rfl

namespace Store

variable {s s' : Store} {p q : Patch} {id : String}

/-- What is stored under the name of a patch says how far the patch has come. -/
structure Mirrors (s : Store) (p : Patch) : Prop where
  stored : ∃ q ∈ s.patches, q.id = p.id
  rows : ∀ q ∈ s.patches, q.id = p.id → q.Reflects p

namespace Mirrors

/-- **A patch is read as it is in hand.** -/
theorem read (h : s.Mirrors p) : ∃ q, s.patch? p.id = .ok (some q) ∧ q.Reflects p := by
  cases hraw : s.rawPatch? p.id with
  | none =>
    obtain ⟨q, hq, hid⟩ := h.stored
    exact (rawPatch?_eq_none.1 hraw q hq hid).elim
  | some q =>
    obtain ⟨hq, hid⟩ := rawPatch?_eq_some hraw
    have hreflects := h.rows q hq hid
    exact ⟨q, patch?_of_raw hraw hreflects.rule, hreflects⟩

/-- Changes of other records. -/
theorem of_eq (h : s.Mirrors p) (hpatches : s'.patches = s.patches) : s'.Mirrors p :=
  ⟨hpatches ▸ h.stored, hpatches ▸ h.rows⟩

/-- Patches are changed where they stand. -/
theorem of_map {f : Patch → Patch} (h : s.Mirrors p) (hname : ∀ r, (f r).id = r.id)
    (hid : q.id = p.id) (hrows : ∀ r, r.id = p.id → r.Reflects p → (f r).Reflects q) :
    ({ s with patches := s.patches.map f } : Store).Mirrors q := by
  refine ⟨?_, fun r' hr' hrid => ?_⟩
  · obtain ⟨r, hr, hrid⟩ := h.stored
    exact ⟨f r, List.mem_map_of_mem hr, by rw [hname, hrid, hid]⟩
  · obtain ⟨r, hr, rfl⟩ := List.mem_map.1 hr'
    have hsame : r.id = p.id := (hname r).symm.trans (hrid.trans hid)
    exact hrows r hsame (h.rows r hr hsame)

end Mirrors

/-! ## Putting a patch -/

/-- What is put is stored under its name. -/
theorem putPatch_stored (h : s.putPatch p = .ok s') : ∃ q ∈ s'.patches, q.id = p.id := by
  unfold putPatch at h
  obtain ⟨kept, hkept, h⟩ := ok_of_bind h
  have hid : kept.id = p.id := keptPatch_id hkept
  split at h
  · rename_i hknown
    obtain ⟨q, hq⟩ := Option.isSome_iff_exists.1 hknown
    obtain ⟨hmem, hname⟩ := rawPatch?_eq_some hq
    obtain rfl := Except.ok.inj h
    refine ⟨_, List.mem_map_of_mem hmem, ?_⟩
    rw [if_pos (beq_iff_eq.2 hname)]
    exact hid
  · split at h
    · obtain rfl := Except.ok.inj h
      exact ⟨kept, by simp, hid⟩
    · cases h

/-- **What is put is mirrored.** -/
theorem putPatch_mirrors (h : s.putPatch p = .ok s') (hrule : p.rule = none) : s'.Mirrors p := by
  refine ⟨putPatch_stored h, fun r hr hid => ?_⟩
  obtain ⟨kept, hkept, hput⟩ := putPatch_cases h
  obtain ⟨_, _, _, rfl⟩ := keptPatch_eq hkept
  rcases hput with rfl | ⟨hfree, rfl⟩
  · obtain ⟨o, ho, rfl⟩ := List.mem_map.1 hr
    split
    · exact ⟨rfl, rfl, rfl, hrule⟩
    · rename_i hne
      rw [if_neg hne] at hid
      exact absurd (beq_iff_eq.2 hid) hne
  · rcases List.mem_append.1 hr with hr | hr
    · exact absurd hid (hfree r hr)
    · rw [List.mem_singleton.1 hr]
      exact ⟨rfl, rfl, rfl, hrule⟩

/-- And patches of other names are mirrored as before. -/
theorem Mirrors.put (h : s.Mirrors q) (hput : s.putPatch p = .ok s') (hne : q.id ≠ p.id) :
    s'.Mirrors q := by
  obtain ⟨kept, hkept, hput⟩ := putPatch_cases hput
  have hid : kept.id = p.id := keptPatch_id hkept
  rcases hput with rfl | ⟨-, rfl⟩
  · refine h.of_map (fun r => ?_) rfl fun r hr hreflects => ?_
    · split
      · rename_i heq
        exact hid.trans (beq_iff_eq.1 heq).symm
      · rfl
    · rw [if_neg fun heq => hne (hr.symm.trans (beq_iff_eq.1 heq))]
      exact hreflects
  · obtain ⟨r, hr, hrid⟩ := h.stored
    refine ⟨⟨r, List.mem_append_left _ hr, hrid⟩, fun r hr hrid => ?_⟩
    rcases List.mem_append.1 hr with hr | hr
    · exact h.rows r hr hrid
    · rw [List.mem_singleton.1 hr, hid] at hrid
      exact absurd hrid.symm hne

/-! ## What the store takes -/

/-- What is kept of a patch besides its last change does not depend on when that was. -/
theorem keptPatch_isOk {kept : Patch} (h : keptPatch p = .ok kept)
    (happlied : q.appliedAt = p.appliedAt) (hcreated : q.createdAt = p.createdAt)
    (hindex : q.generationIndex = p.generationIndex) {time : Moment}
    (hupdated : keptTime q.updatedAt = .ok time) : ∃ kept, keptPatch q = .ok kept := by
  unfold keptPatch at h ⊢
  obtain ⟨applied, happliedAt, h⟩ := ok_of_bind h
  obtain ⟨created, hcreatedAt, h⟩ := ok_of_bind h
  obtain ⟨_, -, h⟩ := ok_of_bind h
  rw [← happlied] at happliedAt
  rw [← hcreated] at hcreatedAt
  rw [← hindex] at h
  simp only [happliedAt, hcreatedAt, hupdated]
  split at h
  · rename_i hfits
    exact ⟨_, if_pos hfits⟩
  · cases h

/-- The store has taken the time of the last change, which was one of the calendar. -/
theorem keptPatch_dated {kept : Patch} (h : keptPatch p = .ok kept) :
    ∃ time, keptTime p.updatedAt = .ok time ∧ p.updatedAt.toUniversal? = some time := by
  unfold keptPatch at h
  obtain ⟨_, -, h⟩ := ok_of_bind h
  obtain ⟨_, -, h⟩ := ok_of_bind h
  obtain ⟨time, htime, -⟩ := ok_of_bind h
  refine ⟨time, htime, ?_⟩
  unfold keptTime at htime
  split at htime
  · rename_i hsome
    rw [hsome, Except.ok.inj htime]
  · cases htime

/-- **A patch that was taken before is taken again with another verdict.** -/
theorem storable_of_eq (h : p.Storable) (happlied : q.appliedAt = p.appliedAt)
    (hcreated : q.createdAt = p.createdAt) (hindex : q.generationIndex = p.generationIndex) :
    q.Storable := by
  obtain ⟨time, kept, hkept⟩ := h
  obtain ⟨updated, hupdated, -⟩ := keptPatch_dated hkept
  obtain ⟨kept', hkept'⟩ :=
    keptPatch_isOk (q := { q with updatedAt := time }) hkept happlied hcreated hindex hupdated
  exact ⟨time, kept', hkept'⟩

theorem putPatch_storable {now : Moment} (h : s.putPatch { p with updatedAt := now } = .ok s') :
    p.Storable ∧ now.toUniversal?.isSome = true := by
  unfold putPatch at h
  obtain ⟨kept, hkept, -⟩ := ok_of_bind h
  obtain ⟨time, -, htime⟩ := keptPatch_dated hkept
  exact ⟨⟨now, kept, hkept⟩, Option.isSome_of_eq_some htime⟩

/-- **Of a patch that is stored again only the time can be refused.** -/
theorem putPatch_isOk {now : Moment} (hp : p.Storable) (hstored : ∃ q ∈ s.patches, q.id = p.id)
    (hnow : now.toUniversal?.isSome = true) :
    ∃ s', s.putPatch { p with updatedAt := now } = .ok s' := by
  obtain ⟨time, old, hold⟩ := hp
  obtain ⟨updated, hupdated⟩ := Option.isSome_iff_exists.1 hnow
  have htime : keptTime now = .ok updated := by rw [keptTime, hupdated]
  obtain ⟨kept, hkept⟩ :=
    keptPatch_isOk (q := { p with updatedAt := now }) hold rfl rfl rfl htime
  have hknown : (s.rawPatch? kept.id).isSome = true := by
    rw [keptPatch_id hkept, Option.isSome_iff_ne_none, ne_eq, rawPatch?_eq_none]
    intro hnone
    obtain ⟨q, hq, hid⟩ := hstored
    exact hnone q hq hid
  rw [putPatch, hkept]
  exact ⟨_, if_pos hknown⟩

/-! ## Marks -/

/-- **What is marked applied is mirrored by a patch that was applied**, if it was valid. -/
theorem Mirrors.markApplied {rollback : String} {commit backup : Option String} {now : Moment}
    (h : s.Mirrors p) (hmark : s.markApplied p.id rollback commit backup now = .ok s')
    (hvalid : p.validationStatus = .valid) (hid : q.id = p.id)
    (hstatus : q.validationStatus = p.validationStatus) (hreview : q.needsReview = p.needsReview)
    (happlied : q.applied = true) : s'.Mirrors q := by
  obtain ⟨-, time, rfl⟩ := markApplied_eq hmark
  refine h.of_map (fun r => ?_) hid fun r hr hreflects => ?_
  · split <;> rfl
  · have hkind : (r.id == p.id && r.validationStatus == .valid) = true := by
      rw [hreflects.status, hvalid, hr, beq_self_eq_true]
      rfl
    rw [if_pos hkind]
    refine ⟨hreflects.status.trans hstatus.symm, hreflects.review.trans hreview.symm, happlied.symm, ?_⟩
    simp [Patch.rule, hreflects.status, hvalid]

/-- Patches of other names are mirrored as before. -/
theorem Mirrors.markApplied_other {rollback : String} {commit backup : Option String} {now : Moment}
    (h : s.Mirrors p) (hmark : s.markApplied id rollback commit backup now = .ok s')
    (hne : p.id ≠ id) : s'.Mirrors p := by
  obtain ⟨-, time, rfl⟩ := markApplied_eq hmark
  refine h.of_map (fun r => ?_) rfl fun r hr hreflects => ?_
  · split <;> rfl
  · rw [if_neg]
    · exact hreflects
    · rw [Bool.and_eq_true, beq_iff_eq]
      exact fun hkind => hne (hr.symm.trans hkind.1)

/-- A rollback leaves standing how far each patch had come. -/
theorem Mirrors.markRolledBack {now : Moment} (h : s.Mirrors p)
    (hmark : s.markRolledBack id now = .ok s') : s'.Mirrors p := by
  obtain ⟨time, rfl⟩ := markRolledBack_eq hmark
  refine h.of_map (fun r => ?_) rfl fun r _ hreflects => ?_
  · split <;> rfl
  · split
    · exact ⟨hreflects.status, hreflects.review, hreflects.applied, hreflects.rule⟩
    · exact hreflects

end Store

end RepairLoop
