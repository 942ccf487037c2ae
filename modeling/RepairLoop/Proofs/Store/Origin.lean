import RepairLoop.Proofs.Store.Operations
import RepairLoop.Proofs.Store.Rows
/-!
# Origin — what stays of a patch that is put again

The origin of a patch is its issue, its place among the candidates and the time of its
creation. What one operation can do to patches and results is said once
(`Operation.perform_cases`). None touches the origin of what is stored: a row has the origin of
the patch that was put when its name was free (`Operation.perform_origin`), however many
operations follow (`Operation.run_origin`). So what is read under a name after a patch was put
is the patch itself, or the patch with the origin of the first one (`Operation.run_reads`).
-/

/-!
## Tables — the store and its rows

What the store takes its tables take, and they stay the rows of its records
(`Tables.createIssue_eq`, `Tables.createPatch_eq`, `Tables.recordResult_eq`). A record is kept
with its times in universal time, and it is read from its row as it is kept
(`Tables.issue?_eq`, `Tables.patch?_eq`). Where a patch is put again its row is overwritten as
the patch is merged with the older one (`Tables.of_mergePatch`).
-/

namespace RepairLoop

open Store (keptTime keptOptional keptIssue keptPatch)

/-! ### Records as they are kept -/

/-- An issue with its times in universal time. -/
def Issue.universal (i : Issue) : Issue :=
  { i with
    createdAt := i.createdAt.universal, updatedAt := i.updatedAt.universal
    resolvedAt := i.resolvedAt.map Moment.universal }

/-- A patch with its times in universal time. -/
def Patch.universal (p : Patch) : Patch :=
  { p with
    appliedAt := p.appliedAt.map Moment.universal
    createdAt := p.createdAt.universal, updatedAt := p.updatedAt.universal }

namespace Store

variable {s s' : Store} {id : String} {supply : Supply}

theorem keptIssue_universal {i kept : Issue} (h : keptIssue i = .ok kept) :
    kept = i.universal ∧ kept.IsKept := by
  unfold keptIssue at h
  obtain ⟨created, hcreated, h⟩ := ok_of_bind h
  obtain ⟨updated, hupdated, h⟩ := ok_of_bind h
  obtain ⟨resolved, hresolved, h⟩ := ok_of_bind h
  obtain ⟨rfl, hcreated⟩ := keptTime_eq hcreated
  obtain ⟨rfl, hupdated⟩ := keptTime_eq hupdated
  obtain ⟨rfl, hresolved⟩ := keptOptional_eq hresolved
  split at h
  · obtain rfl := Except.ok.inj h
    exact ⟨rfl, hcreated, hupdated, hresolved⟩
  · cases h

theorem keptPatch_universal {p kept : Patch} (h : keptPatch p = .ok kept) :
    kept = p.universal ∧ kept.IsKept := by
  unfold keptPatch at h
  obtain ⟨applied, happlied, h⟩ := ok_of_bind h
  obtain ⟨created, hcreated, h⟩ := ok_of_bind h
  obtain ⟨updated, hupdated, h⟩ := ok_of_bind h
  obtain ⟨rfl, happlied⟩ := keptOptional_eq happlied
  obtain ⟨rfl, hcreated⟩ := keptTime_eq hcreated
  obtain ⟨rfl, hupdated⟩ := keptTime_eq hupdated
  split at h
  · obtain rfl := Except.ok.inj h
    exact ⟨rfl, hcreated, hupdated, happlied⟩
  · cases h

/-! ### The tables follow the store -/

theorem any_issues : s.tables.issues.any (·.id == id) = (s.issue? id).isSome := by
  rw [issue?, List.isSome_find?]
  exact List.any_map

theorem any_patches : s.tables.patches.any (·.id == id) = (s.rawPatch? id).isSome := by
  rw [rawPatch?, List.isSome_find?]
  exact List.any_map

theorem any_results : s.tables.results.any (·.id == id) = s.results.any (·.result.id == id) :=
  List.any_map

end Store

namespace Tables

variable {s s' : Store} {id : String} {supply : Supply}

open Store

/-- A row is overwritten as a patch is merged. -/
theorem of_mergePatch {old new : Patch} (hid : old.id = new.id) :
    PatchRow.of (mergePatch old new) = (PatchRow.of old).overwritten (PatchRow.of new) := by
  simp only [PatchRow.of, PatchRow.overwritten, mergePatch, hid]

/-- **An issue is inserted as the store adds it.** -/
theorem createIssue_eq (s : Store) (i : Issue) :
    s.tables.createIssue i = (s.addIssue i).map Store.tables := by
  unfold createIssue addIssue
  cases keptIssue i with
  | error e => rfl
  | ok kept =>
    show (if s.tables.issues.any (·.id == kept.id) then _ else _) =
      Except.map _ (if _ then _ else _)
    rw [any_issues]
    split
    · rfl
    · simp only [Except.map, Store.tables, List.map_append, List.map_cons, List.map_nil]

/-- **A patch is inserted or overwrites columns as the store puts it.** -/
theorem createPatch_eq (s : Store) (p : Patch) (now : Moment) :
    s.tables.createPatch p now = (s.putPatch { p with updatedAt := now }).map Store.tables := by
  unfold createPatch putPatch
  cases keptPatch { p with updatedAt := now } with
  | error e => rfl
  | ok kept =>
    show (if s.tables.patches.any (·.id == kept.id) then _
      else if s.tables.issues.any (·.id == kept.issueId) then _ else _) =
        Except.map _ (if _ then _ else if _ then _ else _)
    rw [any_patches, any_issues]
    split
    · have hrow : ∀ q : Patch, (if (PatchRow.of q).id == (PatchRow.of kept).id then
            (PatchRow.of q).overwritten (PatchRow.of kept) else PatchRow.of q) =
          PatchRow.of (if q.id == kept.id then mergePatch q kept else q) := by
        intro q
        show (if q.id == kept.id then _ else _) = _
        by_cases hid : q.id = kept.id
        · rw [if_pos (beq_iff_eq.2 hid), if_pos (beq_iff_eq.2 hid), of_mergePatch hid]
        · rw [if_neg (mt beq_iff_eq.1 hid), if_neg (mt beq_iff_eq.1 hid)]
      simp only [Except.map, Store.tables, List.map_map, Function.comp_def, hrow]
    · split
      · simp only [Except.map, Store.tables, List.map_append, List.map_cons, List.map_nil]
      · rfl

/-- **A result is inserted as the store adds it.** -/
theorem recordResult_eq (s : Store) (r : ValidationResult) :
    s.tables.recordResult r = (s.addResult r).map Store.tables := by
  unfold recordResult addResult
  cases keptTime r.timestamp with
  | error e => rfl
  | ok time =>
    show (if s.tables.results.any (·.id == r.id) then _
      else if s.tables.patches.any (·.id == r.patchId) then _ else _) =
        Except.map _ (if _ then _ else if _ then _ else _)
    rw [any_results, any_patches, ← Option.not_isSome]
    split
    · rfl
    · cases (s.rawPatch? r.patchId).isSome with
      | false => rfl
      | true => simp [Except.map, Store.tables, stampOf]

/-! ### What is read from the tables -/

theorem issue?_eq {i : Issue} (hfound : s.issue? id = some i) (hvalid : i.IsValid)
    (hkept : i.IsKept) (supply : Supply) : s.tables.issue? id supply = .ok (some i) := by
  have hrow : s.tables.issues.find? (·.id == id) = some (IssueRow.of i) := by
    have hfind : s.issues.find? (·.id == id) = some i := hfound
    simp only [Store.tables, List.find?_map, Function.comp_def]
    exact congrArg (Option.map IssueRow.of) hfind
  simp only [issue?, hrow, IssueRow.issue_of hvalid hkept supply]
  rfl

theorem patch?_eq {p : Patch} (hfound : s.rawPatch? id = some p) (hvalid : p.IsValid)
    (hkept : p.IsKept) (supply : Supply) :
    s.tables.patch? id supply = .ok (some p.inColumns) := by
  have hrow : s.tables.patches.find? (·.id == id) = some (PatchRow.of p) := by
    have hfind : s.patches.find? (·.id == id) = some p := hfound
    simp only [Store.tables, List.find?_map, Function.comp_def]
    exact congrArg (Option.map PatchRow.of) hfind
  simp only [patch?, hrow, PatchRow.patch_of hvalid hkept supply]
  rfl

end Tables

end RepairLoop

namespace RepairLoop

/-- What stays of a patch where it is put again: its issue, its place among the candidates and
the time of its creation. -/
def Patch.origin (p : Patch) : String × Int × Moment := (p.issueId, p.generationIndex, p.createdAt)

/-- A result as it is kept. -/
def StoredResult.of (r : ValidationResult) : StoredResult :=
  ⟨Store.keptResult r, r.timestamp.universal.isoText⟩

namespace Store

variable {s s' : Store} {p q : Patch}

/-- A result that is recorded comes behind the others. -/
theorem addResult_kept {r : ValidationResult} (h : s.addResult r = .ok s') :
    s' = { s with results := s.results ++ [StoredResult.of r] } ∧
      r.timestamp.universal.IsKept := by
  unfold addResult at h
  obtain ⟨time, htime, h⟩ := ok_of_bind h
  obtain ⟨rfl, hkept⟩ := keptTime_eq htime
  split at h
  · cases h
  split at h
  · cases h
  exact ⟨(Except.ok.inj h).symm, hkept⟩

/-- Results are left alone, and what is stored of patches keeps name and origin. -/
def Retouched (s s' : Store) : Prop :=
  s'.results = s.results ∧ ∀ q ∈ s'.patches, ∃ p ∈ s.patches, q.id = p.id ∧ q.origin = p.origin

theorem retouched_of_eq (hresults : s'.results = s.results) (hpatches : s'.patches = s.patches) :
    s.Retouched s' :=
  ⟨hresults, fun q hq => ⟨q, hpatches ▸ hq, rfl, rfl⟩⟩

theorem retouched_of_map {c : Patch → Bool} {f : Patch → Patch}
    (hf : ∀ p, c p = true → (f p).id = p.id ∧ (f p).origin = p.origin) :
    s.Retouched { s with patches := s.patches.map fun p => if c p then f p else p } := by
  refine ⟨rfl, fun q hq => ?_⟩
  obtain ⟨p, hp, rfl⟩ := List.mem_map.1 hq
  refine ⟨p, hp, ?_⟩
  split
  · rename_i hc
    exact hf p hc
  · exact ⟨rfl, rfl⟩

namespace Operation

/-- The result that an operation is to record. -/
def result? : Operation → Option ValidationResult
  | addResult r => some r
  | _ => none

/-- **All that one operation can do** to patches and results: patches are changed where they
stand, a patch is put whose name was free, a result is recorded, or old records are swept. -/
theorem perform_cases {o : Operation} (h : o.perform s = .ok s') :
    (o.result? = none ∧ s.Retouched s') ∨
      (∃ p now, o = .createPatch p now ∧ s.rawPatch? p.1.id = none ∧
        ({ p.1 with updatedAt := now } : Patch).universal.IsKept ∧
        s' = { s with
          patches := s.patches ++ [({ p.1 with updatedAt := now } : Patch).universal] }) ∨
      (∃ r, o = .addResult r ∧ r.timestamp.universal.IsKept ∧
        s' = { s with results := s.results ++ [StoredResult.of r] }) ∨
      ∃ age now, o = .cleanUp age now ∧ s'.patches ⊆ s.patches := by
  cases o with
  | createIssue i =>
    obtain ⟨kept, -, -, -, rfl⟩ := addIssue_eq h
    exact .inl ⟨rfl, retouched_of_eq rfl rfl⟩
  | setIssueStatus id status now =>
    obtain ⟨time, -, rfl⟩ := setIssueStatus_eq h
    exact .inl ⟨rfl, retouched_of_eq rfl rfl⟩
  | createPatch p now =>
    obtain ⟨kept, hkept, hput⟩ := putPatch_cases h
    obtain ⟨rfl, hkept⟩ := keptPatch_universal hkept
    rcases hput with rfl | ⟨hfree, rfl⟩
    · refine .inl ⟨rfl, retouched_of_map fun r hr => ?_⟩
      exact ⟨(beq_iff_eq.1 hr).symm, rfl⟩
    · exact .inr (.inl ⟨p, now, rfl, rawPatch?_eq_none.2 hfree, hkept, rfl⟩)
  | setValidation id status kind now =>
    obtain ⟨time, rfl⟩ := setValidation_eq h
    exact .inl ⟨rfl, retouched_of_map fun r _ => ⟨rfl, rfl⟩⟩
  | markApplied id rollback commit backup now =>
    have hmark : s.markUndoable id rollback commit backup now = .ok s' := h
    unfold markUndoable at hmark
    split at hmark
    · cases hmark
    · obtain ⟨-, time, rfl⟩ := markApplied_eq hmark
      exact .inl ⟨rfl, retouched_of_map fun r _ => ⟨rfl, rfl⟩⟩
  | markRolledBack id now =>
    obtain ⟨time, rfl⟩ := markRolledBack_eq h
    exact .inl ⟨rfl, retouched_of_map fun r _ => ⟨rfl, rfl⟩⟩
  | addResult r =>
    obtain ⟨rfl, hkept⟩ := addResult_kept h
    exact .inr (.inr (.inl ⟨r, rfl, hkept, rfl⟩))
  | cleanUp age now =>
    obtain ⟨n, hclean⟩ := perform_cleanUp h
    obtain ⟨kept, rfl⟩ := cleanUp_eq hclean
    exact .inr (.inr (.inr ⟨age, now, rfl, List.filter_subset_self _⟩))

/-- **What one operation makes of origins.** A patch that is stored had its name and origin
before, or it was put while its name was free. -/
theorem perform_origin {o : Operation} (h : o.perform s = .ok s') (hq : q ∈ s'.patches) :
    (∃ p ∈ s.patches, q.id = p.id ∧ q.origin = p.origin) ∨
      ∃ p now, o = .createPatch p now ∧ s.rawPatch? p.1.id = none ∧ q.id = p.1.id ∧
        q.origin = p.1.universal.origin ∧ q.createdAt.IsKept := by
  rcases perform_cases h with ⟨-, hsame⟩ | ⟨p, now, rfl, hfree, hkept, rfl⟩ | ⟨r, rfl, -, rfl⟩ |
    ⟨age, now, rfl, hsub⟩
  · exact .inl (hsame.2 q hq)
  · rcases List.mem_append.1 hq with hq | hq
    · exact .inl ⟨q, hq, rfl, rfl⟩
    · obtain rfl := List.mem_singleton.1 hq
      exact .inr ⟨p, now, rfl, hfree, rfl, rfl, hkept.created⟩
  · exact .inl ⟨q, hq, rfl, rfl⟩
  · exact .inl ⟨q, hsub hq, rfl, rfl⟩

/-! ## Stores that are reached -/

/-- A store after an operation; one that is refused leaves it alone. -/
def step (s : Store) (o : Operation) : Store :=
  match o.perform s with
  | .ok s' => s'
  | .error _ => s

/-- The store that operations lead to. -/
def runFrom (s : Store) (ops : List Operation) : Store := ops.foldl step s

/-- The store that operations lead to from one without records. -/
def run (ops : List Operation) : Store := runFrom empty ops

theorem run_append (ops : List Operation) (o : Operation) :
    run (ops ++ [o]) = step (run ops) o := by
  rw [run, runFrom, List.foldl_append]
  rfl

/-- **What every operation keeps** holds of all stores that are reached. -/
theorem run_induction {P : Store → Prop} (hempty : P empty)
    (hperform : ∀ s s' o, P s → perform o s = .ok s' → P s') (ops : List Operation) :
    P (run ops) := by
  induction ops using List.reverseRecOn with
  | nil => exact hempty
  | append_singleton ops o ih =>
    rw [run_append, step]
    split
    · rename_i s' hdone
      exact hperform _ s' o ih hdone
    · exact ih

/-- The patch was put while its name was free, and one of its name has been stored since. -/
inductive FirstPut (p : { p : Patch // p.rule = none }) : List Operation → Prop
  | put {ops : List Operation} {now : Moment} (hfree : (run ops).rawPatch? p.1.id = none)
    (hstored : ((run (ops ++ [.createPatch p now])).rawPatch? p.1.id).isSome = true) :
    FirstPut p (ops ++ [.createPatch p now])
  | more {ops : List Operation} {o : Operation} (h : FirstPut p ops)
    (hstored : ((run (ops ++ [o])).rawPatch? p.1.id).isSome = true) : FirstPut p (ops ++ [o])

theorem rawPatch?_isSome (hq : q ∈ s.patches) : (s.rawPatch? q.id).isSome = true := by
  rw [Option.isSome_iff_ne_none, ne_eq, rawPatch?_eq_none]
  exact fun h => h q hq rfl

/-- **What is stored has the origin of the patch that was first put** under its name. -/
theorem run_origin (ops : List Operation) :
    ∀ q ∈ (run ops).patches, ∃ p, FirstPut p ops ∧ q.id = p.1.id ∧
      q.origin = p.1.universal.origin ∧ q.createdAt.IsKept := by
  induction ops using List.reverseRecOn with
  | nil => exact fun q hq => (List.not_mem_nil hq).elim
  | append_singleton ops o ih =>
    intro q hq
    have hstored : ((run (ops ++ [o])).rawPatch? q.id).isSome = true := rawPatch?_isSome hq
    have hstep : (∃ p ∈ (run ops).patches, q.id = p.id ∧ q.origin = p.origin) ∨
        ∃ p now, o = .createPatch p now ∧ (run ops).rawPatch? p.1.id = none ∧ q.id = p.1.id ∧
          q.origin = p.1.universal.origin ∧ q.createdAt.IsKept := by
      rw [run_append, step] at hq
      split at hq
      · rename_i s' hperform
        exact perform_origin hperform hq
      · exact .inl ⟨q, hq, rfl, rfl⟩
    rcases hstep with ⟨r, hr, hid, horigin⟩ | ⟨p, now, rfl, hfree, hid, horigin, hkept⟩
    · obtain ⟨p, hfirst, hname, hsame, hkept⟩ := ih r hr
      have hcreated : q.createdAt = r.createdAt := congrArg (·.2.2) horigin
      exact ⟨p, .more hfirst (hname ▸ hid ▸ hstored), hid.trans hname, horigin.trans hsame,
        hcreated ▸ hkept⟩
    · exact ⟨p, .put hfree (hid ▸ hstored), hid, horigin, hkept⟩

/-! ## What is read of what was put -/

end Operation

theorem mergePatch_congr {a b : Patch} (h : a.origin = b.origin) (p : Patch) :
    mergePatch a p = mergePatch b p := by
  obtain ⟨hissue, hrest⟩ := Prod.mk.inj h
  obtain ⟨hindex, hcreated⟩ := Prod.mk.inj hrest
  rw [mergePatch, mergePatch, hissue, hindex, hcreated]

/-- **What is put is found under its name**, merged with what was there, and no row of another
name is touched. -/
theorem putPatch_found (h : s.putPatch p = .ok s') :
    p.universal.IsKept ∧
      (s.rawPatch? p.id = none ∧ s'.rawPatch? p.id = some p.universal ∨
        ∃ old, s.rawPatch? p.id = some old ∧
          s'.rawPatch? p.id = some (mergePatch old p.universal)) ∧
      s'.issues = s.issues ∧ s'.results = s.results ∧
      s'.patches.filter (·.id != p.id) = s.patches.filter (·.id != p.id) := by
  unfold putPatch at h
  obtain ⟨kept, hkept, h⟩ := ok_of_bind h
  obtain ⟨rfl, hkept⟩ := keptPatch_universal hkept
  change (if (s.rawPatch? p.id).isSome = true then _ else _) = _ at h
  refine ⟨hkept, ?_⟩
  split at h
  · rename_i hknown
    obtain ⟨old, hold⟩ := Option.isSome_iff_exists.1 hknown
    obtain ⟨-, hid⟩ := rawPatch?_eq_some hold
    obtain rfl := Except.ok.inj h
    have hname : ∀ q : Patch, (if q.id == p.id then mergePatch q p.universal else q).id = q.id := by
      intro q
      split
      · rename_i hq
        exact (beq_iff_eq.1 hq).symm
      · rfl
    refine ⟨.inr ⟨old, hold, ?_⟩, rfl, rfl, ?_⟩
    · have hfind : s.patches.find? (·.id == p.id) = some old := hold
      show List.find? (·.id == p.id) (s.patches.map fun q =>
        if q.id == p.id then mergePatch q p.universal else q) = _
      rw [List.find?_map, Function.comp_def]
      simp only [hname, hfind, Option.map_some, hid, beq_self_eq_true, if_true]
    · show List.filter (·.id != p.id) (s.patches.map fun q =>
        if q.id == p.id then mergePatch q p.universal else q) = _
      rw [List.filter_map, Function.comp_def]
      simp only [hname]
      refine (List.map_congr_left fun q hq => ?_).trans (List.map_id _)
      rw [if_neg (by simpa using (List.mem_filter.1 hq).2)]
      rfl
  · rename_i hfree
    rw [Option.not_isSome_iff_eq_none] at hfree
    split at h
    · obtain rfl := Except.ok.inj h
      have hfind : s.patches.find? (·.id == p.id) = none := hfree
      have hself : p.universal.id = p.id := rfl
      refine ⟨.inl ⟨hfree, ?_⟩, rfl, rfl, ?_⟩
      · show List.find? (·.id == p.id) (s.patches ++ [p.universal]) = _
        rw [List.find?_append, hfind, Option.none_or]
        exact List.find?_cons_of_pos (beq_iff_eq.2 hself)
      · show List.filter (·.id != p.id) (s.patches ++ [p.universal]) = _
        rw [List.filter_append, List.filter_cons_of_neg (by simp [hself]), List.filter_nil,
          List.append_nil]
    · cases h

/-- What is added is found under its name. -/
theorem addIssue_found {i : Issue} (h : s.addIssue i = .ok s') :
    i.universal.IsKept ∧ s'.issue? i.id = some i.universal ∧
      s' = { s with issues := s.issues ++ [i.universal] } := by
  obtain ⟨kept, hkept, hfree, rfl⟩ := addIssue_kept h
  obtain ⟨rfl, hkept⟩ := keptIssue_universal hkept
  refine ⟨hkept, ?_, rfl⟩
  have hself : i.universal.id = i.id := rfl
  have hfind : s.issues.find? (·.id == i.id) = none := hfree
  show List.find? (·.id == i.id) (s.issues ++ [i.universal]) = _
  rw [List.find?_append, hfind, Option.none_or]
  exact List.find?_cons_of_pos (beq_iff_eq.2 hself)

/-- The rows of other names are those of the other patches. -/
theorem tables_others (h : s'.patches.filter (·.id != p.id) = s.patches.filter (·.id != p.id)) :
    s'.tables.patches.filter (·.id != p.id) = s.tables.patches.filter (·.id != p.id) := by
  have hrows : ∀ t : Store, t.tables.patches.filter (·.id != p.id) =
      (t.patches.filter (·.id != p.id)).map PatchRow.of := fun t => List.filter_map
  rw [hrows, hrows, h]

namespace Operation

/-- **Issues and patches survive storage.** Let any row of operations have been done, and let the
store then take a valid issue. The table takes it as one more row, and what is read under its
name, of the records and of the rows alike, is the issue with its times in universal time.

Let the store take a valid patch instead. What is read under its name is the patch, with its times
in universal time; if its name was stored before, it has the issue, the place among the
candidates and the time of creation of the patch that was first put under the name. The scores
that are read from the row are the same numbers. No other row is touched. -/
theorem run_reads (ops : List Operation) (supply : Supply) :
    (∀ (i : Issue) (s' : Store), i.IsValid → (run ops).addIssue i = .ok s' →
      (run ops).tables.createIssue i = .ok s'.tables ∧
      s'.issue? i.id = some i.universal ∧
      s'.tables.issue? i.id supply = .ok (some i.universal) ∧
      s'.tables = { (run ops).tables with
        issues := (run ops).tables.issues ++ [IssueRow.of i.universal] }) ∧
    ∀ (p : Patch) (now : Moment) (s' : Store), p.IsValid →
      (run ops).putPatch { p with updatedAt := now } = .ok s' →
      (run ops).tables.createPatch p now = .ok s'.tables ∧
      (∃ q, s'.patch? p.id = .ok (some q) ∧
        s'.tables.patch? p.id supply = .ok (some q.inColumns) ∧
        (q.inColumns.confidence == p.confidence) = true ∧
        (q.inColumns.safetyScore == p.safetyScore) = true ∧
        ((run ops).rawPatch? p.id = none ∧ q = ({ p with updatedAt := now } : Patch).universal ∨
          ∃ first, FirstPut first ops ∧ first.1.id = p.id ∧
            q = { ({ p with updatedAt := now } : Patch).universal with
              issueId := first.1.issueId
              generationIndex := first.1.generationIndex
              createdAt := first.1.createdAt.universal })) ∧
      s'.tables.issues = (run ops).tables.issues ∧ s'.tables.results = (run ops).tables.results ∧
      s'.tables.patches.filter (·.id != p.id) =
        (run ops).tables.patches.filter (·.id != p.id) := by
  refine ⟨fun i s' hvalid hadd => ?_, fun p now s' hvalid hput => ?_⟩
  · obtain ⟨hkept, hfound, hrest⟩ := addIssue_found hadd
    have hreadable : i.universal.IsValid := ⟨hvalid.context, hvalid.metadata⟩
    refine ⟨?_, hfound, Tables.issue?_eq hfound hreadable hkept supply, ?_⟩
    · rw [Tables.createIssue_eq, hadd]
      rfl
    · rw [hrest, tables, List.map_append]
      rfl
  · obtain ⟨hkept, hfound, hissues, hresults, hothers⟩ := putPatch_found hput
    -- the patch that is found is the new one, with the origin of the first one if there is one
    have hcases : ∃ q, s'.rawPatch? p.id = some q ∧ q.IsKept ∧ q.IsValid ∧
        q.confidence = p.confidence ∧ q.safetyScore = p.safetyScore ∧
        ((run ops).rawPatch? p.id = none ∧ q = ({ p with updatedAt := now } : Patch).universal ∨
          ∃ first, FirstPut first ops ∧ first.1.id = p.id ∧
            q = mergePatch first.1.universal ({ p with updatedAt := now } : Patch).universal) := by
      rcases hfound with ⟨hfree, hnew⟩ | ⟨old, hold, hmerged⟩
      · exact ⟨_, hnew, hkept, ⟨hvalid.rule, hvalid.confidence, hvalid.safety⟩, rfl, rfl,
          .inl ⟨hfree, rfl⟩⟩
      · obtain ⟨hmem, hid⟩ := rawPatch?_eq_some hold
        obtain ⟨first, hfirst, hname, horigin, hcreated⟩ := run_origin ops old hmem
        exact ⟨_, hmerged, ⟨hcreated, hkept.updated, hkept.applied⟩,
          ⟨hvalid.rule, hvalid.confidence, hvalid.safety⟩, rfl, rfl,
          .inr ⟨first, hfirst, hname.symm.trans hid, mergePatch_congr horigin _⟩⟩
    obtain ⟨q, hq, hqkept, hqvalid, hconfidence, hsafety, horigin⟩ := hcases
    refine ⟨?_, ⟨q, ?_, Tables.patch?_eq hq hqvalid hqkept supply, ?_, ?_, horigin⟩, ?_, ?_,
      tables_others hothers⟩
    · rw [Tables.createPatch_eq, hput]
      rfl
    · simp only [patch?, hq, readPatch, hqvalid.rule]
      rfl
    · rw [← hconfidence]
      exact Column.real_beq hqvalid.confidence.1
    · rw [← hsafety]
      exact Column.real_beq hqvalid.safety.1
    · rw [tables, hissues, tables]
    · rw [tables, hresults, tables]

/-- A blank patch for an issue follows no rule. -/
theorem rule_blank (id issueId : String) :
    ({ (default : Patch) with id, issueId } : Patch).rule = none := rfl

/-- A patch that is put for an issue. -/
def puts : List Operation :=
  let p : Patch := { (default : Patch) with id := "patch-1", issueId := "issue-1" }
  [.createIssue { (default : Issue) with id := "issue-1" },
    .createPatch ⟨p, rule_blank "patch-1" "issue-1"⟩ default]

/-- Another issue, seen by a clock two hours ahead, is read in universal time; and the patch, put
again with another place among the candidates, is read with its explanation and its first place. -/
theorem run_reads_again :
    let seen : Moment := ⟨7200000000, some 7200000000⟩
    let i : Issue := { (default : Issue) with id := "issue-2", createdAt := seen }
    let p : Patch :=
      { (default : Patch) with id := "patch-1", generationIndex := 7, explanation := "again" }
    ∃ s' s'' q, (run puts).addIssue i = .ok s' ∧
      s'.tables.issue? "issue-2" default = .ok (some { i with
        createdAt := ⟨0, some 0⟩, updatedAt := ⟨0, some 0⟩ }) ∧
      (run puts).putPatch { p with updatedAt := seen } = .ok s'' ∧
      s''.tables.patch? "patch-1" default = .ok (some q) ∧ q.explanation = "again" ∧
      q.generationIndex = 0 ∧ q.issueId = "issue-1" := by
  intro seen i p
  obtain ⟨hissue, hpatch⟩ := run_reads puts default
  have hvalid : i.IsValid := ⟨List.nodup_nil, List.nodup_nil, trivial⟩
  have hpatched : p.IsValid := ⟨rfl, by decide +kernel, by decide +kernel⟩
  obtain ⟨-, -, hread, -⟩ := hissue i _ hvalid rfl
  obtain ⟨-, ⟨q, hq, hrow, -⟩, -⟩ := hpatch p seen _ hpatched rfl
  refine ⟨_, _, _, rfl, hread, rfl, hrow, ?_⟩
  obtain rfl := Option.some.inj (Except.ok.inj hq)
  exact ⟨rfl, rfl, rfl⟩

end Operation

end Store

end RepairLoop

/-!
## Revised — patches that are put again with another verdict

Whatever a store that is reached by operations holds of a patch it would keep as it is
(`Operation.run_lasting`). So where a version of such a patch is put, that is a copy with
another verdict, its row comes to differ from what it was in the verdict and the time of the last
change alone, whichever other version stood there before (`putPatch_version`).
-/

namespace RepairLoop

namespace Patch

variable {p q r : Patch}

/-! ### What is kept as it is -/

/-- The store would keep the patch as it is. -/
structure Lasts (p : Patch) : Prop extends p.IsKept where
  index : Store.fits p.generationIndex = true

/-- **What the store has kept it keeps as it is.** -/
theorem lasts_of_kept (h : Store.keptPatch p = .ok q) : q.Lasts := by
  obtain ⟨-, hkept⟩ := Store.keptPatch_universal h
  refine ⟨hkept, ?_⟩
  unfold Store.keptPatch at h
  obtain ⟨applied, -, h⟩ := ok_of_bind h
  obtain ⟨created, -, h⟩ := ok_of_bind h
  obtain ⟨updated, -, h⟩ := ok_of_bind h
  split at h
  · rename_i hfits
    obtain rfl := Except.ok.inj h
    exact hfits
  · cases h

theorem Lasts.keptPatch (h : p.Lasts) : Store.keptPatch p = .ok p := by
  have happlied : Store.keptOptional p.appliedAt = .ok p.appliedAt := by
    cases hat : p.appliedAt with
    | none => rfl
    | some t =>
      rw [Store.keptOptional, (h.applied t hat).keptTime]
      rfl
  rw [Store.keptPatch, happlied, h.created.keptTime, h.updated.keptTime]
  exact if_pos h.index

/-- Its time of application is in universal time. -/
theorem Lasts.appliedAt (h : p.Lasts) : p.appliedAt.map Moment.universal = p.appliedAt := by
  obtain ⟨hsame, -⟩ := Store.keptPatch_universal h.keptPatch
  exact (congrArg Patch.appliedAt hsame).symm

/-- What is changed in other fields. -/
theorem Lasts.of_eq (h : p.Lasts) (happlied : q.appliedAt = p.appliedAt)
    (hcreated : q.createdAt = p.createdAt) (hindex : q.generationIndex = p.generationIndex)
    (hupdated : q.updatedAt.IsKept) : q.Lasts :=
  ⟨⟨hcreated ▸ h.created, hupdated, happlied ▸ h.applied⟩, hindex ▸ h.index⟩

/-! ### Versions of a patch -/

/-- The second patch is the first one with another verdict and another time of the last change,
or with the same. -/
def Version (p q : Patch) : Prop :=
  ∃ status kind time,
    q = { p with validationStatus := status, errorKind := kind, updatedAt := time }

namespace Version

theorem refl (p : Patch) : p.Version p := ⟨_, _, _, rfl⟩

theorem trans (h : p.Version q) (h' : q.Version r) : p.Version r := by
  obtain ⟨_, _, _, rfl⟩ := h
  obtain ⟨status, kind, time, rfl⟩ := h'
  exact ⟨status, kind, time, rfl⟩

theorem id (h : p.Version q) : q.id = p.id := by
  obtain ⟨_, _, _, rfl⟩ := h
  rfl

theorem applied (h : p.Version q) : q.applied = p.applied := by
  obtain ⟨_, _, _, rfl⟩ := h
  rfl

theorem rolledBack (h : p.Version q) : q.rolledBack = p.rolledBack := by
  obtain ⟨_, _, _, rfl⟩ := h
  rfl

/-- **The store takes every version of what it holds.** -/
theorem storable (h : p.Version q) (hlasts : p.Lasts) : q.Storable := by
  have hstorable : p.Storable := ⟨p.updatedAt, p, hlasts.keptPatch⟩
  obtain ⟨_, _, _, rfl⟩ := h
  exact Store.storable_of_eq hstorable rfl rfl rfl

end Version

end Patch

namespace Store

variable {s s' : Store} {p q row : Patch}

/-! ### Stores that are reached -/

/-- The store would keep all its patches as they are. -/
def Lasting (s : Store) : Prop := ∀ p ∈ s.patches, p.Lasts

theorem Lasting.of_map (h : s.Lasting) {c : Patch → Bool} {f : Patch → Patch}
    (hf : ∀ p, p.Lasts → (f p).Lasts) :
    ({ s with patches := s.patches.map fun p => if c p then f p else p } : Store).Lasting := by
  refine List.forall_mem_map.2 fun p hp => ?_
  split
  · exact hf p (h p hp)
  · exact h p hp

theorem Lasting.putPatch (h : s.Lasting) (hput : s.putPatch p = .ok s') : s'.Lasting := by
  obtain ⟨kept, hkept, rfl | ⟨-, rfl⟩⟩ := putPatch_cases hput
  · have hlasts := Patch.lasts_of_kept hkept
    exact h.of_map fun q hq => ⟨⟨hq.created, hlasts.updated, hlasts.applied⟩, hq.index⟩
  · exact List.forall_mem_append.2 ⟨h, List.forall_mem_singleton.2 (Patch.lasts_of_kept hkept)⟩

namespace Operation

/-- **One operation keeps a store lasting.** -/
theorem perform_lasting {o : Operation} (h : s.Lasting) (hperform : o.perform s = .ok s') :
    s'.Lasting := by
  cases o with
  | createIssue i =>
    obtain ⟨kept, -, -, -, rfl⟩ := addIssue_eq hperform
    exact h
  | setIssueStatus id status now =>
    obtain ⟨time, -, rfl⟩ := setIssueStatus_eq hperform
    exact h
  | createPatch p now => exact h.putPatch hperform
  | setValidation id status kind now =>
    obtain ⟨time, htime, hset⟩ := ok_of_bind hperform
    obtain ⟨-, rfl⟩ := updatePatches_eq hset
    exact h.of_map fun p hp => hp.of_eq rfl rfl rfl (keptTime_eq htime).2
  | markApplied id rollback commit backup now =>
    have hmark : s.markUndoable id rollback commit backup now = .ok s' := hperform
    unfold markUndoable at hmark
    split at hmark
    · cases hmark
    · obtain ⟨time, htime, hmark⟩ := ok_of_bind hmark
      obtain ⟨-, rfl⟩ := updatePatches_eq hmark
      have hkept := (keptTime_eq htime).2
      refine h.of_map fun p hp => ⟨⟨hp.created, hkept, fun t ht => ?_⟩, hp.index⟩
      exact Option.some.inj ht ▸ hkept
  | markRolledBack id now =>
    obtain ⟨time, htime, hmark⟩ := ok_of_bind hperform
    obtain ⟨-, rfl⟩ := updatePatches_eq hmark
    exact h.of_map fun p hp => hp.of_eq rfl rfl rfl (keptTime_eq htime).2
  | addResult r =>
    obtain ⟨stamp, rfl⟩ := addResult_eq hperform
    exact h
  | cleanUp age now =>
    obtain ⟨n, hclean⟩ := perform_cleanUp hperform
    obtain ⟨kept, rfl⟩ := cleanUp_eq hclean
    exact fun p hp => h p (List.mem_of_mem_filter hp)

theorem run_lasting (ops : List Operation) : (run ops).Lasting :=
  run_induction (fun _ hp => (List.not_mem_nil hp).elim) (fun _ _ _ => perform_lasting) ops

end Operation

/-! ### Putting a version -/

/-- What is found under another name does not depend on the rows of one. -/
theorem rawPatch?_of_others {id other : String} (hne : other ≠ id)
    (h : s'.patches.filter (·.id != id) = s.patches.filter (·.id != id)) :
    s'.rawPatch? other = s.rawPatch? other := by
  have hfind (t : Store) :
      t.rawPatch? other = (t.patches.filter (·.id != id)).find? (·.id == other) := by
    rw [rawPatch?, List.find?_filter]
    refine List.find?_congr fun q _ => ?_
    by_cases hq : q.id = other
    · simp [hq, hne]
    · simp [hq]
  rw [hfind, hfind, h]

/-- **A version that is put becomes the row**, whichever version that was, but for the time of the
change; no other row is touched. -/
theorem putPatch_version {now : Moment} (hlasts : p.Lasts) (hfound : s.rawPatch? p.id = some row)
    (hrow : p.Version row) (hq : p.Version q)
    (hput : s.putPatch { q with updatedAt := now } = .ok s') :
    s'.rawPatch? p.id = some { q with updatedAt := now.universal } ∧
      s'.issues = s.issues ∧ s'.results = s.results ∧
      s'.patches.filter (·.id != p.id) = s.patches.filter (·.id != p.id) := by
  obtain ⟨-, hplace, hothers⟩ := putPatch_found hput
  obtain ⟨_, _, _, rfl⟩ := hq
  obtain ⟨_, _, _, rfl⟩ := hrow
  refine ⟨?_, hothers⟩
  rcases hplace with ⟨hnone, -⟩ | ⟨old, hold, hmerged⟩
  · cases hfound.symm.trans hnone
  · obtain rfl := Option.some.inj (hfound.symm.trans hold)
    refine hmerged.trans (congrArg some ?_)
    simp only [mergePatch, Patch.universal, hlasts.appliedAt]

end Store

end RepairLoop
