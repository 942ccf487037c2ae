import RepairLoop.Proofs.Store.Writes
import RepairLoop.Proofs.World.Obeys
/-!
# Store — whatever is done in a row

All that writes to a store is an `Operation`. Each is taken or refused; what is refused
leaves the store alone. A store is consistent if every patch has its issue, every result
its patch, and every patch can be read (`Store.Consistent`). One operation keeps it so
(`Operation.perform_consistent`), hence any row of them does (`performAll_consistent`),
whichever of them are refused.
-/

namespace RepairLoop

open Act (Leads)

namespace Store

variable {s s' : Store} {p q : Patch} {id : String}

/-! ## Consistent stores -/

/-- Whatever is stored belongs to something that is stored, and every patch can be read. -/
structure Consistent (s : Store) : Prop extends s.Keyed where
  results : ∀ r ∈ s.results, ∃ p ∈ s.patches, p.id = r.result.patchId
  rules : ∀ p ∈ s.patches, p.rule = none

theorem consistent_empty : empty.Consistent :=
  ⟨keyed_empty, fun _ hr => (List.not_mem_nil hr).elim, fun _ hp => (List.not_mem_nil hp).elim⟩

namespace Consistent

/-- An applied patch is valid, and it is known what undoes it. -/
theorem applied (h : s.Consistent) (hp : p ∈ s.patches) (happlied : p.applied = true) :
    p.validationStatus = .valid ∧ p.rollbackPatch.isSome = true := by
  have hrule := h.rules p hp
  rw [Patch.rule, if_pos happlied] at hrule
  split at hrule
  · cases hrule
  · rename_i hvalid
    split at hrule
    · cases hrule
    · rename_i hundone
      refine ⟨by simpa using hvalid, ?_⟩
      rwa [Option.isNone_iff_eq_none, ← ne_eq, ← Option.isSome_iff_ne_none] at hundone

/-- **Every patch that is stored is read** under its name. -/
theorem read (h : s.Consistent) (hp : p ∈ s.patches) : s.patch? p.id = .ok (some p) :=
  patch?_of_raw (h.toKeyed.rawPatch? hp) (h.rules p hp)

/-- Other issues: each patch must find its own again. -/
theorem of_issues (h : s.Consistent) {issues : List Issue}
    (hkeeps : ∀ i ∈ s.issues, ∃ j ∈ issues, j.id = i.id) :
    ({ s with issues := issues } : Store).Consistent := by
  refine ⟨⟨h.names, fun p hp => ?_⟩, h.results, h.rules⟩
  obtain ⟨i, hi, hid⟩ := h.owners p hp
  obtain ⟨j, hj, hsame⟩ := hkeeps i hi
  exact ⟨j, hj, hsame.trans hid⟩

/-- **Patches that are changed where they stand** keep their names and issues, and can be
read as before. -/
theorem of_map (h : s.Consistent) {c : Patch → Bool} {f : Patch → Patch}
    (hf : ∀ p ∈ s.patches, c p = true →
      (f p).id = p.id ∧ (f p).issueId = p.issueId ∧ (f p).rule = none) :
    ({ s with patches := s.patches.map fun p => if c p then f p else p } : Store).Consistent := by
  have hrow : ∀ p ∈ s.patches, (if c p then f p else p).id = p.id ∧
      (if c p then f p else p).issueId = p.issueId ∧ (if c p then f p else p).rule = none := by
    intro p hp
    split
    · rename_i hc
      exact hf p hp hc
    · exact ⟨rfl, rfl, h.rules p hp⟩
  have hnames : (s.patches.map fun p => if c p then f p else p).map Patch.id =
      s.patches.map Patch.id := by
    rw [List.map_map]
    exact List.map_congr_left fun p hp => (hrow p hp).1
  refine ⟨⟨hnames ▸ h.names, fun p hp => ?_⟩, fun r hr => ?_, fun p hp => ?_⟩
  · obtain ⟨q, hq, rfl⟩ := List.mem_map.1 hp
    obtain ⟨-, hissue, -⟩ := hrow q hq
    exact hissue ▸ h.owners q hq
  · obtain ⟨q, hq, hid⟩ := h.results r hr
    exact ⟨_, List.mem_map_of_mem hq, (hrow q hq).1.trans hid⟩
  · obtain ⟨q, hq, rfl⟩ := List.mem_map.1 hp
    exact (hrow q hq).2.2

/-! ### One change -/

theorem addIssue (h : s.Consistent) {i : Issue} (hadd : s.addIssue i = .ok s') :
    s'.Consistent := by
  obtain ⟨kept, -, -, -, rfl⟩ := addIssue_eq hadd
  exact h.of_issues fun j hj => ⟨j, List.mem_append_left _ hj, rfl⟩

theorem setIssueStatus (h : s.Consistent) {status : IssueStatus} {now : Moment}
    (hset : s.setIssueStatus id status now = .ok s') : s'.Consistent := by
  obtain ⟨time, -, rfl⟩ := setIssueStatus_eq hset
  refine h.of_issues fun i hi => ⟨_, List.mem_map_of_mem hi, ?_⟩
  split <;> rfl

/-- What is put must be readable itself; it belongs to an issue, whether it is new or takes
the place of another. -/
theorem putPatch (h : s.Consistent) (hrule : p.rule = none) (hput : s.putPatch p = .ok s') :
    s'.Consistent := by
  have hwrite : Write (fun _ => True) s s' := .putPatch trivial hput
  obtain ⟨kept, hkept, hcases⟩ := putPatch_cases hput
  obtain ⟨_, _, _, rfl⟩ := keptPatch_eq hkept
  rcases hcases with rfl | ⟨hnew, rfl⟩
  · exact h.of_map fun q _ hname => ⟨(beq_iff_eq.1 hname).symm, rfl, hrule⟩
  · refine ⟨hwrite.keyed h.toKeyed, fun r hr => ?_,
      List.forall_mem_append.2 ⟨h.rules, List.forall_mem_singleton.2 hrule⟩⟩
    obtain ⟨q, hq, hid⟩ := h.results r hr
    exact ⟨q, List.mem_append_left _ hq, hid⟩

/-- Only what is not applied has its status set, and that can be read in any status. -/
theorem setValidation (h : s.Consistent) {status : ValidationStatus} {kind : Option ErrorKind}
    {now : Moment} (hset : s.setValidation id status kind now = .ok s') : s'.Consistent := by
  obtain ⟨time, rfl⟩ := setValidation_eq hset
  refine h.of_map fun q _ hkind => ⟨rfl, rfl, ?_⟩
  have hunapplied : q.applied = false := by
    simpa using (Bool.and_eq_true_iff.1 hkind).2
  simp [Patch.rule, hunapplied]

/-- Only what is valid is marked applied. -/
theorem markUndoable (h : s.Consistent) {rollback commit backup : Option String} {now : Moment}
    (hmark : s.markUndoable id rollback commit backup now = .ok s') : s'.Consistent := by
  unfold Store.markUndoable at hmark
  split at hmark
  · cases hmark
  · obtain ⟨-, time, rfl⟩ := markApplied_eq hmark
    refine h.of_map fun q _ hkind => ⟨rfl, rfl, ?_⟩
    have hvalid : q.validationStatus = .valid := by
      simpa using (Bool.and_eq_true_iff.1 hkind).2
    simp [Patch.rule, hvalid]

theorem markRolledBack (h : s.Consistent) {now : Moment}
    (hmark : s.markRolledBack id now = .ok s') : s'.Consistent := by
  obtain ⟨time, rfl⟩ := markRolledBack_eq hmark
  exact h.of_map fun q hq _ => ⟨rfl, rfl, h.rules q hq⟩

theorem addResult (h : s.Consistent) {r : ValidationResult} (hadd : s.addResult r = .ok s') :
    s'.Consistent := by
  have howner := addResult_owner hadd
  obtain ⟨stamp, rfl⟩ := addResult_eq hadd
  obtain ⟨q, hq⟩ := Option.isSome_iff_exists.1 howner
  obtain ⟨hmem, hid⟩ := rawPatch?_eq_some hq
  exact ⟨⟨h.names, h.owners⟩, List.forall_mem_append.2 ⟨h.results, List.forall_mem_singleton.2 ⟨q, hmem, hid⟩⟩,
    h.rules⟩

/-- What is swept away takes all with it that belongs to it. -/
theorem cleanUp (h : s.Consistent) {age : Int} {now : Moment} {n : Nat}
    (hclean : s.cleanUp age now = .ok (s', n)) : s'.Consistent := by
  have hwrite : Write (fun _ => True) s s' := .cleanUp hclean
  obtain ⟨kept, rfl⟩ := cleanUp_eq hclean
  refine ⟨hwrite.keyed h.toKeyed, fun r hr => ?_, fun p hp => h.rules p (List.mem_of_mem_filter hp)⟩
  obtain ⟨q, hq, hid⟩ := List.any_eq_true.1 (List.mem_filter.1 hr).2
  exact ⟨q, hq, beq_iff_eq.1 hid⟩

end Consistent

/-! ## Operations -/

/-- All that writes to a store. A patch that is put was checked before. -/
inductive Operation where
  | createIssue (i : Issue)
  | setIssueStatus (id : String) (status : IssueStatus) (now : Moment)
  | createPatch (p : { p : Patch // p.rule = none }) (now : Moment)
  | setValidation (id : String) (status : ValidationStatus) (kind : Option ErrorKind) (now : Moment)
  | markApplied (id : String) (rollback commit backup : Option String) (now : Moment)
  | markRolledBack (id : String) (now : Moment)
  | addResult (r : ValidationResult)
  | cleanUp (age : Int) (now : Moment)

namespace Operation

/-- What the operation makes of a store, unless it is refused. -/
def perform : Operation → Store → Except StoreFault Store
  | createIssue i, s => s.addIssue i
  | setIssueStatus id status now, s => s.setIssueStatus id status now
  | createPatch p now, s => s.putPatch { p.1 with updatedAt := now }
  | setValidation id status kind now, s => s.setValidation id status kind now
  | markApplied id rollback commit backup now, s => s.markUndoable id rollback commit backup now
  | markRolledBack id now, s => s.markRolledBack id now
  | addResult r, s => s.addResult r
  | cleanUp age now, s => (s.cleanUp age now).map Prod.fst

/-- The operation on the store that is open. -/
def act (o : Operation) : Act Unit := Act.storing o.perform

/-- What is left of a store that is swept. -/
theorem perform_cleanUp {age : Int} {now : Moment}
    (h : (cleanUp age now).perform s = .ok s') : ∃ n, s.cleanUp age now = .ok (s', n) := by
  rw [perform] at h
  cases hclean : s.cleanUp age now with
  | error e =>
    rw [hclean] at h
    cases h
  | ok swept =>
    rw [hclean] at h
    obtain rfl := Except.ok.inj h
    exact ⟨swept.2, rfl⟩

/-- **One operation keeps a store consistent.** -/
theorem perform_consistent {o : Operation} (h : s.Consistent) (hperform : o.perform s = .ok s') :
    s'.Consistent := by
  cases o with
  | createIssue i => exact h.addIssue hperform
  | setIssueStatus id status now => exact h.setIssueStatus hperform
  | createPatch p now => exact h.putPatch (p := { p.1 with updatedAt := now }) p.2 hperform
  | setValidation id status kind now => exact h.setValidation hperform
  | markApplied id rollback commit backup now => exact h.markUndoable hperform
  | markRolledBack id now => exact h.markRolledBack hperform
  | addResult r => exact h.addResult hperform
  | cleanUp age now =>
    obtain ⟨n, hclean⟩ := perform_cleanUp hperform
    exact h.cleanUp hclean

/-- Operations one after the other; those that are refused are passed over. -/
def performAll : List Operation → Act Unit
  | [] => pure ()
  | o :: rest => do
    let _ ← Act.attempt o.act
    performAll rest

/-- What is refused leaves the store alone. -/
theorem act_refused {o : Operation} {f : Fault} {v v' : World}
    (hrun : o.act.run v = (.error f, v')) : v'.store = v.store := by
  rw [act, Act.storing_run] at hrun
  split at hrun
  · cases (Prod.mk.inj hrun).1
  · rw [(Prod.mk.inj hrun).2]

/-- **Any row of operations keeps the store consistent**, whichever of them are refused. -/
theorem performAll_consistent (ops : List Operation) :
    Leads (fun w => w.store.Consistent) (performAll ops) (fun _ w => w.store.Consistent)
      (fun _ => False) := by
  induction ops with
  | nil => exact .pure fun _ hw => hw
  | cons o rest ih =>
    have hact : Leads (fun w => w.store.Consistent) o.act (fun _ w => w.store.Consistent)
        (fun w => w.store.Consistent) :=
      .storing (fun _ _ hw hperform => perform_consistent hw hperform) fun _ hw => hw
    refine hact.attempt.bind fun r => ?_
    cases r with
    | ok _ => exact ih
    | error _ => exact ih

/-- **The store holds together over every row of operations.** From an empty store any row of
operations, whichever of them are refused, leads to one in which every patch has its issue and
every result its patch, every applied patch is valid and can be undone, and every patch that is
stored is read under its name. An operation that is refused there leaves everything as it was. -/
theorem performAll_holds (ops : List Operation) {w : World} (hempty : w.store = .empty) :
    ∃ v, (performAll ops).run w = (.ok (), v) ∧
      (∀ p ∈ v.store.patches, ∃ i ∈ v.store.issues, i.id = p.issueId) ∧
      (∀ r ∈ v.store.results, ∃ p ∈ v.store.patches, p.id = r.result.patchId) ∧
      (∀ p ∈ v.store.patches, p.applied = true →
        p.validationStatus = .valid ∧ p.rollbackPatch.isSome = true) ∧
      (∀ p ∈ v.store.patches, v.store.patch? p.id = .ok (some p)) ∧
      ∀ (o : Operation) f v', o.act.run v = (.error f, v') → v'.store = v.store := by
  have hstart : w.store.Consistent := hempty ▸ consistent_empty
  have hleads := performAll_consistent ops
  cases hrun : (performAll ops).run w with
  | mk result v =>
    cases result with
    | error f => exact (hleads.of_stop hstart hrun).elim
    | ok _ =>
      have hends : v.store.Consistent := hleads.of_run hstart hrun
      exact ⟨v, rfl, hends.owners, hends.results, fun p hp => hends.applied hp,
        fun p hp => hends.read hp, fun o f v' => act_refused⟩

/-- A patch on its way to a rollback. Three of the operations are refused: the patch has no
issue yet, it is not valid yet, and nothing is said of what undoes it. -/
def course : List Operation :=
  let p : Patch := { (default : Patch) with id := "patch-1", issueId := "issue-1" }
  [.createPatch ⟨p, rfl⟩ default,
    .createIssue { (default : Issue) with id := "issue-1" },
    .createPatch ⟨p, rfl⟩ default,
    .markApplied "patch-1" (some "undo") none none default,
    .setValidation "patch-1" .valid none default,
    .markApplied "patch-1" none none none default,
    .markApplied "patch-1" (some "undo") none none default,
    .addResult { (default : ValidationResult) with patchId := "patch-1" },
    .markRolledBack "patch-1" default]

/-- The patch is rolled back in the end, and it is read as it is stored. -/
theorem performAll_holds_course : ∃ v p, (performAll course).run default = (.ok (), v) ∧
    v.store.patches = [p] ∧ p.applied = true ∧ p.rolledBack = true ∧
    p.rollbackPatch.isSome = true ∧ v.store.patch? p.id = .ok (some p) ∧
    v.store.results.length = 1 := by
  obtain ⟨v, hrun, -, -, happlied, hread, -⟩ := performAll_holds course (w := default) rfl
  have hends : ((performAll course).run default).2.store.patches.map
        (fun p => (p.applied, p.rolledBack)) = [(true, true)] ∧
      ((performAll course).run default).2.store.results.length = 1 := ⟨rfl, rfl⟩
  rw [hrun] at hends
  obtain ⟨p, hone, hmarks⟩ := List.map_eq_singleton_iff.1 hends.1
  have hp : p ∈ v.store.patches := hone ▸ List.mem_singleton.2 rfl
  obtain ⟨hdone, hundone⟩ := Prod.mk.inj hmarks
  exact ⟨v, p, hrun, hone, hdone, hundone, (happlied p hp hdone).2, hread p hp, hends.2⟩

end Operation

end Store

end RepairLoop
