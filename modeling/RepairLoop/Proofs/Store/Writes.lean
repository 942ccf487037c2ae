import Mathlib.Logic.Relation
import RepairLoop.Proofs.Store.Sound
/-!
# Store — rows of writes

`Write named` is all that is ever done to a store in one go, where patches are
put under some names only. A write keeps the keys of a store: no two patches
have one name, and every patch has its issue (`Write.keyed`). Of a patch under
any other name a write keeps that it was rolled back and that it can be read,
and it never makes it pending again (`Write.becomes`). Both then hold of whole
rows of writes.
-/

namespace RepairLoop

/-! ## Patches from one store to another -/

/-- What a patch may become where it is not put anew. -/
structure Patch.Becomes (p q : Patch) : Prop where
  id : q.id = p.id
  rolledBack : p.rolledBack = true → q.rolledBack = true
  rule : p.rule = none → q.rule = none
  pending : q.state = .pending → p.state = .pending

namespace Patch.Becomes

variable {p q r : Patch}

theorem refl (p : Patch) : Becomes p p := ⟨rfl, fun h => h, fun h => h, fun h => h⟩

theorem trans (h : Becomes p q) (h' : Becomes q r) : Becomes p r :=
  ⟨h'.id.trans h.id, fun hp => h'.rolledBack (h.rolledBack hp), fun hp => h'.rule (h.rule hp),
    fun hr => h.pending (h'.pending hr)⟩

/-- What is marked applied can be read, if it is valid. -/
theorem applied {rollback : String} {commit backup : Option String} {time : Moment}
    (hvalid : p.validationStatus = .valid) : Becomes p { p with
      applied := true, appliedAt := some time, rollbackPatch := some rollback
      commitId := commit, backupBranch := backup, updatedAt := time } := by
  refine ⟨rfl, fun h => h, fun _ => ?_, fun hpending => ?_⟩
  · simp [Patch.rule, hvalid]
  · rw [Patch.state] at hpending
    split at hpending <;> cases hpending

/-- What is rolled back is no longer pending, and can be read as before. -/
theorem withdrawn {time : Moment} : Becomes p { p with rolledBack := true, updatedAt := time } :=
  ⟨rfl, fun _ => rfl, fun h => h, fun hpending => by cases hpending⟩

end Patch.Becomes

namespace Store

variable {s s' : Store} {p q : Patch} {id : String} {named : String → Prop}

/-! ## Single writes -/

/-- One change of a store, where patches are put under some names only. -/
inductive Write (named : String → Prop) (s : Store) : Store → Prop
  | addIssue {i : Issue} {s' : Store} (h : s.addIssue i = .ok s') : Write named s s'
  | setIssueStatus {id : String} {status : IssueStatus} {now : Moment} {s' : Store}
    (h : s.setIssueStatus id status now = .ok s') : Write named s s'
  | putPatch {p : Patch} {s' : Store} (hname : named p.id) (h : s.putPatch p = .ok s') :
    Write named s s'
  | addResult {r : ValidationResult} {s' : Store} (h : s.addResult r = .ok s') : Write named s s'
  | markApplied {id rollback : String} {commit backup : Option String} {now : Moment} {s' : Store}
    (h : s.markApplied id rollback commit backup now = .ok s') : Write named s s'
  | markRolledBack {id : String} {now : Moment} {s' : Store}
    (h : s.markRolledBack id now = .ok s') : Write named s s'
  | cleanUp {age : Int} {now : Moment} {n : Nat} {s' : Store}
    (h : s.cleanUp age now = .ok (s', n)) : Write named s s'

theorem Write.mono {named' : String → Prop} (h : Write named s s')
    (hnames : ∀ id, named id → named' id) : Write named' s s' := by
  cases h with
  | addIssue h => exact .addIssue h
  | setIssueStatus h => exact .setIssueStatus h
  | putPatch hname h => exact .putPatch (hnames _ hname) h
  | addResult h => exact .addResult h
  | markApplied h => exact .markApplied h
  | markRolledBack h => exact .markRolledBack h
  | cleanUp h => exact .cleanUp h

/-- What is swept is what old issues leave. -/
theorem cleanUp_eq {age : Int} {now : Moment} {n : Nat} (h : s.cleanUp age now = .ok (s', n)) :
    ∃ kept : Issue → Bool, s' = sweep { s with issues := s.issues.filter kept } := by
  unfold cleanUp at h
  obtain ⟨cutoff, -, h⟩ := ok_of_bind h
  obtain ⟨kept, -, h⟩ := ok_of_bind h
  obtain ⟨rfl, -⟩ := Prod.mk.inj (Except.ok.inj h)
  exact ⟨_, rfl⟩

/-- **What one write makes of patches** under other names. -/
theorem Write.becomes (h : Write named s s') :
    ∀ q ∈ s'.patches, named q.id ∨ ∃ p ∈ s.patches, p.Becomes q := by
  -- a patch that a change leaves as it is, and one that it changes where it stands
  have hsame : s'.patches ⊆ s.patches → ∀ q ∈ s'.patches, named q.id ∨ ∃ p ∈ s.patches, p.Becomes q :=
    fun hsub q hq => .inr ⟨q, hsub hq, .refl q⟩
  have hmap : ∀ {c : Patch → Bool} {f : Patch → Patch},
      s'.patches = s.patches.map (fun p => if c p then f p else p) →
      (∀ p, c p = true → p.Becomes (f p)) →
      ∀ q ∈ s'.patches, named q.id ∨ ∃ p ∈ s.patches, p.Becomes q := by
    intro c f heq hf q hq
    rw [heq] at hq
    obtain ⟨p, hp, rfl⟩ := List.mem_map.1 hq
    refine .inr ⟨p, hp, ?_⟩
    split
    · rename_i hc
      exact hf p hc
    · exact .refl p
  cases h with
  | addIssue h =>
    obtain ⟨_, -, -, -, rfl⟩ := addIssue_eq h
    exact hsame (List.Subset.refl _)
  | setIssueStatus h =>
    obtain ⟨_, -, rfl⟩ := setIssueStatus_eq h
    exact hsame (List.Subset.refl _)
  | @putPatch p _ hname h =>
    obtain ⟨kept, hkept, hput⟩ := putPatch_cases h
    have hid : kept.id = p.id := keptPatch_id hkept
    intro q hq
    rcases hput with rfl | ⟨-, rfl⟩
    · obtain ⟨r, hr, rfl⟩ := List.mem_map.1 hq
      split
      · exact .inl (hid ▸ hname)
      · exact .inr ⟨r, hr, .refl r⟩
    · rcases List.mem_append.1 hq with hq | hq
      · exact .inr ⟨q, hq, .refl q⟩
      · rw [List.mem_singleton.1 hq]
        exact .inl (hid ▸ hname)
  | addResult h =>
    obtain ⟨stamp, rfl⟩ := addResult_eq h
    exact hsame (List.Subset.refl _)
  | markApplied h =>
    obtain ⟨-, time, rfl⟩ := markApplied_eq h
    refine hmap rfl fun p hp => .applied ?_
    simpa using (Bool.and_eq_true_iff.1 hp).2
  | markRolledBack h =>
    obtain ⟨time, rfl⟩ := markRolledBack_eq h
    exact hmap rfl fun p _ => .withdrawn
  | cleanUp h =>
    obtain ⟨kept, rfl⟩ := cleanUp_eq h
    exact hsame (List.filter_subset_self _)

/-! ## Keys -/

/-- No two patches have one name, and every patch has its issue. -/
structure Keyed (s : Store) : Prop where
  names : (s.patches.map Patch.id).Nodup
  owners : ∀ p ∈ s.patches, ∃ i ∈ s.issues, i.id = p.issueId

theorem keyed_empty : empty.Keyed := ⟨List.nodup_nil, fun _ hp => (List.not_mem_nil hp).elim⟩

theorem issue?_isSome_iff : (s.issue? id).isSome = true ↔ ∃ i ∈ s.issues, i.id = id := by
  rw [issue?, List.find?_isSome]
  exact exists_congr fun i => and_congr_right fun _ => beq_iff_eq

/-- A patch that is new in the store has its issue there. -/
theorem putPatch_owner (h : s.putPatch p = .ok s') (hnew : ∀ q ∈ s.patches, q.id ≠ p.id) :
    ∃ i ∈ s.issues, i.id = p.issueId := by
  unfold putPatch at h
  obtain ⟨kept, hkept, h⟩ := ok_of_bind h
  obtain ⟨_, _, _, rfl⟩ := keptPatch_eq hkept
  rw [if_neg (by simp [rawPatch?_eq_none.2 hnew])] at h
  split at h
  · rename_i howner
    exact issue?_isSome_iff.1 howner
  · cases h

namespace Keyed

/-- The rows of patches are changed where they stand. -/
theorem of_map (h : s.Keyed) {c : Patch → Bool} {f : Patch → Patch}
    (hf : ∀ p, c p = true → (f p).id = p.id ∧ (f p).issueId = p.issueId) :
    ({ s with patches := s.patches.map fun p => if c p then f p else p } : Store).Keyed := by
  have hrow : ∀ p, (if c p then f p else p).id = p.id ∧ (if c p then f p else p).issueId = p.issueId := by
    intro p
    split
    · rename_i hc
      exact hf p hc
    · exact ⟨rfl, rfl⟩
  refine ⟨?_, fun p hp => ?_⟩
  · have hnames : (s.patches.map fun p => if c p then f p else p).map Patch.id =
        s.patches.map Patch.id := by
      rw [List.map_map]
      exact List.map_congr_left fun p _ => (hrow p).1
    exact hnames ▸ h.names
  · obtain ⟨q, hq, rfl⟩ := List.mem_map.1 hp
    rw [(hrow q).2]
    exact h.owners q hq

/-- **Two patches of one name are one.** -/
theorem eq_of_id (h : s.Keyed) (hp : p ∈ s.patches) (hq : q ∈ s.patches) (hid : p.id = q.id) :
    p = q := List.inj_on_of_nodup_map h.names hp hq hid

/-- **Every patch is found** under its name. -/
theorem rawPatch? (h : s.Keyed) (hp : p ∈ s.patches) : s.rawPatch? p.id = some p := by
  cases hfound : s.rawPatch? p.id with
  | none => exact (rawPatch?_eq_none.1 hfound p hp rfl).elim
  | some q =>
    obtain ⟨hq, hid⟩ := rawPatch?_eq_some hfound
    rw [h.eq_of_id hq hp hid]

end Keyed

/-- **A write keeps the keys.** -/
theorem Write.keyed (h : Write named s s') (hkeyed : s.Keyed) : s'.Keyed := by
  cases h with
  | addIssue h =>
    obtain ⟨kept, -, -, -, rfl⟩ := addIssue_eq h
    refine ⟨hkeyed.names, fun p hp => ?_⟩
    obtain ⟨i, hi, hid⟩ := hkeyed.owners p hp
    exact ⟨i, List.mem_append_left _ hi, hid⟩
  | setIssueStatus h =>
    obtain ⟨time, -, rfl⟩ := setIssueStatus_eq h
    refine ⟨hkeyed.names, fun p hp => ?_⟩
    obtain ⟨i, hi, hid⟩ := hkeyed.owners p hp
    refine ⟨_, List.mem_map_of_mem hi, ?_⟩
    split <;> exact hid
  | @putPatch p _ hname h =>
    obtain ⟨kept, hkept, hput⟩ := putPatch_cases h
    obtain ⟨_, _, _, rfl⟩ := keptPatch_eq hkept
    rcases hput with rfl | ⟨hnew, rfl⟩
    · exact hkeyed.of_map fun q hq => ⟨(beq_iff_eq.1 hq).symm, rfl⟩
    · have howner : ∃ i ∈ s.issues, i.id = p.issueId := putPatch_owner h hnew
      refine ⟨?_, List.forall_mem_append.2 ⟨hkeyed.owners, List.forall_mem_singleton.2 howner⟩⟩
      rw [List.map_append, List.nodup_append']
      refine ⟨hkeyed.names, List.nodup_singleton _, List.disjoint_singleton.2 fun hmem => ?_⟩
      obtain ⟨q, hq, hid⟩ := List.mem_map.1 hmem
      exact hnew q hq hid
  | addResult h =>
    obtain ⟨stamp, rfl⟩ := addResult_eq h
    exact ⟨hkeyed.names, hkeyed.owners⟩
  | markApplied h =>
    obtain ⟨-, time, rfl⟩ := markApplied_eq h
    exact hkeyed.of_map fun _ _ => ⟨rfl, rfl⟩
  | markRolledBack h =>
    obtain ⟨time, rfl⟩ := markRolledBack_eq h
    exact hkeyed.of_map fun _ _ => ⟨rfl, rfl⟩
  | cleanUp h =>
    obtain ⟨kept, rfl⟩ := cleanUp_eq h
    refine ⟨hkeyed.names.sublist (List.filter_sublist.map _), fun p hp => ?_⟩
    obtain ⟨i, hi, hid⟩ := List.any_eq_true.1 (List.mem_filter.1 hp).2
    exact ⟨i, hi, beq_iff_eq.1 hid⟩

/-! ## Rows of writes -/

/-- Some writes, one after the other. -/
abbrev Writes (named : String → Prop) : Store → Store → Prop := Relation.ReflTransGen (Write named)

theorem Writes.mono {named' : String → Prop} (h : Writes named s s')
    (hnames : ∀ id, named id → named' id) : Writes named' s s' := by
  induction h with
  | refl => exact .refl
  | tail _ hlast ih => exact ih.tail (hlast.mono hnames)

/-- **Any number of writes keeps the keys.** -/
theorem Writes.keyed (h : Writes named s s') (hkeyed : s.Keyed) : s'.Keyed := by
  induction h with
  | refl => exact hkeyed
  | tail _ hlast ih => exact hlast.keyed ih

/-- **What any number of writes makes of patches** under other names. -/
theorem Writes.becomes (h : Writes named s s') :
    ∀ q ∈ s'.patches, named q.id ∨ ∃ p ∈ s.patches, p.Becomes q := by
  induction h with
  | refl => exact fun q hq => .inr ⟨q, hq, .refl q⟩
  | tail _ hlast ih =>
    intro q hq
    rcases hlast.becomes q hq with hname | ⟨p, hp, hpq⟩
    · exact .inl hname
    · rcases ih p hp with hname | ⟨o, ho, hop⟩
      · exact .inl (hpq.id ▸ hname)
      · exact .inr ⟨o, ho, hop.trans hpq⟩

/-! ## Patches that are rolled back -/

/-- The patches of a name are rolled back, and can be read. -/
def Withdrawn (id : String) (s : Store) : Prop :=
  ∀ q ∈ s.patches, q.id = id → q.rolledBack = true ∧ q.rule = none

/-- **A patch that is rolled back stays so** where its name is not used for
another. -/
theorem Writes.withdrawn (h : Writes named s s') (hname : ¬ named id) (hs : s.Withdrawn id) :
    s'.Withdrawn id := by
  intro q hq hid
  rcases h.becomes q hq with hnamed | ⟨p, hp, hpq⟩
  · exact (hname (hid ▸ hnamed)).elim
  · obtain ⟨hrolled, hrule⟩ := hs p hp (hpq.id.symm.trans hid)
    exact ⟨hpq.rolledBack hrolled, hpq.rule hrule⟩

/-- What is read keeps the rule. -/
theorem patch?_rule (h : s.patch? id = .ok (some q)) : q.rule = none := by
  unfold patch? at h
  split at h
  · cases h
  · unfold readPatch at h
    split at h
    · rename_i hrule
      obtain rfl := Option.some.inj (Except.ok.inj h)
      exact hrule
    · cases h

/-- **A patch that is rolled back is read as such.** -/
theorem Withdrawn.read (h : s.Withdrawn id) (hstored : ∃ q ∈ s.patches, q.id = id) :
    ∃ q ∈ s.patches, q.id = id ∧ q.rolledBack = true ∧ s.patch? id = .ok (some q) := by
  cases hraw : s.rawPatch? id with
  | none =>
    obtain ⟨q, hq, hid⟩ := hstored
    exact (rawPatch?_eq_none.1 hraw q hq hid).elim
  | some q =>
    obtain ⟨hq, hid⟩ := rawPatch?_eq_some hraw
    obtain ⟨hrolled, hrule⟩ := h q hq hid
    exact ⟨q, hq, hid, hrolled, patch?_of_raw hraw hrule⟩

end Store

end RepairLoop
