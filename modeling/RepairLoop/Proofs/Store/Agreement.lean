import RepairLoop.Proofs.Lifecycle
import RepairLoop.Proofs.Store.Operations
/-!
# Store — how its marks agree with the moves of a patch

That a patch is applied or rolled back is said twice: by a move of the patch, which asks for
its state, and by a mark in the store, which asks for single fields. Where both are allowed
they come to the same record. But the store allows more (`marks_agree_iff`): it marks a valid
patch as applied again, also one that was rolled back, it takes an empty text for what undoes
a patch, and it marks as rolled back what was rolled back before (`marks_differ`).
-/

namespace RepairLoop

namespace Patch

variable {p q : Patch} {a : PatchAction} {supply : Supply}

/-! ## What a patch allows -/

/-- The action is allowed on the patch. -/
def Allows (p : Patch) (a : PatchAction) (supply : Supply) : Prop :=
  ∃ q supply', (p.actNow a).run supply = (.ok q, supply')

/-- What is allowed at any time is allowed now. -/
theorem allows_of_act {f : Moment → Moment → Patch}
    (h : ∀ applied touched, p.act a applied touched = .ok (f applied touched)) (supply : Supply) :
    p.Allows a supply := by
  unfold Allows
  rw [actNow, h]
  simp only [h]
  cases a <;> exact ⟨_, _, rfl⟩

theorem require_of_next {target : PatchState} (h : target ∈ p.state.next) :
    p.require target = .ok () := by
  rw [require, if_pos (canMove_iff.2 h)]

/-- **A valid patch may be applied** that something undoes. -/
theorem allows_apply_iff {rollback : String} {commit backup : Option String} :
    p.Allows (.apply rollback commit backup) supply ↔ p.state = .valid ∧ rollback ≠ "" := by
  constructor
  · rintro ⟨q, supply', h⟩
    obtain ⟨applied, touched, hact⟩ := act_of_actNow h
    cases moves_of_act hact with
    | apply hrollback hstate => exact ⟨hstate, hrollback⟩
  · rintro ⟨hstate, hrollback⟩
    refine allows_of_act (f := fun applied touched => { p with
      rollbackPatch := some rollback, commitId := commit, backupBranch := backup
      applied := true, appliedAt := some applied, updatedAt := touched })
      (fun applied touched => ?_) supply
    rw [act, require_of_next (PatchState.mem_next_iff.2 hstate)]
    exact if_neg (by simpa using hrollback)

/-- **An applied patch may be rolled back.** -/
theorem allows_rollBack_iff : p.Allows .rollBack supply ↔ p.state = .applied := by
  constructor
  · rintro ⟨q, supply', h⟩
    obtain ⟨applied, touched, hact⟩ := act_of_actNow h
    cases moves_of_act hact with
    | rollBack hstate => exact hstate
  · intro hstate
    refine allows_of_act (f := fun _ touched => { p with rolledBack := true, updatedAt := touched })
      (fun applied touched => ?_) supply
    rw [act, require_of_next (PatchState.mem_next_iff.2 hstate)]
    rfl

/-- Two records say the same of how far a patch has come and of what undoes it. -/
structure Agrees (p q : Patch) : Prop where
  state : p.state = q.state
  rollback : p.rollbackPatch = q.rollbackPatch
  commit : p.commitId = q.commitId
  backup : p.backupBranch = q.backupBranch

end Patch

namespace Store

variable {s s' : Store} {p q : Patch} {now : Moment} {supply supply' : Supply}
variable {rollback : String} {commit backup : Option String}

/-- The store comes of a row of operations on an empty one. -/
def Arises (s : Store) : Prop :=
  ∃ ops w, w.store = .empty ∧ ((Operation.performAll ops).run w).2.store = s

theorem Arises.consistent (h : s.Arises) : s.Consistent := by
  obtain ⟨ops, w, hempty, rfl⟩ := h
  have hleads : Act.Leads (fun w => w.store.Consistent) (Operation.performAll ops)
      (fun _ w => w.store.Consistent) (fun w => w.store.Consistent) :=
    (Operation.performAll_consistent ops).stops fun _ hw => hw.elim
  exact Act.Leads.ends_iff.1 hleads w (hempty ▸ consistent_empty)

/-! ## What the store allows -/

/-- The patch of a name is of a kind if it is so itself. -/
theorem Keyed.of_named (h : s.Keyed) (hp : p ∈ s.patches) {c : Patch → Bool}
    (hsome : ∃ q ∈ s.patches, (q.id == p.id && c q) = true) : c p = true := by
  obtain ⟨q, hq, hkind⟩ := hsome
  rw [Bool.and_eq_true, beq_iff_eq] at hkind
  exact h.eq_of_id hq hp hkind.1 ▸ hkind.2

theorem markApplied_iff (h : s.Consistent) (hp : p ∈ s.patches)
    (hnow : now.toUniversal?.isSome = true) :
    (∃ s', s.markApplied p.id rollback commit backup now = .ok s') ↔ p.validationStatus = .valid := by
  refine ⟨fun ⟨s', hmark⟩ => ?_, fun hvalid => markApplied_isOk hp hvalid hnow⟩
  simpa using h.of_named hp (markApplied_eq hmark).1

theorem markRolledBack_iff (h : s.Consistent) (hp : p ∈ s.patches)
    (hnow : now.toUniversal?.isSome = true) :
    (∃ s', s.markRolledBack p.id now = .ok s') ↔ p.applied = true := by
  refine ⟨fun ⟨s', hmark⟩ => ?_, fun happlied => markRolledBack_isOk hp happlied hnow⟩
  exact h.of_named hp (markRolledBack_some hmark)

/-! ## Where both are allowed -/

/-- A patch that was changed where it stands is read as it was changed. -/
theorem Consistent.read_changed {c : Patch → Bool} {f : Patch → Patch}
    (hends : ({ s with patches := s.patches.map fun q => if c q then f q else q } : Store).Consistent)
    (hp : p ∈ s.patches) (hc : c p = true) (hid : (f p).id = p.id) :
    ({ s with patches := s.patches.map fun q => if c q then f q else q } : Store).patch? p.id =
      .ok (some (f p)) := by
  have hmem : f p ∈ s.patches.map fun q => if c q then f q else q :=
    List.mem_map.2 ⟨p, hp, if_pos hc⟩
  exact hid ▸ hends.read hmem

/-- **A mark and a move that are both made come to the same record.** -/
theorem markApplied_agrees (h : s.Consistent) (hp : p ∈ s.patches)
    (hmark : s.markApplied p.id rollback commit backup now = .ok s')
    (hact : (p.actNow (.apply rollback commit backup)).run supply = (.ok q, supply')) :
    ∃ p', s'.patch? p.id = .ok (some p') ∧ p'.Agrees q := by
  have hundoable : s.markUndoable p.id (some rollback) commit backup now = .ok s' := hmark
  have hends : s'.Consistent := h.markUndoable hundoable
  obtain ⟨applied, touched, hact⟩ := Patch.act_of_actNow hact
  obtain ⟨hsome, time, rfl⟩ := markApplied_eq hmark
  have hvalid : (p.validationStatus == .valid) = true := h.of_named hp hsome
  refine ⟨_, hends.read_changed hp (by rw [beq_self_eq_true, hvalid]; rfl) rfl, ?_⟩
  cases Patch.moves_of_act hact with
  | apply _ _ => exact ⟨rfl, rfl, rfl, rfl⟩

theorem markRolledBack_agrees (h : s.Consistent) (hp : p ∈ s.patches)
    (hmark : s.markRolledBack p.id now = .ok s')
    (hact : (p.actNow .rollBack).run supply = (.ok q, supply')) :
    ∃ p', s'.patch? p.id = .ok (some p') ∧ p'.Agrees q := by
  have hends : s'.Consistent := h.markRolledBack hmark
  have happlied : p.applied = true := h.of_named hp (markRolledBack_some hmark)
  obtain ⟨applied, touched, hact⟩ := Patch.act_of_actNow hact
  obtain ⟨time, rfl⟩ := markRolledBack_eq hmark
  refine ⟨_, hends.read_changed hp (by rw [beq_self_eq_true, happlied]; rfl) rfl, ?_⟩
  cases Patch.moves_of_act hact with
  | rollBack _ => exact ⟨rfl, rfl, rfl, rfl⟩

/-! ## Where they differ -/

/-- **Marks and moves agree but where the store allows more.** Of a patch in a store that comes
of a row of operations, the mark that it is applied is made exactly where the move is, unless
the patch is valid and was applied before or the text of what undoes it is empty; and the mark
that it is rolled back exactly where the move is, unless it was rolled back before. Where both
are made they come to the same record. -/
theorem marks_agree_iff (hs : s.Arises) (hp : p ∈ s.patches)
    (hrolled : p.rolledBack = true → p.applied = true) (hnow : now.toUniversal?.isSome = true)
    (rollback : String) (commit backup : Option String) (supply : Supply) :
    s.patch? p.id = .ok (some p) ∧
    (((∃ s', s.markApplied p.id rollback commit backup now = .ok s') ↔
        p.Allows (.apply rollback commit backup) supply) ↔
      ¬ (p.validationStatus = .valid ∧ (p.applied = true ∨ rollback = ""))) ∧
    (((∃ s', s.markRolledBack p.id now = .ok s') ↔ p.Allows .rollBack supply) ↔
      ¬ p.rolledBack = true) ∧
    (∀ s' q supply', s.markApplied p.id rollback commit backup now = .ok s' →
      (p.actNow (.apply rollback commit backup)).run supply = (.ok q, supply') →
      ∃ p', s'.patch? p.id = .ok (some p') ∧ p'.Agrees q) ∧
    ∀ s' q supply', s.markRolledBack p.id now = .ok s' →
      (p.actNow .rollBack).run supply = (.ok q, supply') →
      ∃ p', s'.patch? p.id = .ok (some p') ∧ p'.Agrees q := by
  have h := hs.consistent
  refine ⟨h.read hp, ?_, ?_, fun _ _ _ => markApplied_agrees h hp,
    fun _ _ _ => markRolledBack_agrees h hp⟩
  · have hstate : p.state = .valid ↔ ¬ p.applied = true ∧ p.validationStatus = .valid := by
      have hstatus : p.state = .valid ↔
          p.rolledBack = false ∧ p.applied = false ∧ p.validationStatus = .valid :=
        @Patch.state_eq_ofStatus p .valid
      rw [hstatus]
      constructor
      · rintro ⟨-, hunapplied, hvalid⟩
        exact ⟨by simp [hunapplied], hvalid⟩
      · rintro ⟨hunapplied, hvalid⟩
        have hkept : ¬ p.rolledBack = true := fun hback => hunapplied (hrolled hback)
        exact ⟨by simpa using hkept, by simpa using hunapplied, hvalid⟩
    rw [markApplied_iff h hp hnow, Patch.allows_apply_iff, hstate]
    tauto
  · rw [markRolledBack_iff h hp hnow, Patch.allows_rollBack_iff, Patch.state_eq_applied]
    cases hback : p.rolledBack with
    | false => simp
    | true => simp [hrolled hback]

/-! ### On the way of one patch -/

/-- The store behind the first operations on the way of a patch. -/
def behind (n : Nat) : Store := ((Operation.performAll (Operation.course.take n)).run default).2.store

theorem behind_arises (n : Nat) : (behind n).Arises := ⟨Operation.course.take n, default, rfl, rfl⟩

theorem default_dated : (default : Moment).toUniversal?.isSome = true := rfl

/-- The patch is valid behind five of them. -/
theorem behind_valid : ∃ p ∈ (behind 5).patches,
    p.validationStatus = .valid ∧ p.applied = false ∧ p.rolledBack = false := by
  have hany : ((behind 5).patches.any fun p =>
      p.validationStatus == .valid && p.applied == false && p.rolledBack == false) = true := rfl
  obtain ⟨p, hp, hkind⟩ := List.any_eq_true.1 hany
  exact ⟨p, hp, by simpa [and_assoc] using hkind⟩

/-- And applied and rolled back behind all of them. -/
theorem behind_withdrawn : ∃ p ∈ (behind 9).patches, p.applied = true ∧ p.rolledBack = true := by
  have hany : ((behind 9).patches.any fun p => p.applied && p.rolledBack) = true := rfl
  obtain ⟨p, hp, hkind⟩ := List.any_eq_true.1 hany
  exact ⟨p, hp, by simpa using hkind⟩

/-- Mark and move agree on the valid patch, where there is a text that undoes it. -/
theorem marks_agree_valid : ∃ p ∈ (behind 5).patches,
    ((∃ s', (behind 5).markApplied p.id "undo" none none default = .ok s') ↔
      p.Allows (.apply "undo" none none) default) ∧
    ((∃ s', (behind 5).markRolledBack p.id default = .ok s') ↔ p.Allows .rollBack default) := by
  obtain ⟨p, hp, -, hunapplied, hkept⟩ := behind_valid
  have hrolled : p.rolledBack = true → p.applied = true := by simp [hkept]
  obtain ⟨-, happlied, hback, -⟩ :=
    marks_agree_iff (behind_arises 5) hp hrolled default_dated "undo" none none default
  exact ⟨p, hp, happlied.2 (by simp [hunapplied]), hback.2 (by simp [hkept])⟩

/-- **The store marks what may not be moved**: a valid patch with an empty text for what undoes
it, a patch that was applied and rolled back as applied again, and the same as rolled back
again. -/
theorem marks_differ :
    ((behind 5).Arises ∧ ∃ p ∈ (behind 5).patches, p.rolledBack = false ∧
      (∃ s', (behind 5).markApplied p.id "" none none default = .ok s') ∧
      ∀ supply, ¬ p.Allows (.apply "" none none) supply) ∧
    (behind 9).Arises ∧ ∃ p ∈ (behind 9).patches, p.rolledBack = true ∧ p.applied = true ∧
      ((∃ s', (behind 9).markApplied p.id "undo" none none default = .ok s') ∧
        ∀ supply, ¬ p.Allows (.apply "undo" none none) supply) ∧
      (∃ s', (behind 9).markRolledBack p.id default = .ok s') ∧
        ∀ supply, ¬ p.Allows .rollBack supply := by
  refine ⟨⟨behind_arises 5, ?_⟩, behind_arises 9, ?_⟩
  · obtain ⟨p, hp, hvalid, -, hkept⟩ := behind_valid
    refine ⟨p, hp, hkept, markApplied_isOk hp hvalid default_dated, fun supply hallows => ?_⟩
    exact (Patch.allows_apply_iff.1 hallows).2 rfl
  · obtain ⟨p, hp, happlied, hback⟩ := behind_withdrawn
    have hvalid := ((behind_arises 9).consistent.applied hp happlied).1
    have hstate : p.state = .rolledBack := Patch.state_eq_rolledBack.2 hback
    refine ⟨p, hp, hback, happlied, ⟨markApplied_isOk hp hvalid default_dated, fun supply hallows => ?_⟩,
      markRolledBack_isOk hp happlied default_dated, fun supply hallows => ?_⟩
    · have happly := (Patch.allows_apply_iff.1 hallows).1
      rw [hstate] at happly
      cases happly
    · have happly := Patch.allows_rollBack_iff.1 hallows
      rw [hstate] at happly
      cases happly

end Store

end RepairLoop
