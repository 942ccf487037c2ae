import Mathlib.Tactic.Choose
import RepairLoop.Lifecycle
import RepairLoop.Proofs.Steps
/-!
# Lifecycle — what an action makes of a patch

An action at the present time is an action at some time (`act_of_actNow`),
and `Moves` says what each action may do: in which states it is allowed, and
which fields it writes. Everything else that is known of actions is read off
it: an action leads to its target (`Moves.state`), and one other than an
application and a rollback is only allowed on a patch that is not applied,
leaves it so, and finds it valid only on a result that passes
(`act_unapplied`).
-/

namespace RepairLoop

/-- The state that an action leads to. -/
def PatchAction.target : PatchAction → PatchState
  | .begin => .validating
  | .invalidate _ _ => .invalid
  | .record r allow => if r.passes allow then .valid else .invalid
  | .reject _ => .rejected
  | .apply _ _ _ => .applied
  | .rollBack => .rolledBack

/-- The states from which a state may follow. -/
theorem PatchState.mem_next_iff {s t : PatchState} : t ∈ s.next ↔
    match t with
    | .pending => False
    | .validating => s = .pending
    | .valid => s = .validating
    | .invalid => s = .pending ∨ s = .validating
    | .rejected => s ∈ [pending, validating, valid, invalid]
    | .applied => s = .valid
    | .rolledBack => s = .applied := by
  cases s <;> cases t <;> decide

namespace Patch

/-- A patch that has only been proposed, and perhaps found invalid. -/
structure New (p : Patch) : Prop where
  applied : p.applied = false
  rolledBack : p.rolledBack = false
  status : p.validationStatus = .pending ∨ p.validationStatus = .invalid

/-- **What an action comes to now it comes to at some time.** -/
theorem act_of_actNow {p q : Patch} {a : PatchAction} {s s' : Supply}
    (h : (p.actNow a).run s = (.ok q, s')) :
    ∃ applied touched, p.act a applied touched = .ok q := by
  unfold actNow at h
  split at h
  · cases (Prod.mk.inj h).1
  simp only at h
  -- whichever clock readings come first, the action is performed in the end
  split at h
  all_goals
    obtain ⟨applied, _, -, h⟩ := run_ok_of_bind h
    obtain ⟨touched, _, -, h⟩ := run_ok_of_bind h
    split at h
    · rename_i r hr
      obtain ⟨rfl, -⟩ := run_ok_of_pure h
      exact ⟨applied, touched, hr⟩
    · cases (Prod.mk.inj h).1

/-- **An action that is allowed at all times is allowed now.** -/
theorem actNow_isOk {p : Patch} {a : PatchAction}
    (h : ∀ applied touched, ∃ q, p.act a applied touched = .ok q) (s : Supply) :
    ∃ q s', (p.actNow a).run s = (.ok q, s') := by
  choose act hact using h
  simp only [actNow, hact]
  split
  · exact ⟨_, _, rfl⟩
  · exact ⟨_, _, rfl⟩

/-! ## States -/

theorem state_eq_rolledBack {p : Patch} : p.state = .rolledBack ↔ p.rolledBack = true := by
  unfold state
  cases p.rolledBack
  · cases p.applied
    · cases p.validationStatus <;> simp [PatchState.ofStatus]
    · simp
  · simp

theorem state_eq_applied {p : Patch} :
    p.state = .applied ↔ p.rolledBack = false ∧ p.applied = true := by
  unfold state
  cases p.rolledBack
  · cases p.applied
    · cases p.validationStatus <;> simp [PatchState.ofStatus]
    · simp
  · simp

/-- The other states say that the patch was never applied. -/
theorem state_eq_ofStatus {p : Patch} {status : ValidationStatus} :
    p.state = .ofStatus status ↔
      p.rolledBack = false ∧ p.applied = false ∧ p.validationStatus = status := by
  unfold state
  cases p.rolledBack
  · cases p.applied
    · cases p.validationStatus <;> cases status <;> simp [PatchState.ofStatus]
    · cases status <;> simp [PatchState.ofStatus]
  · cases status <;> simp [PatchState.ofStatus]

/-- The state of a patch that was never applied is that of its validation. -/
theorem state_of_unapplied {p : Patch} (hr : p.rolledBack = false) (ha : p.applied = false) :
    p.state = .ofStatus p.validationStatus :=
  state_eq_ofStatus.2 ⟨hr, ha, rfl⟩

theorem canMove_iff {p : Patch} {target : PatchState} :
    p.canMove target = true ↔ target ∈ p.state.next := by
  rw [canMove, List.contains_iff_mem]

theorem canMove_of_require {p : Patch} {target : PatchState} {u : Unit}
    (h : p.require target = .ok u) : p.canMove target = true := by
  unfold require at h
  split at h
  · assumption
  · cases h

/-! ## What one action does -/

/-- What an action makes of a patch that it is allowed on: the states in
which it is allowed, and the fields that it writes. -/
inductive Moves (p : Patch) : PatchAction → Patch → Prop
  | begin {touched : Moment} (h : p.state = .ofStatus .pending) :
    Moves p .begin { p with
      validationStatus := .validating, errorKind := none, updatedAt := touched }
  | invalidate {kind : ErrorKind} {needsReview : Bool} {touched : Moment}
    (h : p.state = .ofStatus .pending ∨ p.state = .ofStatus .validating) :
    Moves p (.invalidate kind needsReview) { p with
      validationStatus := .invalid, errorKind := some kind, needsReview := needsReview
      updatedAt := touched }
  | pass {r : ValidationResult} {allow : Bool} {touched : Moment} (howner : r.patchId = p.id)
    (hpass : r.passes allow = true) (h : p.state = .ofStatus .validating) :
    Moves p (.record r allow) { p with
      validationStatus := .valid, errorKind := none, updatedAt := touched }
  | fail {r : ValidationResult} {allow : Bool} {touched : Moment} (howner : r.patchId = p.id)
    (hfail : r.passes allow = false)
    (h : p.state = .ofStatus .pending ∨ p.state = .ofStatus .validating) :
    Moves p (.record r allow) { p with
      validationStatus := .invalid, errorKind := some (r.errorKind.getD .securityFailure)
      updatedAt := touched }
  | reject {kind : Option ErrorKind} {touched : Moment}
    (h : p.state ∈ [PatchState.pending, .validating, .valid, .invalid]) :
    Moves p (.reject kind) { p with
      validationStatus := .rejected, errorKind := kind.or p.errorKind, updatedAt := touched }
  | apply {rollback : String} {commit backup : Option String} {applied touched : Moment}
    (hrollback : rollback ≠ "") (h : p.state = .ofStatus .valid) :
    Moves p (.apply rollback commit backup) { p with
      rollbackPatch := some rollback, commitId := commit, backupBranch := backup
      applied := true, appliedAt := some applied, updatedAt := touched }
  | rollBack {touched : Moment} (h : p.state = .applied) :
    Moves p .rollBack { p with rolledBack := true, updatedAt := touched }

/-- **An action that is allowed does what is said of it.** -/
theorem moves_of_act {p q : Patch} {a : PatchAction} {applied touched : Moment}
    (h : p.act a applied touched = .ok q) : Moves p a q := by
  -- each action asks for its move before it does anything
  have hmove : ∀ {target : PatchState} {f : Unit → Except TransitionFault Patch},
      (p.require target >>= f) = .ok q → target ∈ p.state.next ∧ f () = .ok q := by
    intro target f hf
    obtain ⟨u, hu, hf⟩ := ok_of_bind hf
    exact ⟨canMove_iff.1 (canMove_of_require hu), hf⟩
  cases a with
  | begin =>
    obtain ⟨hnext, h⟩ := hmove h
    obtain rfl := Except.ok.inj h
    exact .begin (PatchState.mem_next_iff.1 hnext)
  | invalidate kind review =>
    obtain ⟨hnext, h⟩ := hmove h
    obtain rfl := Except.ok.inj h
    exact .invalidate (PatchState.mem_next_iff.1 hnext)
  | record r allow =>
    simp only [act] at h
    split at h
    · cases h
    · rename_i howner
      have howner : r.patchId = p.id := by simpa using howner
      split at h
      · rename_i hpass
        obtain ⟨hnext, h⟩ := hmove h
        obtain rfl := Except.ok.inj h
        exact .pass howner hpass (PatchState.mem_next_iff.1 hnext)
      · rename_i hfail
        obtain ⟨hnext, h⟩ := hmove h
        obtain rfl := Except.ok.inj h
        exact .fail howner (by simpa using hfail) (PatchState.mem_next_iff.1 hnext)
  | reject kind =>
    obtain ⟨hnext, h⟩ := hmove h
    obtain rfl := Except.ok.inj h
    exact .reject (PatchState.mem_next_iff.1 hnext)
  | apply rollback commit backup =>
    obtain ⟨hnext, h⟩ := hmove h
    split at h
    · cases h
    · rename_i hrollback
      obtain rfl := Except.ok.inj h
      exact .apply (by simpa using hrollback) (PatchState.mem_next_iff.1 hnext)
  | rollBack =>
    obtain ⟨hnext, h⟩ := hmove h
    obtain rfl := Except.ok.inj h
    exact .rollBack (PatchState.mem_next_iff.1 hnext)

/-- The action marks a patch. -/
def Marking : PatchAction → Prop
  | .apply _ _ _ | .rollBack => True
  | _ => False

namespace Moves

variable {p q : Patch} {a : PatchAction}

theorem id (h : Moves p a q) : q.id = p.id := by
  cases h <;> rfl

/-- No move comes out of a state from which none is listed. -/
theorem not_rejected (h : Moves p a q) : p.state ≠ .rejected := by
  cases h <;> grind [PatchState.ofStatus]

theorem not_rolledBack (h : Moves p a q) : p.state ≠ .rolledBack := by
  cases h <;> grind [PatchState.ofStatus]

/-- Only for the rollback is an applied patch moved. -/
theorem unapplied (h : Moves p a q) (ha : a ≠ .rollBack) :
    p.rolledBack = false ∧ p.applied = false := by
  have hstate : ∃ status, p.state = .ofStatus status := by
    cases h with
    | begin h | pass _ _ h | apply _ h => exact ⟨_, h⟩
    | invalidate h | fail _ _ h => exact h.elim (⟨_, ·⟩) (⟨_, ·⟩)
    | reject h =>
      simp only [List.mem_cons, List.not_mem_nil, or_false] at h
      rcases h with h | h | h | h
      · exact ⟨.pending, h⟩
      · exact ⟨.validating, h⟩
      · exact ⟨.valid, h⟩
      · exact ⟨.invalid, h⟩
    | rollBack => exact absurd rfl ha
  obtain ⟨status, hstate⟩ := hstate
  obtain ⟨hr, hna, -⟩ := state_eq_ofStatus.1 hstate
  exact ⟨hr, hna⟩

/-- **An action leads to its target.** -/
theorem state (h : Moves p a q) : q.state = a.target := by
  by_cases ha : a = .rollBack
  · subst ha
    cases h
    exact state_eq_rolledBack.2 rfl
  · obtain ⟨hr, hna⟩ := h.unapplied ha
    cases h with
    | begin | invalidate | reject => exact state_of_unapplied hr hna
    | pass _ hpass =>
      rw [PatchAction.target, if_pos hpass]
      exact state_of_unapplied hr hna
    | fail _ hfail =>
      rw [PatchAction.target, hfail]
      exact state_of_unapplied hr hna
    | apply => exact state_eq_applied.2 ⟨hr, rfl⟩
    | rollBack => exact absurd rfl ha

/-- And it is one of the states that may follow. -/
theorem mem_next (h : Moves p a q) : q.state ∈ p.state.next := by
  rw [h.state, PatchState.mem_next_iff]
  cases h with
  | pass _ hpass h =>
    rw [PatchAction.target, if_pos hpass]
    exact h
  | fail _ hfail h =>
    rw [PatchAction.target, hfail]
    exact h
  | begin h | invalidate h | reject h | apply _ h | rollBack h => exact h

end Moves

/-- **What is neither applied nor rolled back by an action is not applied
after it**, and is valid only by a result of its own that passes. -/
theorem act_unapplied {p q : Patch} {a : PatchAction} {applied touched : Moment}
    (h : p.act a applied touched = .ok q) (ha : ¬ Marking a) :
    q.id = p.id ∧ q.applied = false ∧ (q.validationStatus = .valid →
      ∃ r allow, a = .record r allow ∧ r.passes allow = true ∧ r.patchId = p.id) := by
  have hm := moves_of_act h
  have hna : p.applied = false := (hm.unapplied fun heq => ha (heq ▸ trivial)).2
  cases hm with
  | pass howner hpass => exact ⟨rfl, hna, fun _ => ⟨_, _, rfl, hpass, howner⟩⟩
  | begin | invalidate | fail | reject => exact ⟨rfl, hna, fun hv => by cases hv⟩
  | apply | rollBack => exact absurd trivial ha

/-- What is applied can be undone. -/
theorem rollback_of_apply {p q : Patch} {rollback : String} {commit backup : Option String}
    {applied touched : Moment} (h : p.act (.apply rollback commit backup) applied touched = .ok q) :
    rollback ≠ "" ∧ q.id = p.id := by
  have hm := moves_of_act h
  cases hm with
  | apply hrollback => exact ⟨hrollback, rfl⟩

end Patch

end RepairLoop
