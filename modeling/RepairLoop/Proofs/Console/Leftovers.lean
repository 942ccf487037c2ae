import RepairLoop.Proofs.Console.Withdrawal
import RepairLoop.Proofs.Repository.Mild
/-!
# Console — what a refused rollback leaves in the files

A rollback applies what undoes the patch before it commits it. Where it raises behind
that, nothing takes the change of the files back: they hold what they held exactly if the
diff was not applied, or changed nothing (`rollBack_contents_iff`).
-/

namespace RepairLoop

open Act (Keeps Leads)
open World (Intact Fixed)
open FileTree (SameContents)
open Repository (Rewriting)

namespace Session

/-- Applies what undoes a patch, behind a backup. -/
def applyRollback (r : Repository) (p : Patch) : Act Unit :=
  r.applyDiff (p.rollbackPatch.getD "") true true

variable {r : Repository} {p : Patch} {w w' : World} {f : Fault}

/-- **What was applied stays in the files**, whether it is committed or not. -/
theorem commitRollback_intact (hmild : w.outside.Mild) :
    Intact ((applyRollback r p).run w).2 ((commitRollback r p).run w).2 := by
  have happ : ((applyRollback r p).run w).2.outside = w.outside :=
    (r.applyDiff_apart (p.rollbackPatch.getD "") true true w).1.outside
  have hmild' : ((applyRollback r p).run w).2.outside.Mild := happ.symm ▸ hmild
  exact Repository.intact_of_bind hmild'.steady fun _ =>
    (Repository.commit_fixed _ _ _).bind fun _ => .pure trivial

/-- A reset to a backup that is stopped leaves the files alone. -/
theorem resetToBackup_intact (hmild : w.outside.Mild) (backup : String) :
    Leads (Intact w) (resetToBackup r p backup) (fun _ _ => True) (Intact w) := by
  have hlog : Keeps Fixed (r.run ["log", "--oneline", backup ++ "..HEAD"]) :=
    Repository.run_fixed (by simp [Rewriting])
  have hbackUp : Keeps Fixed (r.backUp none) := Repository.backUp_fixed none
  have hreset : Leads (Intact w) (r.resetTo backup true) (fun _ _ => True) (Intact w) :=
    (Repository.leads_intact hmild.steady hbackUp).bind fun _ =>
      (Repository.run_intact hmild _).bind fun _ => .pure fun _ _ => trivial
  refine (Repository.leads_intact hmild.steady hlog).bind fun out => ?_
  simp only
  split
  · exact .throw_bind fun _ hv => hv
  · exact hreset

/-- **An undo that is stopped leaves the files as the applied diff has left them.** -/
theorem undo_stopped (hmild : w.outside.Mild) (hrun : (undo r p).run w = (.error f, w')) :
    w'.files = ((applyRollback r p).run w).2.files := by
  have hcommit : Intact ((applyRollback r p).run w).2 ((commitRollback r p).run w).2 :=
    commitRollback_intact hmild
  have houtside : ((commitRollback r p).run w).2.outside = w.outside :=
    (commitRollback_keeps r.bears_apart w).1.outside
  rw [undo, run_bind_of_ok (Act.attempt_run _ w)] at hrun
  generalize (commitRollback r p).run w = undone at hrun hcommit houtside
  obtain ⟨done, v⟩ := undone
  cases done with
  | ok _ => cases (Prod.mk.inj hrun).1
  | error e =>
    have hthrown : ∀ u, (throw e : Act RollbackMethod).run v = (.error f, u) →
        u.files = ((applyRollback r p).run w).2.files := by
      rintro u hu
      rw [← (Prod.mk.inj hu).2]
      exact hcommit.files
    simp only at hrun
    split at hrun
    · rename_i backup _
      split at hrun
      · have hmild' : v.outside.Mild := houtside.symm ▸ hmild
        have hreset := (resetToBackup_intact (r := r) (p := p) hmild' backup).bind
          fun _ => .pure (a := RollbackMethod.backup) (Q := fun _ _ => True) fun _ _ => trivial
        exact (hreset.of_stop (refl_of Intact v) hrun).files.trans hcommit.files
      · exact hthrown w' hrun
    · exact hthrown w' hrun

/-- **A refused rollback leaves every content as it was exactly if what undoes the patch
was not applied**, or changed none. Where it was applied and the rollback raises behind
that, because git does not stage or commit it, and does not reset to the backup, or has no
backup or too many commits above it, nothing takes it back.

Git is mild, nothing stands below a file, the keys of the store are those of its tables,
and the clock does not run backwards or out of the calendar. -/
theorem rollBack_contents_iff (s : Session) (id : String) (hkeyed : w.store.Keyed)
    (htick : 0 ≤ w.supply.tick) (hfirst : w.supply.now.toUniversal?.isSome = true)
    (hlast : w'.supply.now.toUniversal?.isSome = true) (hmild : w.outside.Mild)
    (hgrounded : w.files.Grounded) (hrun : (s.rollBack id).run w = (.error f, w')) :
    SameContents w.files w'.files ↔
      ∀ p v, w.store.patch? id = .ok (some p) → p.canMove .rolledBack = true →
        (applyRollback s.repository p).run w = (.ok (), v) → SameContents w.files v.files := by
  have hrefused : Refused s id w w' := (rollBack_refuses s id hkeyed htick hfirst).of_stop rfl hrun
    (Option.isSome_iff_ne_none.1 hlast)
  rcases hrefused with ⟨rfl, hnone⟩ | ⟨p, e, hfound, hmove, hundo⟩
  · -- there is no patch to undo, so both sides hold
    constructor
    · intro _ p v hp hmove
      rw [hnone p hp] at hmove
      cases hmove
    · exact fun _ => .refl _
  · -- the files are those behind the diff, whatever came after it
    have hfiles : w'.files = ((applyRollback s.repository p).run w).2.files :=
      undo_stopped hmild hundo
    constructor
    · intro hsame q v hq _ happlied
      obtain rfl : p = q := Option.some.inj (Except.ok.inj (hfound.symm.trans hq))
      rw [happlied] at hfiles
      exact hfiles ▸ hsame
    · intro hchanged
      rw [hfiles]
      cases happlied : (applyRollback s.repository p).run w with
      | mk result v =>
        cases result with
        | ok _ => exact hchanged p v hfound hmove happlied
        | error _ =>
          exact (Repository.applyDiff_contents hmild hgrounded _ true true).of_stop rfl happlied

end Session

/-! ## A rollback that can be neither committed nor reset -/

namespace Small

/-- A git that commits nothing and lists two commits above every backup, with its answer to
a diff that is applied. -/
def firm (applied : GitReply) (calls : List GitCall) : GitReply :=
  match (calls.getLast?.map GitCall.arguments).getD [] with
  | "apply" :: _ => applied
  | "show-ref" :: _ => { git.saying "" with code := 1 }
  | "commit" :: _ => { git.saying "" with code := 1, err := "error: cannot sign".toUTF8 }
  | "log" :: _ => git.saying "later\nfix"
  | _ => git.saying "main"

/-- The diff does not apply. -/
def rejected : GitReply := { git.saying "" with code := 1, err := "error: patch failed".toUTF8 }

/-- The diff applies, and the second line is as it was before the patch. -/
def reverted : GitReply := { git.saying "" with
  changes := [(⟨.root, ["project", "f.txt"]⟩, .file "a\nb\n".toUTF8)] }

/-- The world with that git, in which the patch is applied. -/
def firmWorld (applied : GitReply) : World := { appliedWorld with
  outside := { appliedWorld.outside with git := firm applied } }

theorem firmWorld_keyed (applied : GitReply) : (firmWorld applied).store.Keyed :=
  appliedWorld_keyed

theorem firmWorld_mild {applied : GitReply} (h : applied.changes ≠ [] → applied.failure = none ∧
    applied.code = 0) : (firmWorld applied).outside.Mild := by
  intro calls c hchanges
  have hlast : ((calls ++ [c]).getLast?.map GitCall.arguments).getD [] = c.arguments := by simp
  have hgit : (firmWorld applied).outside.git (calls ++ [c]) = firm applied (calls ++ [c]) := rfl
  rw [hgit] at hchanges ⊢
  unfold firm at hchanges ⊢
  rw [hlast] at hchanges ⊢
  split at hchanges
  · rename_i rest hargs
    obtain ⟨hran, hcode⟩ := h hchanges
    rw [hargs]
    exact ⟨⟨hran, hcode⟩, .inl rfl⟩
  all_goals exact (hchanges rfl).elim

/-- Nothing stands below the one file. -/
theorem firmWorld_grounded (applied : GitReply) : (firmWorld applied).files.Grounded := by
  have hleaf (q : Location) (hq : (firmWorld applied).files.isLeaf q = true) :
      q = ["project", "f.txt"] := by
    rw [FileTree.isLeaf, FileTree.has, FileTree.isDirectory, FileTree.entry?] at hq
    by_contra hne
    have hnone : (firmWorld applied).files.entries.find? (·.1 == q) = none := by
      simp [firmWorld, appliedWorld, world, Ne.symm hne]
    rw [hnone] at hq
    simp only at hq
    split at hq <;> simp at hq
  refine ⟨rfl, fun p q hp hpq hne => ?_⟩
  obtain rfl := hleaf p hp
  rw [← Bool.not_eq_true, FileTree.has_iff]
  rintro (rfl | ⟨e, he, hqe⟩)
  · simp at hpq
  · obtain rfl := List.mem_singleton.1 he
    exact hne (hpq.eq_of_length_le hqe.length_le)

/-- The rollback of the patch. -/
def firmRollback (applied : GitReply) : Except Fault Patch × World :=
  ((session "fix").rollBack "patch-1").run (firmWorld applied)

/-- The content of the file in the end, if the rollback is stopped at a time of the calendar. -/
def leftOver (r : Except Fault Patch × World) : Option ByteArray :=
  if r.1.toOption.isNone && r.2.supply.now.toUniversal?.isSome then
    r.2.files.content? ["project", "f.txt"]
  else none

theorem of_leftOver {r : Except Fault Patch × World} {content : ByteArray}
    (h : leftOver r = some content) : (∃ f, r = (.error f, r.2)) ∧
      r.2.supply.now.toUniversal?.isSome = true ∧
      r.2.files.content? ["project", "f.txt"] = some content := by
  rw [leftOver] at h
  split at h
  · rename_i hends
    obtain ⟨hstopped, hdated⟩ := Bool.and_eq_true_iff.1 hends
    match r with
    | (.error f, _) => exact ⟨⟨f, rfl⟩, hdated, h⟩
    | (.ok p, _) => cases hstopped
  · cases h

theorem firmRollback_rejected : leftOver (firmRollback rejected) = some "a\nc\n".toUTF8 := by
  decide +kernel

theorem firmRollback_reverted : leftOver (firmRollback reverted) = some "a\nb\n".toUTF8 := by
  decide +kernel

/-- What undoes the patch is not applied. -/
theorem applyRollback_rejected : ((firmWorld rejected).store.patch? "patch-1").toOption.join.all
    (fun p => ((Session.applyRollback repository p).run (firmWorld rejected)).1.toOption.isNone) =
      true := by
  decide +kernel

end Small

namespace Session

/-- Where the diff is rejected, the refused rollback has changed no content. -/
theorem rollBack_contents_rejected : ∃ f w', ((Small.session "fix").rollBack "patch-1").run
      (Small.firmWorld Small.rejected) = (.error f, w') ∧
    SameContents (Small.firmWorld Small.rejected).files w'.files := by
  obtain ⟨⟨f, hrun⟩, hlast, -⟩ := Small.of_leftOver Small.firmRollback_rejected
  have hmild : (Small.firmWorld Small.rejected).outside.Mild :=
    Small.firmWorld_mild fun hchanges => (hchanges rfl).elim
  have hiff := rollBack_contents_iff (Small.session "fix") "patch-1" (Small.firmWorld_keyed _)
    (by decide) (by decide) hlast hmild (Small.firmWorld_grounded _) hrun
  refine ⟨f, _, hrun, hiff.2 fun p v hp _ happlied => ?_⟩
  have hrejected := Small.applyRollback_rejected
  have happlied : (applyRollback Small.repository p).run (Small.firmWorld Small.rejected) =
      (.ok (), v) := happlied
  rw [hp] at hrejected
  simp only [Except.toOption, Option.join_some, Option.all_some, happlied] at hrejected
  cases hrejected

/-- **A refused rollback may leave what undoes the patch in the files.** Here the diff was
applied, its commit was refused, and two commits stood above the backup. -/
theorem rollBack_strands : (Small.firmWorld Small.reverted).outside.Mild ∧
    ∃ f w', ((Small.session "fix").rollBack "patch-1").run (Small.firmWorld Small.reverted) =
      (.error f, w') ∧ ¬ SameContents (Small.firmWorld Small.reverted).files w'.files := by
  obtain ⟨⟨f, hrun⟩, -, hcontent⟩ := Small.of_leftOver Small.firmRollback_reverted
  refine ⟨Small.firmWorld_mild fun _ => ⟨rfl, rfl⟩, f, _, hrun, fun hsame => ?_⟩
  have hbefore : (Small.firmWorld Small.reverted).files.content? ["project", "f.txt"] =
      some "a\nc\n".toUTF8 := rfl
  have hbytes := Option.some.inj (hcontent.symm.trans ((hsame _).trans hbefore))
  exact absurd hbytes (by decide)

end Session

end RepairLoop
