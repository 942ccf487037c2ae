import RepairLoop.Proofs.Repair.Settled
import RepairLoop.Proofs.Repository.Precaution
/-!
# Repair — where an application lands

An application has landed once the commit of the patch has been taken over to
the branch that was checked out (`landing`). What follows (`completing`) reads
off what undoes it and takes the branch of the patch away, and may be stopped
as well. So an application that was stopped has left its commit behind exactly
if it was stopped there (`applyToRepository_stopped_iff`).
-/

namespace RepairLoop

open Act (Keeps Obeys Leads)
open World (Ran Adds Did InVain Answered)

/-- The run has taken a commit over to the branch that was checked out. -/
def GitRun.Picks (g : GitRun) : Prop :=
  g.Succeeded ∧ ∃ commit, commit ≠ "--abort" ∧ g.arguments = ["cherry-pick", commit]

/-- The arguments with which a commit is taken over. -/
def isPick : List String → Bool
  | ["cherry-pick", commit] => commit != "--abort"
  | _ => false

theorem isPick_iff {arguments : List String} : isPick arguments = true ↔
    ∃ commit, commit ≠ "--abort" ∧ arguments = ["cherry-pick", commit] := by
  constructor
  · intro h
    unfold isPick at h
    split at h
    · rename_i commit
      exact ⟨commit, by simpa using h, rfl⟩
    · cases h
  · rintro ⟨commit, hcommit, rfl⟩
    simpa [isPick] using hcommit

instance (g : GitRun) : Decidable g.Picks :=
  decidable_of_iff (g.Succeeded ∧ isPick g.arguments = true) (and_congr_right fun _ => isPick_iff)

namespace Session

variable (r : Repository) (i : Issue) (p : Patch)

/-! ## The parts of an application -/

/-- The start of an application: the branch that is checked out, and the branch made for
the patch. -/
def opening : Act (String × String) := do
  match ← r.currentBranch with
  | none => Repository.refuse "Cannot apply a patch onto a detached HEAD." []
  | some base =>
    requireClean r
    let branch ← r.isolate i.id p.id "HEAD"
    pure (base, branch)

/-- Commits a patch on its branch and takes the commit over to the base. -/
def carry (base branch : String) : Act String := do
  r.checkOut branch
  let commit ← Act.finally_ (commitPatch r i p) (returnTo r base)
  r.cherryPick commit
  pure commit

/-- An application up to the commit on the base: yields the base, the branch of the patch
and the commit there. -/
def landing : Act (String × String × String) := do
  let (base, branch) ← opening r i p
  let commit ← carry r i p base branch
  pure (base, branch, commit)

/-- The last backup, the last commit, and what undoes it. -/
def harvest : Act (Option String × Option String × String) := do
  let backup := (← get).lastBackup
  let head ← r.head
  let rollback ← r.difference "HEAD" "HEAD~1" []
  pure (backup, head, rollback)

/-- The change that was made, if there is one. -/
def conclude (base branch : String) : Option String × Option String × String → Act AppliedChange
  | (backup, some head, rollback) =>
    if rollback == "" then applyToRepository.nothing p base
    else pure ⟨head, rollback, backup, branch⟩
  | (_, none, _) => applyToRepository.nothing p base

/-- What follows once the commit stands on the base. -/
def completing (base branch : String) : Act AppliedChange :=
  Act.finally_ (harvest r) (dropBranch r branch) >>= conclude p base branch

theorem transfer_eq (base branch : String) :
    transfer r base branch i p = carry r i p base branch >>= fun _ => harvest r := by
  simp only [transfer, carry, bind_assoc, pure_bind]
  rfl

theorem applyToRepository_eq : applyToRepository r i p = opening r i p >>= fun (base, branch) =>
    Act.finally_ (transfer r base branch i p) (dropBranch r branch) >>= conclude p base branch := by
  rw [applyToRepository, opening, bind_assoc]
  refine bind_congr fun base => ?_
  cases base with
  | none => rfl
  | some base =>
    simp only [bind_assoc, pure_bind]
    refine bind_congr fun _ => bind_congr fun branch => bind_congr fun found => ?_
    obtain ⟨backup, head, rollback⟩ := found
    cases head <;> rfl

/-! ## Up to the commit on the base -/

end Session

/-- No commit was taken over between the two worlds. -/
abbrev World.Unpicked : World → World → Prop := Adds fun g => ¬ g.Picks

open World (Unpicked)

theorem GitRun.not_picks {g : GitRun} (h : g.arguments.head? ≠ some "cherry-pick") : ¬ g.Picks := by
  rintro ⟨-, commit, -, hg⟩
  exact h (by rw [hg]; rfl)

/-- Tries in vain take nothing over. -/
theorem World.InVain.unpicked {arguments : List String} {w w' : World} (h : InVain arguments w w') :
    Unpicked w w' := h.mono fun _ hg hpicks => hg.2 hpicks.1

namespace Repository

variable (r : Repository)

theorem bears_unpicked : r.Bears Unpicked := by
  refine bears_adds fun g hg => GitRun.not_picks fun hhead => ?_
  obtain ⟨word, hword, hfirst⟩ := hg.head
  obtain rfl := Option.some.inj (hfirst.symm.trans hhead)
  exact absurd hword (by decide)

theorem run_unpicked {arguments : List String} (h : arguments.head? ≠ some "cherry-pick") :
    Keeps Unpicked (r.run arguments) :=
  run_adds fun _ hg => GitRun.not_picks (hg ▸ h)

end Repository

namespace Session

variable {r : Repository} {i : Issue} {p : Patch} {w : World}

theorem requireClean_keeps {R : World → World → Prop} [IsPreorder World R]
    (h : r.Hears R) : Keeps R (requireClean r) := by
  refine (h.isClean false).bind fun clean => ?_
  split
  · exact (h.status false).bind fun _ => .throw
  · exact .pure trivial

theorem commitPatch_keeps {R : World → World → Prop} [IsPreorder World R] (h : r.Bears R) :
    Keeps R (commitPatch r i p) :=
  (h.applyDiff _ _ _).bind fun _ => Keeps.ofExcept.bind fun _ => h.commit _ _ _

theorem opening_unpicked : Keeps Unpicked (opening r i p) := by
  have hears := r.bears_unpicked.hears
  refine hears.currentBranch.bind fun base => ?_
  split
  · exact .throw
  · refine (requireClean_keeps hears).bind fun _ => Keeps.bind ?_ fun _ => .pure trivial
    refine (hears.hasBranch _).bind fun found => ?_
    split
    · exact .throw
    · exact (r.run_unpicked (by simp)).bind fun _ => .pure trivial

theorem checkOut_unpicked (branch : String) : Keeps Unpicked (r.checkOut branch) :=
  (r.run_unpicked (by simp)).bind fun _ => .pure trivial

theorem dropChanges_unpicked : Keeps Unpicked (r.try_ ["reset", "--hard", "--quiet"]) :=
  Repository.try_adds fun _ hg => GitRun.not_picks (by rw [hg]; simp)

theorem returnTo_unpicked (base : String) : Keeps Unpicked (returnTo r base) :=
  dropChanges_unpicked.bind fun _ => checkOut_unpicked base

/-- The commit stands on the base. -/
def Carried (w : World) (commit : String) (v : World) : Prop :=
  ∃ u g, Unpicked w u ∧ g.Succeeded ∧ Answered ["cherry-pick", commit] g u v

/-- **A commit is taken over by a run of its own**, or nothing is. -/
theorem cherryPick_leads (commit : String) : Leads (Unpicked w) (r.cherryPick commit)
    (fun _ => Carried w commit) (Unpicked w) := by
  refine (Leads.of_keeps (r.bears_unpicked.backUp none) w).bind fun name => ?_
  refine .of_each fun u hu => ?_
  refine ((r.tryWith_leads _ none u).stops fun v hv => trans_of Unpicked hu hv.unpicked).bind
    fun out => ?_
  split
  · rename_i hfailed
    -- the answer is a failure, and what was begun is broken off
    have hvain : ∀ v, (∃ g, out = .ofReply g.reply ∧ Answered ["cherry-pick", commit] g u v) →
        Unpicked w v := by
      rintro v ⟨g, rfl, hanswered⟩
      refine trans_of Unpicked hu (hanswered.inVain fun hcode => ?_).unpicked
      rw [(GitOutput.succeeded_iff g.reply).2 hcode] at hfailed
      cases hfailed
    have habort : Keeps Unpicked (r.try_ ["cherry-pick", "--abort"]) := by
      refine Repository.try_adds fun g hg ⟨_, other, hother, hpick⟩ => hother ?_
      rw [hg] at hpick
      simpa using hpick.symm
    exact ((Leads.of_keeps habort w).pre hvain).bind fun _ =>
      .throw fun _ hv => hv
  · rename_i hsucceeded
    refine .pure fun v ⟨g, hout, hanswered⟩ => ⟨u, g, hu, ⟨hanswered.ran, ?_⟩, hanswered⟩
    exact (GitOutput.succeeded_iff g.reply).1 (hout ▸ by simpa using hsucceeded)

theorem carry_leads (base branch : String) : Leads (Unpicked w) (carry r i p base branch)
    (Carried w) (Unpicked w) := by
  have hcommit : Keeps Unpicked (Act.finally_ (commitPatch r i p) (returnTo r base)) :=
    Obeys.finally_ (commitPatch_keeps r.bears_unpicked) (returnTo_unpicked base)
  exact (Leads.of_keeps (checkOut_unpicked branch) w).bind fun _ =>
    (Leads.of_keeps hcommit w).bind fun commit =>
      (cherryPick_leads commit).bind fun _ => .pure fun _ hv => hv

/-- **An application that has not landed has taken nothing over.** -/
theorem landing_leads : Leads (Unpicked w) (landing r i p)
    (fun found => Carried w found.2.2) (Unpicked w) :=
  (Leads.of_keeps opening_unpicked w).bind fun _ => (carry_leads _ _).bind fun _ =>
    .pure fun _ hv => hv

/-! ## Behind the commit on the base -/

theorem dropBranch_adds {P : GitRun → Prop} {branch : String}
    (hask : ∀ g : GitRun, Repository.Asking g.arguments → P g)
    (hdrop : ∀ g : GitRun, g.arguments = ["branch", "-D", branch] → P g) :
    Keeps (Adds P) (dropBranch r branch) := by
  have hears := Repository.hears_adds (r := r) hask
  refine hears.currentBranch.bind fun current => ?_
  split
  · refine (hears.hasBranch branch).bind fun found => ?_
    split
    · exact (Repository.run_adds hdrop).bind fun _ => .pure trivial
    · exact .pure trivial
  · exact .pure trivial

theorem dropBranch_unpicked (branch : String) : Keeps Unpicked (dropBranch r branch) := by
  refine dropBranch_adds (fun g ⟨word, hword, hhead⟩ => GitRun.not_picks fun hpick => ?_)
    fun g hg => GitRun.not_picks (by rw [hg]; simp)
  obtain rfl := Option.some.inj (hhead.symm.trans hpick)
  exact absurd hword (by decide)

/-- **An application that has landed is completed from there.** -/
theorem applyToRepository_of_landing {base branch commit : String} {v : World}
    (h : (landing r i p).run w = (.ok (base, branch, commit), v)) :
    (applyToRepository r i p).run w = (completing r p base branch).run v := by
  obtain ⟨⟨base', branch'⟩, w₁, hopening, h⟩ := run_ok_of_bind h
  obtain ⟨commit', v', hcarry, hpure⟩ := run_ok_of_bind h
  obtain ⟨hsame, rfl⟩ := run_ok_of_pure hpure
  obtain ⟨rfl, rfl, rfl⟩ : base' = base ∧ branch' = branch ∧ commit' = commit := by
    simpa using hsame
  rw [applyToRepository_eq, run_bind_of_ok hopening]
  simp only
  rw [transfer_eq, completing, run_bind_eq, run_bind_eq, Act.finally_run_of_ok hcarry]

/-- **One that has not landed is stopped**, and takes nothing over on the way
out. -/
theorem applyToRepository_of_stopped {f : Fault} {v : World}
    (h : (landing r i p).run w = (.error f, v)) :
    ∃ f' w', (applyToRepository r i p).run w = (.error f', w') ∧ Unpicked w w' := by
  rw [applyToRepository_eq, run_bind_eq]
  rw [landing, run_bind_eq] at h
  cases hopening : (opening r i p).run w with
  | mk found w₁ =>
    cases found with
    | error e => exact ⟨e, w₁, rfl, opening_unpicked.of_stop hopening⟩
    | ok found =>
      obtain ⟨base, branch⟩ := found
      rw [hopening] at h
      simp only at h ⊢
      have hfirst := (opening_unpicked.of_run hopening).1
      have hcarry : ∃ e, (carry r i p base branch).run w₁ = (.error e, v) := by
        rw [run_bind_eq] at h
        split at h
        · cases (Prod.mk.inj h).1
        · rename_i e v' hcarry
          exact ⟨e, hcarry.trans (congrArg _ (Prod.mk.inj h).2)⟩
      obtain ⟨e, hcarry⟩ := hcarry
      have hstopped : Unpicked w v :=
        trans_of Unpicked hfirst ((carry_leads base branch).of_stop (refl_of Unpicked w₁) hcarry)
      have htransfer : (transfer r base branch i p).run w₁ = (.error e, v) := by
        rw [transfer_eq, run_bind_eq, hcarry]
      rw [Act.finally_, bind_assoc, run_bind_of_ok (Act.attempt_run _ w₁), htransfer, bind_assoc,
        run_bind_eq]
      cases hdrop : (dropBranch r branch).run v with
      | mk dropped w' =>
        cases dropped with
        | ok _ =>
          exact ⟨e, w', rfl, trans_of Unpicked hstopped ((dropBranch_unpicked _).of_run hdrop).1⟩
        | error e' =>
          exact ⟨e', w', rfl, trans_of Unpicked hstopped ((dropBranch_unpicked _).of_stop hdrop)⟩

theorem harvest_keeps {R : World → World → Prop} [IsPreorder World R] (h : r.Hears R) :
    Keeps R (harvest r) :=
  Keeps.get.bind fun _ => h.head.bind fun _ => (h.difference _ _ _).bind fun _ => .pure trivial

theorem conclude_keeps {R : World → World → Prop} [IsPreorder World R] {base branch : String}
    (found : Option String × Option String × String) : Keeps R (conclude p base branch found) := by
  obtain ⟨backup, head, rollback⟩ := found
  cases head with
  | none => exact .throw
  | some head =>
    rw [conclude]
    split
    · exact .throw
    · exact .pure trivial

theorem completing_unpicked (base branch : String) : Keeps Unpicked (completing r p base branch) := by
  have hdrop : Keeps Unpicked (Act.finally_ (harvest r) (dropBranch r branch)) :=
    Obeys.finally_ (harvest_keeps r.bears_unpicked.hears) (dropBranch_unpicked branch)
  exact hdrop.bind conclude_keeps

/-- What was carried to the base is a commit by its name. -/
theorem Carried.picked_iff {commit : String} {v w' : World} (h : Carried w commit v)
    (hrest : Unpicked v w') : (∃ l, Ran l w w' ∧ ∃ g ∈ l, g.Picks) ↔ commit ≠ "--abort" := by
  obtain ⟨u, g, hbefore, hsucceeded, hanswered⟩ := h
  constructor
  · rintro ⟨l, hran, g', hg', hpicks⟩ rfl
    have hlast : ¬ g.Picks := by
      rintro ⟨-, other, hother, hpick⟩
      rw [hanswered.asked] at hpick
      exact hother (by simpa using hpick.symm)
    have hpick : Unpicked u v := hanswered.adds (fun _ _ hvain hp => hvain hp.1) hlast
    exact (trans_of Unpicked hbefore (trans_of Unpicked hpick hrest)).of_ran hran g' hg' hpicks
  · intro hcommit
    obtain ⟨l₁, hran₁, -⟩ := hbefore
    obtain ⟨t, ⟨l₂, hran₂, -⟩, hran₃⟩ := hanswered.tried
    obtain ⟨l₄, hran₄, -⟩ := hrest
    refine ⟨l₁ ++ (l₂ ++ ([g] ++ l₄)), hran₁.trans (hran₂.trans (hran₃.trans hran₄)), g, ?_,
      hsucceeded, commit, hcommit, hanswered.asked⟩
    exact List.mem_append_right _ (List.mem_append_right _ List.mem_cons_self)

/-- **An application that is stopped leaves its commit behind exactly if it is
stopped behind it.** Of the runs of git one has taken a commit over to the base
if and only if the application had landed, and then what stopped it came of
what follows: of the questions for the commit and for what undoes it, of taking
the branch of the patch away, or of finding that nothing has changed. -/
theorem applyToRepository_stopped_iff {f : Fault} {w' : World}
    (hrun : (applyToRepository r i p).run w = (.error f, w')) :
    (∃ l, Ran l w w' ∧ ∃ g ∈ l, g.Picks) ↔
      ∃ base branch commit v, (landing r i p).run w = (.ok (base, branch, commit), v) ∧
        commit ≠ "--abort" ∧ (completing r p base branch).run v = (.error f, w') := by
  cases hland : (landing r i p).run w with
  | mk found v =>
    cases found with
    | ok found =>
      obtain ⟨base, branch, commit⟩ := found
      have hcarried : Carried w commit v := landing_leads.of_run (refl_of Unpicked w) hland
      have hrest : (completing r p base branch).run v = (.error f, w') :=
        (applyToRepository_of_landing hland).symm.trans hrun
      rw [hcarried.picked_iff ((completing_unpicked base branch).of_stop hrest)]
      constructor
      · intro hcommit
        exact ⟨base, branch, commit, v, rfl, hcommit, hrest⟩
      · rintro ⟨base', branch', commit', v', hsame, hcommit, -⟩
        cases hsame
        exact hcommit
    | error e =>
      obtain ⟨f', w'', hstopped, hnone⟩ := applyToRepository_of_stopped hland
      obtain ⟨-, rfl⟩ := Prod.mk.inj (hrun.symm.trans hstopped)
      constructor
      · rintro ⟨l, hran, g, hg, hpicks⟩
        exact (hnone.of_ran hran g hg hpicks).elim
      · rintro ⟨base, branch, commit, v', hsame, -⟩
        cases (Prod.mk.inj hsame).1

end Session

/-! ## An application that is stopped behind its commit -/

namespace Small

/-- The repository of the small project. -/
def repository : Repository := (session "fix").repository

/-- A patch for its issue. -/
def patch : Patch := { (default : Patch) with
  id := "patch-1", issueId := "issue-1"
  diff := "--- a/f.txt\n+++ b/f.txt\n@@ -1,2 +1,2 @@\n a\n-b\n+c\n" }

/-- A git that does all but tell a difference. -/
def mute (calls : List GitCall) : GitReply :=
  match (calls.getLast?.map GitCall.arguments).getD [] with
  | "diff" :: _ => { git.saying "" with code := 128, err := "fatal: bad revision".toUTF8 }
  | _ => git calls

/-- The world with that git. -/
def muteWorld : World := { world "a\nb\n".toUTF8 with
  outside := { (world "a\nb\n".toUTF8).outside with git := mute } }

/-- Work that started without any runs was stopped, and a commit was taken over. -/
def strands {α : Type} (o : Outside) (r : Except Fault α × World) : Bool :=
  r.1.toOption.isNone && (o.runs [] r.2.gitCalls).any fun g => decide g.Picks

/-- What an application of the patch comes to. -/
def application : Except Fault AppliedChange × World :=
  (Session.applyToRepository repository issue patch).run muteWorld

theorem application_strands : strands muteWorld.outside application = true := by decide +kernel

theorem application_ran :
    Ran (muteWorld.outside.runs [] application.2.gitCalls) muteWorld application.2 :=
  .of_calls (Session.applyToRepository_apart repository issue patch muteWorld).1.outside
    (List.nil_append _).symm

theorem application_stopped :
    ∃ f, (Session.applyToRepository repository issue patch).run muteWorld =
      (.error f, application.2) := by
  have hstopped := (Bool.and_eq_true_iff.1 application_strands).1
  cases hrun : application.1 with
  | ok change =>
    rw [hrun] at hstopped
    cases hstopped
  | error f => exact ⟨f, Prod.ext hrun rfl⟩

theorem application_picked :
    ∃ l, Ran l muteWorld application.2 ∧ ∃ g ∈ l, g.Picks := by
  obtain ⟨g, hg, hpicks⟩ := List.any_eq_true.1 (Bool.and_eq_true_iff.1 application_strands).2
  exact ⟨_, application_ran, g, hg, of_decide_eq_true hpicks⟩

end Small

namespace Session

/-- That application had landed. -/
theorem applyToRepository_stopped_mute : ∃ base branch commit v f,
    (landing Small.repository Small.issue Small.patch).run Small.muteWorld =
      (.ok (base, branch, commit), v) ∧ commit ≠ "--abort" ∧
    (completing Small.repository Small.patch base branch).run v = (.error f, Small.application.2) := by
  obtain ⟨f, hrun⟩ := Small.application_stopped
  obtain ⟨base, branch, commit, v, hland⟩ :=
    (applyToRepository_stopped_iff hrun).1 Small.application_picked
  exact ⟨base, branch, commit, v, f, hland⟩

/-- **An application that raises may leave its commit on the base.** Here the
commit was taken over, and then the difference could not be told. -/
theorem applyToRepository_strands : ∃ f w',
    (applyToRepository Small.repository Small.issue Small.patch).run Small.muteWorld =
      (.error f, w') ∧ ∃ l, Ran l Small.muteWorld w' ∧ ∃ g ∈ l, g.Picks := by
  obtain ⟨f, hrun⟩ := Small.application_stopped
  exact ⟨f, _, hrun, Small.application_picked⟩

end Session

end RepairLoop

/-!
## Repair — the backup in front of an applied patch

Several backups may be made on the way of an application: before the diff is
applied on the branch of the patch, and before the commit is taken over to the
base. The one that is recorded is the last, and the log of git shows where it
stands (`applyToRepository_backed`): behind the return to the base, right in
front of the commit that is taken over, and from the return to the end that
commit is all that moves the branch. So to go back to the backup is to drop the
commit of the patch and nothing else.
-/

namespace RepairLoop

open Act (Keeps Obeys)
open World (Ran Adds Did InVain Answered Unpicked)

/-- The run has moved the branch that is checked out, or another one was checked out. -/
def GitRun.Moves (g : GitRun) : Prop :=
  g.Succeeded ∧ ¬ Repository.Asking g.arguments ∧ g.arguments.head? ≠ some "branch"

/-- A log of git with three runs marked in it: the return to the base, the backup, and the
run that took the commit over. -/
structure Backing where
  before : List GitRun
  checkout : GitRun
  between : List GitRun
  backup : GitRun
  tries : List GitRun
  pick : GitRun
  after : List GitRun

namespace Backing

/-- The log. -/
def log (b : Backing) : List GitRun :=
  b.before ++ b.checkout :: b.between ++ b.backup :: b.tries ++ b.pick :: b.after

/-- The runs from the return to the base on, other than the one that took the commit over. -/
def others (b : Backing) : List GitRun := b.between ++ b.backup :: b.tries ++ b.after

/-- The marked runs did what they are marked for, and between them nothing was done. -/
structure Shows (b : Backing) (base backup branch : String) : Prop where
  checkout : b.checkout.arguments = ["checkout", "--quiet", base] ∧ b.checkout.Succeeded
  between : ∀ g ∈ b.between, g.Idle
  backup : b.backup.arguments = ["branch", backup, "HEAD"] ∧ b.backup.Succeeded
  tries : ∀ g ∈ b.tries, g.arguments = b.pick.arguments ∧ ¬ g.Succeeded
  pick : (∃ commit, b.pick.arguments = ["cherry-pick", commit]) ∧ b.pick.Succeeded
  after : ∀ g ∈ b.after, g.Idle ∨ g.arguments = ["branch", "-D", branch]

theorem not_moves_of_idle {g : GitRun} (h : g.Idle) : ¬ g.Moves := by
  rintro ⟨hsucceeded, hask, -⟩
  exact h.elim hask fun hfailed => hfailed hsucceeded

theorem not_moves_of_branch {g : GitRun} {rest : List String}
    (h : g.arguments = "branch" :: rest) : ¬ g.Moves := by
  rintro ⟨-, -, hbranch⟩
  exact hbranch (by rw [h]; rfl)

/-- **Behind the return to the base only the commit moves the branch.** -/
theorem Shows.still {b : Backing} {base backup branch : String} (h : b.Shows base backup branch) :
    ∀ g ∈ b.others, ¬ g.Moves := by
  intro g hg
  rw [others, List.append_assoc, List.mem_append, List.cons_append, List.mem_cons,
    List.mem_append] at hg
  rcases hg with hg | rfl | hg | hg
  · exact not_moves_of_idle (h.between g hg)
  · exact not_moves_of_branch h.backup.1
  · exact not_moves_of_idle (.inr (h.tries g hg).2)
  · rcases h.after g hg with hidle | hdrop
    · exact not_moves_of_idle hidle
    · exact not_moves_of_branch hdrop

end Backing

namespace Session

variable {r : Repository} {i : Issue} {p : Patch} {w : World}

/-- The start of an application finds the branch that is checked out and makes
that of the patch. -/
theorem opening_ok {base branch : String} {v : World}
    (hrun : (opening r i p).run w = (.ok (base, branch), v)) :
    (r.currentBranch.run w).1 = .ok (some base) ∧ branch = r.isolationName i.id p.id := by
  obtain ⟨current, w₁, hcurrent, hrun⟩ := run_ok_of_bind hrun
  cases current with
  | none => cases (Prod.mk.inj hrun).1
  | some current =>
    obtain ⟨_, w₂, -, hrun⟩ := run_ok_of_bind hrun
    obtain ⟨made, w₃, hmade, hpure⟩ := run_ok_of_bind hrun
    obtain ⟨hsame, -⟩ := run_ok_of_pure hpure
    obtain ⟨rfl, rfl⟩ := Prod.mk.inj hsame
    refine ⟨congrArg Prod.fst hcurrent, ?_⟩
    obtain ⟨found, w₄, -, hmade⟩ := run_ok_of_bind hmade
    split at hmade
    · cases (Prod.mk.inj hmade).1
    · obtain ⟨_, w₅, -, hpure⟩ := run_ok_of_bind hmade
      exact (run_ok_of_pure hpure).1.symm

/-- The change that is concluded names the backup and the branch. -/
theorem conclude_ok {base branch : String} {found : Option String × Option String × String}
    {change : AppliedChange} {v : World}
    (hrun : (conclude p base branch found).run w = (.ok change, v)) :
    change.backup = found.1 ∧ change.branch = branch ∧ v = w := by
  obtain ⟨backup, head, rollback⟩ := found
  cases head with
  | none => cases (Prod.mk.inj hrun).1
  | some head =>
    rw [conclude] at hrun
    split at hrun
    · cases (Prod.mk.inj hrun).1
    · obtain ⟨rfl, rfl⟩ := run_ok_of_pure hrun
      exact ⟨rfl, rfl, rfl⟩

/-- What is harvested names the last backup. -/
theorem harvest_ok {found : Option String × Option String × String} {v : World}
    (hrun : (harvest r).run w = (.ok found, v)) : found.1 = w.lastBackup := by
  obtain ⟨u, w₁, hget, hrun⟩ := run_ok_of_bind hrun
  obtain ⟨hsame, rfl⟩ := Prod.mk.inj hget
  obtain rfl := Except.ok.inj hsame
  obtain ⟨head, w₂, -, hrun⟩ := run_ok_of_bind hrun
  obtain ⟨rollback, w₃, -, hpure⟩ := run_ok_of_bind hrun
  obtain ⟨rfl, -⟩ := run_ok_of_pure hpure
  rfl

/-- **What was carried to the base lies behind the last backup**, and that
behind the return to the base. -/
theorem carry_ok {base branch commit : String} {v : World}
    (hrun : (carry r i p base branch).run w = (.ok commit, v)) :
    ∃ name w₁ w₂ w₃ checkout backup pick, v.lastBackup = some name ∧ Unpicked w w₁ ∧
      checkout.arguments = ["checkout", "--quiet", base] ∧ Did checkout w₁ w₂ ∧
      backup.arguments = ["branch", name, "HEAD"] ∧ Did backup w₂ w₃ ∧
      pick.Succeeded ∧ Answered ["cherry-pick", commit] pick w₃ v := by
  obtain ⟨_, u₁, hbranch, hrun⟩ := run_ok_of_bind hrun
  obtain ⟨commit', u₂, hcommitted, hrun⟩ := run_ok_of_bind hrun
  obtain ⟨_, v', hpick, hpure⟩ := run_ok_of_bind hrun
  obtain ⟨rfl, rfl⟩ := run_ok_of_pure hpure
  obtain ⟨u₃, hcommit, hreturn⟩ := Act.finally_ok hcommitted
  obtain ⟨out, u₄, hreset, hcheckout⟩ := run_ok_of_bind hreturn
  obtain ⟨checkout, hasked, hdid⟩ := Repository.checkOut_ok hcheckout
  obtain ⟨name, u₅, pick, hlast, hbackup, hsucceeded, hanswered⟩ := Repository.cherryPick_ok hpick
  obtain ⟨-, backup, hmade, hdone⟩ := Repository.backUp_ok hbackup
  have hbefore : Unpicked w u₄ :=
    trans_of Unpicked ((checkOut_unpicked branch).of_run hbranch).1
      (trans_of Unpicked ((commitPatch_keeps r.bears_unpicked).of_run hcommit).1
        (dropChanges_unpicked.of_run hreset).1)
  exact ⟨name, u₄, u₂, u₅, checkout, backup, pick, hlast, hbefore, hasked, hdid, hmade, hdone,
    hsucceeded, hanswered⟩

/-- **The recorded backup is the tip in front of the patch.** Where an
application comes to a change, the log of git shows the return to the base that
was checked out at the start, then the backup that is recorded, then the commit
that is taken over; between these nothing is done, and behind them git is only
asked, or fails, or takes the branch of the patch away. So from the return to
the base on the branch is moved by the commit of the patch alone. -/
theorem applyToRepository_backed {change : AppliedChange} {w' : World}
    (hrun : (applyToRepository r i p).run w = (.ok change, w')) :
    ∃ base name, ∃ b : Backing, (r.currentBranch.run w).1 = .ok (some base) ∧
      change.backup = some name ∧ change.branch = r.isolationName i.id p.id ∧ Ran b.log w w' ∧
      b.Shows base name change.branch ∧ ∀ g ∈ b.others, ¬ g.Moves := by
  rw [applyToRepository_eq] at hrun
  obtain ⟨⟨base, branch⟩, w₁, hopening, hrun⟩ := run_ok_of_bind hrun
  obtain ⟨found, w₂, htransfer, hconclude⟩ := run_ok_of_bind hrun
  obtain ⟨w₃, htransfer, hdrop⟩ := Act.finally_ok htransfer
  rw [transfer_eq] at htransfer
  obtain ⟨commit, w₄, hcarry, hharvest⟩ := run_ok_of_bind htransfer
  obtain ⟨hbase, hbranch⟩ := opening_ok hopening
  obtain ⟨name, u₁, u₂, u₃, checkout, backup, pick, hlast, hbefore, hasked, hreturned, hmade,
    hbacked, hpicked, hanswered⟩ := carry_ok hcarry
  obtain ⟨hbackup, hsame, rfl⟩ := conclude_ok hconclude
  -- the runs in front of the return to the base
  obtain ⟨l₁, hran₁, -⟩ := (opening_unpicked.of_run hopening).1
  obtain ⟨l₂, hran₂, -⟩ := hbefore
  obtain ⟨hreturned, t₁, ⟨l₃, hran₃, -⟩, hcheckout⟩ := hreturned
  -- those up to the commit
  obtain ⟨hbacked, t₂, ⟨l₄, hran₄, hidle⟩, hbackedRun⟩ := hbacked
  obtain ⟨t₃, ⟨l₅, hran₅, hvain⟩, hpick⟩ := hanswered.tried
  -- and those behind it
  have hafter : Adds (fun g => g.Idle ∨ g.arguments = ["branch", "-D", branch]) w₄ w' :=
    trans_of (Adds _) (((harvest_keeps Repository.hears_idle).of_run hharvest).1.mono fun _ => .inl)
      ((dropBranch_adds (fun _ hask => .inl (.inl hask)) fun _ => .inr).of_run hdrop).1
  obtain ⟨l₆, hran₆, hlate⟩ := hafter
  let b : Backing := ⟨l₁ ++ l₂ ++ l₃, checkout, l₄, backup, l₅, pick, l₆⟩
  have hran : Ran b.log w w' := by
    have hall := hran₁.trans (hran₂.trans (hran₃.trans (hcheckout.trans (hran₄.trans
      (hbackedRun.trans (hran₅.trans (hpick.trans hran₆)))))))
    have hlog : b.log = l₁ ++ (l₂ ++ (l₃ ++ ([checkout] ++ (l₄ ++ ([backup] ++ (l₅ ++
        ([pick] ++ l₆))))))) := by
      simp [b, Backing.log]
    rwa [hlog]
  have hshows : b.Shows base name change.branch :=
    { checkout := ⟨hasked, hreturned⟩
      between := hidle
      backup := ⟨hmade, hbacked⟩
      tries := fun g hg => ⟨(hvain g hg).1.trans hanswered.asked.symm, (hvain g hg).2⟩
      pick := ⟨⟨commit, hanswered.asked⟩, hpicked⟩
      after := hsame ▸ hlate }
  exact ⟨base, name, b, hbase, (hbackup.trans (harvest_ok hharvest)).trans hlast,
    hsame.trans hbranch, hran, hshows, hshows.still⟩

/-- The change of the small project is backed. -/
theorem applyToRepository_backed_small : ∃ change w' base name, ∃ b : Backing,
    (applyToRepository Small.repository Small.issue Small.patch).run
      (Small.world "a\nb\n".toUTF8) = (.ok change, w') ∧ change.backup = some name ∧
      Ran b.log (Small.world "a\nb\n".toUTF8) w' ∧ b.Shows base name change.branch := by
  have happlied : ((applyToRepository Small.repository Small.issue Small.patch).run
      (Small.world "a\nb\n".toUTF8)).1.toOption.isSome = true := by
    decide +kernel
  cases hrun : (applyToRepository Small.repository Small.issue Small.patch).run
      (Small.world "a\nb\n".toUTF8) with
  | mk result w' =>
    rw [hrun] at happlied
    cases result with
    | error f => cases happlied
    | ok change =>
      obtain ⟨base, name, b, -, hbackup, -, hran, hshows, -⟩ := applyToRepository_backed hrun
      exact ⟨change, w', base, name, b, rfl, hbackup, hran, hshows⟩

end Session

end RepairLoop
