import RepairLoop.Proofs.Repository.FreeName
import RepairLoop.Proofs.Repository.Runs
/-!
# Repository — a backup stands before whatever may lose work

One run of git makes a backup, and whatever is ventured has one in front of it
(`Venture.act_cautious`).
-/

/-!
## Repository — backups and what they stand before

A backup is made by one run of git, in front of which git was only asked or
failed (`backUp_ok`), and its name is kept as that of the last backup until
the next one is made. A commit is taken over right behind a backup
(`cherryPick_ok`).
-/

namespace RepairLoop

open Act (Keeps Obeys)
open World (Ran Adds InVain Answered)

/-- A run that changes nothing: it only asked, or it was no success. -/
def GitRun.Idle (g : GitRun) : Prop := Repository.Asking g.arguments ∨ ¬ g.Succeeded

namespace World

/-- A part of the world is the same. -/
def Same {α : Type} (f : World → α) (w w' : World) : Prop := f w' = f w

instance {α : Type} (f : World → α) : IsPreorder World (Same f) where
  refl _ := rfl
  trans _ _ _ h h' := Eq.trans h' h

/-- In the end git was run with success, and idly before. -/
def Did (g : GitRun) (w w' : World) : Prop :=
  g.Succeeded ∧ ∃ v, Adds GitRun.Idle w v ∧ Ran [g] v w'

theorem InVain.idle {arguments : List String} {w w' : World} (h : InVain arguments w w') :
    Adds GitRun.Idle w w' := h.mono fun _ hg => Or.inr hg.2

/-- An answer of success ends a row of idle runs. -/
theorem Answered.did {arguments : List String} {g : GitRun} {w w' : World}
    (h : Answered arguments g w w') (hg : g.Succeeded) : Did g w w' := by
  obtain ⟨v, hvain, hran⟩ := h.tried
  exact ⟨hg, v, hvain.idle, hran⟩

theorem Did.after {g : GitRun} {w w' w'' : World} (h : Adds GitRun.Idle w w') (h' : Did g w' w'') :
    Did g w w'' := by
  obtain ⟨hg, v, hidle, hran⟩ := h'
  exact ⟨hg, v, trans_of (Adds _) h hidle, hran⟩

theorem Did.quiet {g : GitRun} {w w' w'' : World} (h : Did g w w') (h' : Quiet w' w'') :
    Did g w w'' := by
  obtain ⟨hg, v, hidle, hran⟩ := h
  have hboth := hran.trans h'.ran
  rw [List.append_nil] at hboth
  exact ⟨hg, v, hidle, hboth⟩

end World

open World (Did Same)

namespace Repository

variable {r : Repository} {w w' : World}

/-- Questions are idle. -/
theorem hears_idle : r.Hears (Adds GitRun.Idle) := hears_adds fun _ => Or.inl

theorem tryWith_lastBackup (arguments : List String) (patch : Option String) :
    Keeps (Same World.lastBackup) (r.tryWith arguments patch) := by
  refine runFrom_keeps (fun w => ?_) (fun _ => Keeps.modify fun _ => rfl) _ _
  rw [Act.git_run]
  exact ⟨rfl, fun _ _ => trivial⟩

/-- A call that must succeed and did. -/
theorem run_ok {arguments : List String} {out : GitOutput}
    (hrun : (r.run arguments).run w = (.ok out, w')) :
    ∃ g, g.arguments = arguments ∧ out = .ofReply g.reply ∧ Did g w w' := by
  obtain ⟨g, hout, hsucceeded, hanswered⟩ := (r.run_leads arguments w).of_run rfl hrun
  exact ⟨g, hanswered.asked, hout, hanswered.did hsucceeded⟩

theorem checkOut_ok {branch : String} (hrun : (r.checkOut branch).run w = (.ok (), w')) :
    ∃ g, g.arguments = ["checkout", "--quiet", branch] ∧ Did g w w' := by
  rw [checkOut] at hrun
  obtain ⟨out, v, hcheckout, hpure⟩ := run_ok_of_bind hrun
  obtain ⟨-, rfl⟩ := run_ok_of_pure hpure
  obtain ⟨g, hg, -, hdid⟩ := run_ok hcheckout
  exact ⟨g, hg, hdid⟩

theorem hears_asking : r.Hears (Adds fun g => Asking g.arguments) := hears_adds fun _ hask => hask

/-- The parts of a backup that was made: questions, the search for a name, the run that makes
the branch, and what is noted of it. -/
theorem backUp_parts {base : Option String} {name : String}
    (hrun : (r.backUp base).run w = (.ok name, w')) :
    ∃ bare left u v out x, r.IsBackup bare ∧ Adds (fun g => Asking g.arguments) w u ∧
      (r.freeName bare left 0).run u = (.ok name, v) ∧
      (r.run ["branch", name, "HEAD"]).run v = (.ok out, x) ∧ World.Quiet x w' ∧
      w'.lastBackup = some name := by
  obtain ⟨head, w₁, hhead, hrun⟩ := run_ok_of_bind hrun
  have hasked := (hears_asking.head.of_run hhead).1
  cases head with
  | none => cases (Prod.mk.inj hrun).1
  | some _ =>
    obtain ⟨start, w₂, hstart, hrun⟩ := run_ok_of_bind hrun
    obtain ⟨now, w₃, hnow, hrun⟩ := run_ok_of_bind hrun
    obtain ⟨v, w₄, hget, hrun⟩ := run_ok_of_bind hrun
    obtain ⟨-, rfl⟩ := Prod.mk.inj hget
    obtain ⟨free, w₅, hfree, hrun⟩ := run_ok_of_bind hrun
    obtain ⟨out, w₆, hbranch, hrun⟩ := run_ok_of_bind hrun
    obtain ⟨_, w₇, hnoted, hrun⟩ := run_ok_of_bind hrun
    obtain ⟨-, rfl⟩ := Prod.mk.inj hnoted
    obtain ⟨_, w₈, hemit, hpure⟩ := run_ok_of_bind hrun
    obtain ⟨-, rfl⟩ := Prod.mk.inj hemit
    obtain ⟨rfl, rfl⟩ := run_ok_of_pure hpure
    have hbefore : Adds (fun g => Asking g.arguments) w w₃ :=
      trans_of (Adds _) hasked (trans_of (Adds _) ((hears_asking.backupBase base).of_run hstart).1
        (Act.now_quiet.of_run hnow).1.adds)
    exact ⟨_, _, w₃, w₅, out, w₆, isBackup_bare r start now, hbefore, hfree, hbranch,
      .of_eq rfl rfl rfl rfl rfl, rfl⟩

/-- **A backup is one run of git**, and its name is that of the last backup. -/
theorem backUp_ok {base : Option String} {name : String}
    (hrun : (r.backUp base).run w = (.ok name, w')) :
    w'.lastBackup = some name ∧ ∃ g, g.arguments = ["branch", name, "HEAD"] ∧ Did g w w' := by
  obtain ⟨bare, left, u, v, out, x, hbare, hasked, hfree, hbranch, hquiet, hnoted⟩ := backUp_parts hrun
  have hbefore : Adds GitRun.Idle w v :=
    trans_of (Adds _) (hasked.mono fun _ => .inl) ((hears_idle.freeName hbare _ _).of_run hfree).1
  obtain ⟨g, hg, -, hdid⟩ := run_ok hbranch
  exact ⟨hnoted, g, hg, (hdid.after hbefore).quiet hquiet⟩

/-- **A commit is taken over behind a backup**: the name of the backup is that
of the last one, and between the two there are only runs in vain. -/
theorem cherryPick_ok {picked : String} (hrun : (r.cherryPick picked).run w = (.ok (), w')) :
    ∃ name u g, w'.lastBackup = some name ∧ (r.backUp none).run w = (.ok name, u) ∧
      g.Succeeded ∧ Answered ["cherry-pick", picked] g u w' := by
  obtain ⟨name, u, hbackup, hrun⟩ := run_ok_of_bind hrun
  obtain ⟨out, v, htry, hrun⟩ := run_ok_of_bind hrun
  obtain ⟨g, hout, hanswered⟩ := (r.tryWith_leads _ none u).of_run rfl htry
  have hkept : v.lastBackup = u.lastBackup := ((tryWith_lastBackup _ none).of_run htry).1
  split at hrun
  · obtain ⟨_, _, -, hthrow⟩ := run_ok_of_bind hrun
    cases (Prod.mk.inj hthrow).1
  · rename_i hsucceeded
    obtain ⟨-, rfl⟩ := run_ok_of_pure hrun
    have hcode : g.reply.code = 0 :=
      (GitOutput.succeeded_iff g.reply).1 (hout ▸ by simpa using hsucceeded)
    exact ⟨name, u, g, hkept.trans (backUp_ok hbackup).1, hbackup, ⟨hanswered.ran, hcode⟩, hanswered⟩

end Repository

end RepairLoop

/-!
## Repository — nothing is ventured without a backup

A diff, a move of the branch and a commit from elsewhere may all lose work (`Venture`).
Each begins with a backup, and what git was asked for it is a `Precaution`: questions, the
last of them about a branch that is not there, and then that branch is made at the last
commit. Whatever git answers, the log of the whole work shows a precaution in front of each
run that ventures something (`Venture.act_cautious`): without a backup there is no such
run, and behind one it stands in front of all that follows.
-/

namespace RepairLoop

open Act (Keeps Leads)
open World (Ran Adds InVain Answered)

/-- The run may lose work. -/
def GitRun.Ventures (g : GitRun) : Prop :=
  ∃ word ∈ ["apply", "reset", "cherry-pick"], g.arguments.head? = some word

namespace Repository

/-- Work that may lose other work: a diff is applied, the branch is moved, or a commit is
taken over to it. -/
inductive Venture where
  | apply (diff : String) (threeWay : Bool)
  | move (target : String) (hard : Bool)
  | pick (commit : String)

/-- The work itself. -/
def Venture.act (r : Repository) : Venture → Act Unit
  | apply diff threeWay => r.applyDiff diff threeWay true
  | move target hard => r.resetTo target hard
  | pick commit => r.cherryPick commit

/-- The runs of git for a backup: questions, the last of them about the branch that is to be
made, and then the runs that make it. -/
structure Precaution where
  early : List GitRun
  probe : GitRun
  tries : List GitRun
  backup : GitRun

namespace Precaution

/-- The runs in a row. -/
def log (p : Precaution) : List GitRun := p.early ++ p.probe :: p.tries ++ [p.backup]

/-- A branch was made at the last commit. It is named as backups are, and right before git has
said that there is no branch of that name. -/
structure Shows (p : Precaution) (r : Repository) (name : String) : Prop where
  named : r.IsBackup name
  early : ∀ g ∈ p.early, Asking g.arguments
  asked : p.probe.arguments = existence name
  answered : p.probe.reply.failure = none
  absent : p.probe.reply.code ≠ 0
  tries : ∀ g ∈ p.tries, g.arguments = p.backup.arguments ∧ ¬ g.Succeeded
  made : p.backup.arguments = ["branch", name, "HEAD"]
  succeeded : p.backup.Succeeded

end Precaution

/-- In front of each run that ventures something the log shows a precaution. -/
def Cautious (r : Repository) (log : List GitRun) : Prop :=
  ∀ early g late, log = early ++ g :: late → g.Ventures →
    ∃ name, ∃ p : Precaution, p.Shows r name ∧ p.log <+: early

variable {r : Repository} {w v : World} {name : String} {g : GitRun}

/-! ## Runs that venture nothing -/

/-- A question ventures nothing. -/
theorem Asking.not_ventures (h : Asking g.arguments) : ¬ g.Ventures := by
  rintro ⟨word, hword, hhead⟩
  obtain ⟨ask, hask, hfirst⟩ := h
  obtain rfl := Option.some.inj (hfirst.symm.trans hhead)
  rw [List.mem_cons, List.mem_cons, List.mem_singleton] at hword
  rcases hword with rfl | rfl | rfl <;> exact absurd hask (by decide)

/-- Nor does a new branch. -/
theorem not_ventures_of_branch (h : g.arguments = ["branch", name, "HEAD"]) : ¬ g.Ventures := by
  rintro ⟨word, hword, hhead⟩
  rw [h] at hhead
  obtain rfl := Option.some.inj hhead
  exact absurd hword (by decide)

/-- **A precaution ventures nothing itself.** -/
theorem Precaution.Shows.calm {p : Precaution} (h : p.Shows r name) :
    ∀ g ∈ p.log, ¬ g.Ventures := by
  have hprobe : Asking p.probe.arguments := h.asked ▸ existence_asking name
  have htries : ∀ g ∈ p.tries, ¬ g.Ventures := fun g hg =>
    not_ventures_of_branch ((h.tries g hg).1.trans h.made)
  rw [Precaution.log, List.append_assoc]
  refine List.forall_mem_append.2 ⟨fun g hg => (h.early g hg).not_ventures, ?_⟩
  refine List.forall_mem_cons.2 ⟨hprobe.not_ventures, ?_⟩
  exact List.forall_mem_append.2
    ⟨htries, List.forall_mem_singleton.2 (not_ventures_of_branch h.made)⟩

theorem hears_calm : r.Hears (Adds fun g => ¬ g.Ventures) := hears_adds fun _ hask => hask.not_ventures

/-- Whatever comes of a backup, it ventures nothing. -/
theorem backUp_calm (base : Option String) :
    Keeps (Adds fun g => ¬ g.Ventures) (r.backUp base) :=
  hears_calm.backUp (fun _ _ => run_adds fun _ hg => not_ventures_of_branch hg)
    (fun _ => Keeps.modify fun _ => ⟨[], .of_eq rfl rfl, fun _ hg => (List.not_mem_nil hg).elim⟩) base

/-! ## Backups -/

/-- **A backup that was made is a precaution.** -/
theorem backUp_shows {base : Option String} (hrun : (r.backUp base).run w = (.ok name, v)) :
    ∃ p : Precaution, p.Shows r name ∧ Ran p.log w v := by
  obtain ⟨bare, left, u, x, out, y, hbare, ⟨l, hasked, hl⟩, hfree, hbranch, hquiet, -⟩ :=
    backUp_parts hrun
  have hnamed : r.IsBackup name := (hears_asking.freeName hbare _ _).of_run hfree |>.2
  obtain ⟨early, probe, hearly, hprobe, hanswered, habsent, hsearch⟩ := freeName_ok hfree
  obtain ⟨backup, -, hsucceeded, hmade⟩ := (r.run_leads _ x).of_run rfl hbranch
  obtain ⟨z, ⟨tries, htries, hvain⟩, hlast⟩ := hmade.tried
  have hlog : (l ++ early) ++ probe :: tries ++ [backup] =
      l ++ ((early ++ [probe]) ++ (tries ++ ([backup] ++ []))) := by simp
  refine ⟨⟨l ++ early, probe, tries, backup⟩, ⟨hnamed, List.forall_mem_append.2 ⟨hl, hearly⟩,
    hprobe, hanswered, habsent, fun g hg => ⟨(hvain g hg).1.trans hmade.asked.symm, (hvain g hg).2⟩,
    hmade.asked, hsucceeded⟩, ?_⟩
  rw [Precaution.log, hlog]
  exact hasked.trans (hsearch.trans (htries.trans (hlast.trans hquiet.ran)))

/-! ## What follows a backup -/

theorem cautious_of_calm {log : List GitRun} (h : ∀ g ∈ log, ¬ g.Ventures) : r.Cautious log := by
  rintro early g late rfl hg
  exact (h g (List.mem_append_right _ List.mem_cons_self) hg).elim

/-- **Behind a precaution everything is cautious.** -/
theorem Precaution.Shows.cautious {p : Precaution} (h : p.Shows r name) (more : List GitRun) :
    r.Cautious (p.log ++ more) := by
  intro early g late hlog hg
  refine ⟨name, p, h, ?_⟩
  rcases List.append_eq_append_iff.1 hlog with ⟨behind, rfl, -⟩ | ⟨rest, hrest, hlast⟩
  · exact List.prefix_append p.log behind
  · -- the run would belong to the precaution, which ventures nothing
    cases rest with
    | nil => exact (List.append_nil early ▸ hrest) ▸ List.prefix_rfl
    | cons first rest =>
      obtain rfl : g = first := (List.cons.inj hlast).1
      exact (h.calm g (by simp [hrest]) hg).elim

/-- Between the two worlds git was run cautiously, and nothing was ventured if there was no
backup to begin with. -/
def Ventured (r : Repository) (w w' : World) : Prop :=
  ∃ log, Ran log w w' ∧ r.Cautious log ∧
    ((∀ name, ((r.backUp none).run w).1 ≠ .ok name) → ∀ g ∈ log, ¬ g.Ventures)

theorem ventured_of_calm (h : Adds (fun g => ¬ g.Ventures) w v) : r.Ventured w v := by
  obtain ⟨log, hran, hcalm⟩ := h
  exact ⟨log, hran, cautious_of_calm hcalm, fun _ => hcalm⟩

/-- **Work that begins with a backup is cautious**, whatever follows and wherever it ends. -/
theorem backUp_bind_ventured {rest : String → Act Unit}
    (hrest : ∀ name, Keeps (Adds fun _ => True) (rest name)) :
    r.Ventured w ((r.backUp none >>= rest).run w).2 := by
  rw [run_bind_eq]
  cases hbackup : (r.backUp none).run w with
  | mk made v =>
    cases made with
    | error f => exact ventured_of_calm ((backUp_calm none).of_stop hbackup)
    | ok name =>
      obtain ⟨p, hshows, hran⟩ := backUp_shows hbackup
      obtain ⟨more, hmore, -⟩ := (hrest name v).1
      refine ⟨p.log ++ more, hran.trans hmore, hshows.cautious more, fun hnone => ?_⟩
      exact (hnone name (by rw [hbackup])).elim

/-- Any call may be made behind a backup. -/
theorem bears_any : r.Bears (Adds fun _ => True) := bears_adds fun _ _ => trivial

theorem applyDiff_ventured (diff : String) (threeWay : Bool) :
    r.Ventured w ((r.applyDiff diff threeWay true).run w).2 := by
  rw [applyDiff, run_bind_eq, Act.ofExcept_run]
  cases hparse : (Diff.parse diff).mapError (·.toFault) with
  | error f => exact ventured_of_calm (refl_of (Adds _) w)
  | ok parsed =>
    refine backUp_bind_ventured fun _ =>
      (bears_any.tryDiff diff threeWay (touched_named hparse)).bind fun (before, out) hbefore => ?_
    have hback : Keeps (Adds fun _ => True)
        (if !out.succeeded then r.takeBack (touched parsed.1) before out else pure ()) := by
      split
      · exact bears_any.takeBack _ hbefore out
      · exact .pure trivial
    exact hback

theorem resetTo_ventured (target : String) (hard : Bool) :
    r.Ventured w ((r.resetTo target hard).run w).2 :=
  backUp_bind_ventured fun _ => (run_adds fun _ _ => trivial).bind fun _ => .pure trivial

theorem cherryPick_ventured (commit : String) :
    r.Ventured w ((r.cherryPick commit).run w).2 := by
  refine backUp_bind_ventured fun _ => (try_adds fun _ _ => trivial).bind fun out => ?_
  split
  · exact (try_adds fun _ _ => trivial).bind fun _ => .throw
  · exact .pure trivial

/-- **Nothing is ventured without a backup.** Whatever git answers, where a diff is applied,
the branch is moved or a commit is taken over, the log of git shows in front of each run that
may lose work that a backup was made in the same work, under a name of which git had said
right before that no branch has it; and if the backup fails there is no such run. The search
for the name ends whenever there are finitely many branches, and one name more than there are
branches is the most that it tries. -/
theorem Venture.act_cautious (x : Venture) (r : Repository) (w : World) :
    (∃ log, Ran log w ((x.act r).run w).2 ∧ r.Cautious log ∧
      ((∀ name, ((r.backUp none).run w).1 ≠ .ok name) → ∀ g ∈ log, ¬ g.Ventures)) ∧
    (w.outside.branches.Finite → ∀ name, ∃ outcome, Searches r name 0 w outcome ∧
      ∀ left, w.outside.branches.ncard < left → (r.freeName name left 0).run w = outcome) := by
  refine ⟨?_, fun hfinite name => search_ends hfinite name⟩
  cases x with
  | apply diff threeWay => exact applyDiff_ventured diff threeWay
  | move target hard => exact resetTo_ventured target hard
  | pick commit => exact cherryPick_ventured commit

end Repository

/-! ## A repository that has the first name -/

namespace Crowded

open Repository (existence)

/-- The repository. -/
def repository : Repository := ⟨⟨.root, ["project"]⟩, GitSettings.usual⟩

/-- The one branch of a backup. -/
def taken : String := "backup/main/10101_000000"

/-- A git that knows no other branch and does all else that it is asked. -/
def git (calls : List GitCall) : GitReply :=
  let arguments := (calls.getLast?.map GitCall.arguments).getD []
  { (default : GitReply) with
    code := if arguments.head? = some "show-ref" ∧ arguments ≠ existence taken then 1 else 0
    out := "main\n".toUTF8 }

/-- The world with that git. -/
def world : World := { (default : World) with
  outside := { (default : Outside) with git := git } }

theorem branches_subset : world.outside.branches ⊆ {taken} := by
  rintro name ⟨calls, c, hasked, hsucceeded⟩
  have hcode : (if c.arguments.head? = some "show-ref" ∧ c.arguments ≠ existence taken
      then (1 : Int) else 0) = 0 := by
    have := hsucceeded.code
    simpa [world, git] using this
  by_contra hname
  rw [if_pos] at hcode
  · exact absurd hcode (by decide)
  · refine ⟨by rw [hasked]; rfl, fun hsame => hname ?_⟩
    have hlast : existence name = existence taken := hasked.symm.trans hsame
    simpa [existence] using hlast

/-- What the search for a name comes to. -/
theorem search_second :
    ((repository.freeName taken 2 0).run world).1.toOption = some (taken ++ "-1") := by
  decide +kernel

/-- A commit is taken over. -/
theorem pick_ventures :
    (((Repository.Venture.pick "c").act repository).run world).2.gitCalls.any
      (fun c => c.arguments.head? == some "cherry-pick") = true := by
  decide +kernel

end Crowded

namespace Repository

/-- There a commit is taken over behind a backup, and the search for its name finds the
second one. -/
theorem Venture.act_cautious_crowded :
    (∃ log, Ran log Crowded.world (((Venture.pick "c").act Crowded.repository).run Crowded.world).2 ∧
      Crowded.repository.Cautious log ∧ ∃ g ∈ log, g.Ventures) ∧
    ∃ outcome, Searches Crowded.repository Crowded.taken 0 Crowded.world outcome ∧
      outcome.1.toOption = some (Crowded.taken ++ "-1") := by
  obtain ⟨⟨log, hran, hcautious, -⟩, hsearch⟩ :=
    (Venture.pick "c").act_cautious Crowded.repository Crowded.world
  have hone : ({Crowded.taken} : Set String).Finite := Set.finite_singleton _
  have hfew : Crowded.world.outside.branches.ncard < 2 := by
    have := Set.ncard_le_ncard Crowded.branches_subset hone
    rw [Set.ncard_singleton] at this
    omega
  obtain ⟨outcome, hends, hsame⟩ := hsearch (hone.subset Crowded.branches_subset) Crowded.taken
  refine ⟨⟨log, hran, hcautious, ?_⟩, outcome, hends, hsame 2 hfew ▸ Crowded.search_second⟩
  have hventures := Crowded.pick_ventures
  rw [hran.calls] at hventures
  obtain ⟨c, hc, hhead⟩ := List.any_eq_true.1 hventures
  obtain ⟨g, hg, rfl⟩ := List.mem_map.1 hc
  exact ⟨g, hg, "cherry-pick", by decide, beq_iff_eq.1 hhead⟩

end Repository

end RepairLoop
