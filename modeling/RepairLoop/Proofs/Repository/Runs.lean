import RepairLoop.Proofs.Diff.Parsed
import RepairLoop.Proofs.World.Obeys
import RepairLoop.Proofs.World.Runs
import RepairLoop.Repository.History
import RepairLoop.Repository.Mutation
/-!
# Repository — what git is run for

A call that is tried until the repository is free comes to some runs in vain
and then to the one that counts (`tryWith_leads`, `run_leads`). Most of what
is done in a repository is `Routine`: it asks, it changes the working tree and
the index, it commits, or it makes a backup. A relation between worlds that
bears the routine runs (`Bears`) is kept by all work that comes to nothing
else, shown here once for every such relation.
-/

namespace RepairLoop

open Act (Keeps Obeys Leads)
open World (Ran Adds Quiet Still)

theorem GitOutput.succeeded_iff (reply : GitReply) :
    (ofReply reply).succeeded = true ↔ reply.code = 0 := beq_iff_eq

/-! ## Single calls -/

/-- Git was run for the same some times, and never with success. -/
def World.InVain (arguments : List String) (w w' : World) : Prop :=
  Adds (fun g => g.arguments = arguments ∧ ¬ g.Succeeded) w w'

/-- Git was run for the same some times in vain, and then once with an answer. -/
structure World.Answered (arguments : List String) (g : GitRun) (w w' : World) : Prop where
  asked : g.arguments = arguments
  tried : ∃ v, InVain arguments w v ∧ Ran [g] v w'
  ran : g.reply.failure = none

open World (InVain Answered)

/-- The outside answers as before. -/
theorem World.Answered.outside {arguments : List String} {g : GitRun} {w w' : World}
    (h : Answered arguments g w w') : w'.outside = w.outside := by
  obtain ⟨v, ⟨l, hvain, -⟩, hlast⟩ := h.tried
  exact hlast.outside.trans hvain.outside

/-- An answer that reports a failure is one more run in vain. -/
theorem World.Answered.inVain {arguments : List String} {g : GitRun} {w w' : World}
    (h : Answered arguments g w w') (hcode : g.reply.code ≠ 0) : InVain arguments w w' := by
  obtain ⟨v, hvain, hran⟩ := h.tried
  refine trans_of (Adds _) hvain ⟨_, hran, fun g' hg => ?_⟩
  obtain rfl := List.mem_singleton.1 hg
  exact ⟨h.asked, fun hsucceeded => hcode hsucceeded.code⟩

/-- All runs for an answer are of a kind if those in vain and the last one are. -/
theorem World.Answered.adds {P : GitRun → Prop} {arguments : List String} {g : GitRun}
    {w w' : World} (h : Answered arguments g w w')
    (hvain : ∀ g' : GitRun, g'.arguments = arguments → ¬ g'.Succeeded → P g') (hlast : P g) :
    Adds P w w' := by
  obtain ⟨v, htried, hran⟩ := h.tried
  refine trans_of (Adds P) (htried.mono fun g' hg => hvain g' hg.1 hg.2) ⟨_, hran, fun g' hg => ?_⟩
  exact List.mem_singleton.1 hg ▸ hlast

namespace Repository

variable (r : Repository) {w w' : World}

/-- One run goes on with what was tried before. -/
theorem git_leads (c : GitCall) (w : World) :
    Leads (InVain c.arguments w) (GitOutput.ofReply <$> Act.git c)
      (fun out v => ∃ g, out = .ofReply g.reply ∧ Answered c.arguments g w v)
      (InVain c.arguments w) := by
  refine Leads.map fun v hv => ?_
  cases hrun : (Act.git c).run v with
  | mk result v' =>
    cases result with
    | ok reply =>
      obtain ⟨hran, hfailure⟩ := Act.git_ok hrun
      exact ⟨⟨c, reply⟩, rfl, rfl, ⟨v, hv, hran⟩, hfailure⟩
    | error f =>
      obtain ⟨hran, hfailed⟩ := Act.git_stopped hrun
      refine trans_of (Adds _) hv ⟨_, hran, fun g hg => ?_⟩
      obtain rfl := List.mem_singleton.1 hg
      exact ⟨rfl, hfailed⟩

/-- **A call leads where each of its runs does**, as long as a run that finds the repository
held and the pause behind it lead back to the start. -/
theorem runFrom_leads_of {c : GitCall} {P : World → Prop} {Q : GitOutput → World → Prop}
    (hgit : Leads P (GitOutput.ofReply <$> Act.git c) Q P)
    (hbusy : ∀ out v, out.isBusy = true → Q out v → P v) (hpause : ∀ v u, P v → Still v u → P u)
    (left tried : Nat) : Leads P (r.runFrom c left tried) Q P := by
  induction left generalizing tried with
  | zero => exact hgit
  | succ left ih =>
    refine hgit.bind fun out => ?_
    split
    · -- the repository is held, and the next try starts where the first one did
      rename_i hheld
      have hwait (time : Float) : Leads P (Act.yield_ (.real time)) (fun _ => P) P :=
        (Leads.of_obeys (Act.yield_still _) hpause).post fun _ _ h => h.2
      have hdelay : Leads (Q out) (Act.ofExcept (r.pauseBefore tried)) (fun _ => P) P :=
        .ofExcept (fun v _ hv _ => hbusy out v hheld hv) fun v hv => hbusy out v hheld hv
      exact hdelay.bind fun time => (hwait time).bind fun _ => ih (tried + 1)
    · exact .pure fun _ hv => hv

theorem runFrom_leads (c : GitCall) (left tried : Nat) (w : World) :
    Leads (InVain c.arguments w) (r.runFrom c left tried)
      (fun out v => ∃ g, out = .ofReply g.reply ∧ Answered c.arguments g w v)
      (InVain c.arguments w) := by
  refine r.runFrom_leads_of (git_leads c w) ?_ (fun _ _ hv hs => trans_of (Adds _) hv hs.adds) _ _
  rintro _ v hbusy ⟨g, rfl, hanswered⟩
  refine hanswered.inVain fun hcode => ?_
  simp [GitOutput.isBusy, GitOutput.ofReply, hcode] at hbusy

/-- **A call comes to an answer or is in vain.** -/
theorem tryWith_leads (arguments : List String) (patch : Option String) (w : World) :
    Leads (· = w) (r.tryWith arguments patch)
      (fun out v => ∃ g, out = .ofReply g.reply ∧ Answered arguments g w v)
      (InVain arguments w) :=
  (r.runFrom_leads (r.call arguments patch) _ _ w).pre fun _ hv => hv ▸ refl_of (Adds _) w

/-- **A try that finds the repository free is the last one.** -/
theorem runFrom_run_free {c : GitCall} {reply : GitReply}
    (hgit : (Act.git c).run w = (.ok reply, w'))
    (hfree : (GitOutput.ofReply reply).isBusy = false) (left tried : Nat) :
    (r.runFrom c left tried).run w = (.ok (.ofReply reply), w') := by
  cases left with
  | zero => rw [runFrom, ← bind_pure_comp, run_bind_of_ok hgit]; rfl
  | succ left =>
    rw [runFrom, ← bind_pure_comp, bind_assoc, run_bind_of_ok hgit, pure_bind, hfree]
    rfl

/-- **One that finds it held is followed by the next one**, as long as the pause in front of that
can be doubled. -/
theorem runFrom_run_held {c : GitCall} {reply : GitReply} {tried : Nat}
    (hgit : (Act.git c).run w = (.ok reply, w'))
    (hbusy : (GitOutput.ofReply reply).isBusy = true) (htried : tried < 1024) (left : Nat) :
    ∃ u, Still w' u ∧
      (r.runFrom c (left + 1) tried).run w = (r.runFrom c left (tried + 1)).run u := by
  have hpause : r.pauseBefore tried =
      .ok (r.settings.lockBackoff * Number.ofInt (Number.twoTo tried)) := if_pos htried
  refine ⟨_, (Act.yield_still (.real (r.settings.lockBackoff * Number.ofInt (Number.twoTo tried))) w').1, ?_⟩
  rw [runFrom, ← bind_pure_comp, bind_assoc, run_bind_of_ok hgit, pure_bind, hbusy, if_pos rfl, hpause]
  rfl

/-- A call that is answered at once is run once. -/
theorem tryWith_run {arguments : List String} {patch : Option String} {w : World}
    {reply : GitReply} (hreply : w.outside.git (w.gitCalls ++ [r.call arguments patch]) = reply)
    (hran : reply.failure = none) (hbusy : (GitOutput.ofReply reply).isBusy = false) :
    (r.tryWith arguments patch).run w =
      (.ok (.ofReply reply), Act.afterGit (r.call arguments patch) w) := by
  have hgit : (Act.git (r.call arguments patch)).run w =
      (.ok reply, Act.afterGit (r.call arguments patch) w) := by
    rw [Act.git_run, hreply, hran]
  exact r.runFrom_run_free hgit hbusy _ _

/-- **A call that must succeed** does, or all of it is in vain. -/
theorem run_leads (arguments : List String) (w : World) :
    Leads (· = w) (r.run arguments)
      (fun out v => ∃ g, out = .ofReply g.reply ∧ g.Succeeded ∧ Answered arguments g w v)
      (InVain arguments w) := by
  refine (r.tryWith_leads arguments none w).bind fun out => ?_
  split
  · rename_i hsucceeded
    refine .pure fun v ⟨g, hout, hanswered⟩ => ⟨g, hout, ⟨hanswered.ran, ?_⟩, hanswered⟩
    exact (GitOutput.succeeded_iff g.reply).1 (hout ▸ hsucceeded)
  · rename_i hfailed
    refine .throw fun v ⟨g, hout, hanswered⟩ => hanswered.inVain fun hcode => ?_
    exact hfailed (hout ▸ (GitOutput.succeeded_iff g.reply).2 hcode)

/-! ## Routine -/

/-- What only asks, by its first word. -/
def Asking (arguments : List String) : Prop :=
  ∃ word ∈ ["rev-parse", "show-ref", "status", "diff", "log"], arguments.head? = some word

/-- A branch is named as backups are. -/
def IsBackup (name : String) : Prop :=
  (r.settings.backupPrefix ++ "/").toList <+: name.toList

/-- What git is asked that neither moves to another branch nor takes anything
away: questions, changes of the working tree, the index and the branch that is
checked out, and backups. -/
inductive Routine : List String → Prop
  | ask {arguments : List String} (h : Asking arguments) : Routine arguments
  | change {word : String} {rest : List String} (h : word ∈ ["apply", "add", "commit"]) :
    Routine (word :: rest)
  | unstage (paths : List String) : Routine ("reset" :: "--quiet" :: "--" :: paths)
  | backup {name : String} (h : r.IsBackup name) : Routine ["branch", name, "HEAD"]

variable {r} in
/-- What is routine begins with one of a few words. -/
theorem Routine.head {arguments : List String} (h : r.Routine arguments) :
    ∃ word ∈ ["rev-parse", "show-ref", "status", "diff", "log", "apply", "add", "commit", "reset",
      "branch"], arguments.head? = some word := by
  cases h with
  | ask hask =>
    obtain ⟨word, hword, hhead⟩ := hask
    exact ⟨word, List.mem_append_left ["apply", "add", "commit", "reset", "branch"] hword, hhead⟩
  | @change word rest hword =>
    rw [List.mem_cons, List.mem_cons, List.mem_singleton] at hword
    rcases hword with rfl | rfl | rfl <;> exact ⟨_, by decide, rfl⟩
  | unstage => exact ⟨_, by decide, rfl⟩
  | backup => exact ⟨_, by decide, rfl⟩

/-- The relation bears every question, and every step that runs nothing. -/
structure Hears (R : World → World → Prop) : Prop where
  still : ∀ w w', Still w w' → R w w'
  asks : ∀ arguments patch, Asking arguments → Keeps R (Act.git (r.call arguments patch))

/-- The paths are such as a diff may name. -/
def Snapshot.Named (before : Snapshot) : Prop := ∀ e ∈ before, Diff.Named e.1

/-- The relation bears every routine run, every step that runs nothing, and that files
named in a diff are put back. -/
structure Bears (R : World → World → Prop) : Prop where
  still : ∀ w w', Still w w' → R w w'
  git : ∀ arguments patch, r.Routine arguments → Keeps R (Act.git (r.call arguments patch))
  restores : ∀ before : Snapshot, before.Named → Keeps R (r.restore before)

variable {r}

theorem hears_adds {P : GitRun → Prop} (h : ∀ g : GitRun, Asking g.arguments → P g) :
    r.Hears (Adds P) :=
  ⟨fun _ _ hs => hs.adds, fun arguments patch hask => Act.git_adds fun g hg => h g (by
    rwa [GitRun.arguments, hg])⟩

/-! ### Calls -/

section

variable {R : World → World → Prop} [IsPreorder World R]

/-- **A call is borne if its runs are**, and the pauses between them. -/
theorem runFrom_keeps {c : GitCall} (hgit : Keeps R (Act.git c))
    (hpause : ∀ time, Keeps R (Act.yield_ time)) (left tried : Nat) :
    Keeps R (r.runFrom c left tried) := by
  induction left generalizing tried with
  | zero => exact hgit.map
  | succ left ih =>
    refine hgit.map.bind fun out => ?_
    split
    · exact Keeps.ofExcept.bind fun _ => (hpause _).bind fun _ => ih (tried + 1)
    · exact .pure trivial

/-- A call that must succeed stops its caller or not. -/
theorem run_keeps {arguments : List String} (htry : Keeps R (r.try_ arguments)) :
    Keeps R (r.run arguments) := by
  refine htry.bind fun out => ?_
  split
  · exact .pure trivial
  · exact .throw

theorem try_adds {P : GitRun → Prop} {arguments : List String}
    (h : ∀ g : GitRun, g.arguments = arguments → P g) : Keeps (Adds P) (r.try_ arguments) :=
  runFrom_keeps (Act.git_adds fun g hg => h g (by rw [GitRun.arguments, hg]; rfl))
    (fun _ => (Act.yield_still _).weaken fun _ _ hs => hs.adds) _ _

theorem run_adds {P : GitRun → Prop} {arguments : List String}
    (h : ∀ g : GitRun, g.arguments = arguments → P g) : Keeps (Adds P) (r.run arguments) :=
  run_keeps (try_adds h)

end

/-! ### Questions -/

namespace Hears

variable {R : World → World → Prop}

theorem of_still {α : Type} {x : Act α} (h : r.Hears R) (hx : Keeps Still x) : Keeps R x :=
  hx.weaken h.still

variable [IsPreorder World R] (h : r.Hears R)

include h

theorem try_ {arguments : List String} (hask : Asking arguments) : Keeps R (r.try_ arguments) :=
  runFrom_keeps (h.asks _ _ hask) (fun _ => h.of_still (Act.yield_still _)) _ _

theorem run {arguments : List String} (hask : Asking arguments) : Keeps R (r.run arguments) :=
  run_keeps (h.try_ hask)

theorem status (untracked : Bool) : Keeps R (r.status untracked) :=
  (h.run ⟨_, by decide, rfl⟩).bind fun _ => .pure trivial

theorem isClean (untracked : Bool) : Keeps R (r.isClean untracked) := (h.status untracked).map

theorem currentBranch : Keeps R r.currentBranch :=
  (h.try_ ⟨_, by decide, rfl⟩).bind fun _ => .pure trivial

theorem head : Keeps R r.head := (h.try_ ⟨_, by decide, rfl⟩).bind fun _ => .pure trivial

theorem hasBranch (name : String) : Keeps R (r.hasBranch name) :=
  (h.try_ ⟨_, by decide, rfl⟩).bind fun _ => .pure trivial

theorem difference (base target : String) (paths : List String) :
    Keeps R (r.difference base target paths) :=
  (h.run ⟨_, by decide, rfl⟩).bind fun _ => .pure trivial

/-- **A free name is the bare name or begins with it.** -/
theorem freeName {name : String} (hname : r.IsBackup name) (left number : Nat) :
    Obeys R r.IsBackup (r.freeName name left number) := by
  have hnumbered (n : Nat) : r.IsBackup (numbered name n) := by
    rw [numbered]
    split
    · exact hname
    · refine hname.trans ⟨("-" ++ toString n).toList, ?_⟩
      simp [toString]
  induction left generalizing number with
  | zero => exact .throw
  | succ left ih =>
    refine (h.hasBranch _).bind fun found => ?_
    split
    · exact ih (number + 1)
    · exact .pure (hnumbered number)

theorem backupBase (base : Option String) : Keeps R (r.backupBase base) := by
  have hcurrent : Keeps R (backupBase.current r) :=
    h.currentBranch.bind fun _ => .pure trivial
  unfold Repository.backupBase
  split
  · split
    · exact .pure trivial
    · exact hcurrent
  · exact hcurrent

end Hears

/-- The name that a backup is given if no branch has it. -/
theorem isBackup_bare (r : Repository) (base : String) (now : Moment) :
    r.IsBackup s!"{r.settings.backupPrefix}/{base}/{stamp now}" := by
  refine ⟨(base ++ "/" ++ stamp now).toList, ?_⟩
  simp [toString]

/-! ### Backups and changes -/

/-- A diff names only what may be named. -/
theorem touched_named {diff : String} {parsed : List Diff.FilePatch × List String}
    (h : (Diff.parse diff).mapError (·.toFault) = .ok parsed) :
    ∀ p ∈ touched parsed.1, Diff.Named p := by
  have hparse := mapError_eq_ok.1 h
  have hlegible := (Diff.parseChars_legible hparse).1
  intro p hp
  rw [touched, List.mem_mergeSort, List.mem_eraseDups, List.mem_filter, List.mem_flatMap] at hp
  obtain ⟨⟨f, hf, hp⟩, -⟩ := hp
  rw [List.mem_append, Option.mem_toList, Option.mem_toList] at hp
  exact hp.elim ((hlegible f hf).old p) ((hlegible f hf).new p)

/-- **What stands at the paths** is taken down path by path, where all of them can be looked
at. -/
theorem snapshot_eq {files : FileTree} {paths : List String} {before : Snapshot}
    (h : r.snapshot files paths = .ok before) :
    before = paths.map fun p => (p, files.content? (r.pathOf p).parts) := by
  induction paths generalizing before with
  | nil =>
    cases h
    rfl
  | cons p rest ih =>
    rw [snapshot] at h
    split at h
    · cases h
    · obtain ⟨behind, hbehind, hbefore⟩ := ok_of_bind h
      cases hbefore
      rw [ih hbehind, List.map_cons]

theorem snapshot_named {files : FileTree} {paths : List String} {before : Snapshot}
    (hnamed : ∀ p ∈ paths, Diff.Named p) (h : r.snapshot files paths = .ok before) :
    before.Named := by
  intro e he
  rw [snapshot_eq h] at he
  obtain ⟨p, hp, rfl⟩ := List.mem_map.1 he
  exact hnamed p hp

/-- A commit and a backup, as far as git is asked for them. -/
theorem Hears.commit {R : World → World → Prop} [IsPreorder World R] (h : r.Hears R)
    {message : String} {files : List String} {author : Option (String × String)}
    (hadd : ∀ rest, Keeps R (r.run ("add" :: rest)))
    (hcommit : ∀ rest, Keeps R (r.run ("commit" :: rest))) :
    Keeps R (r.commit message files author) := by
  have hstage : Keeps R (r.run (if files.isEmpty then ["add", "-A"] else ["add", "-A", "--"] ++ files)) := by
    split <;> exact hadd _
  unfold Repository.commit
  split
  refine hstage.bind fun _ => (hcommit _).bind fun _ => h.head.bind fun head => ?_
  split
  · exact .pure trivial
  · exact .throw

theorem Hears.backUp {R : World → World → Prop} [IsPreorder World R] (h : r.Hears R)
    (hbranch : ∀ name, r.IsBackup name → Keeps R (r.run ["branch", name, "HEAD"]))
    (hnoted : ∀ name : String,
      Keeps R (modify fun w => { w with lastBackup := some name } : Act Unit))
    (base : Option String) : Keeps R (r.backUp base) := by
  refine h.head.bind fun head => ?_
  split
  · exact .throw
  · refine (h.backupBase base).bind fun base => (h.of_still Act.now_still).bind fun now => ?_
    refine Keeps.get.bind fun _ =>
      (h.freeName (isBackup_bare r base now) _ _).bind fun name hbackup => ?_
    exact (hbranch name hbackup).bind fun _ => (hnoted name).bind fun _ =>
      (h.of_still (Act.emit_still _)).bind fun _ => .pure trivial

namespace Bears

variable {R : World → World → Prop}

theorem hears (h : r.Bears R) : r.Hears R :=
  ⟨h.still, fun arguments patch hask => h.git arguments patch (.ask hask)⟩

theorem of_still {α : Type} {x : Act α} (h : r.Bears R) (hx : Keeps Still x) : Keeps R x :=
  hx.weaken h.still

variable [IsPreorder World R]

/-- It is enough to bear the routine runs and whatever is done without git. -/
theorem of_quiet (hquiet : ∀ w w', Quiet w w' → R w w')
    (hgit : ∀ arguments patch, r.Routine arguments → Keeps R (Act.git (r.call arguments patch))) :
    r.Bears R := by
  have hset (f : FileTree → FileTree) : Keeps R (Act.setFiles f) :=
    (Act.setFiles_quiet f).weaken hquiet
  have hfiles : Keeps R Act.files := Act.files_quiet.weaken hquiet
  have hrestore (before : Snapshot) : Keeps R (r.restore before) := by
    induction before with
    | nil => exact .pure trivial
    | cons entry rest ih =>
      exact hfiles.bind fun _ => Keeps.ofExcept.bind fun _ => (hset _).bind fun _ => ih
  exact ⟨fun w w' h => hquiet w w' h.toQuiet, hgit, fun before _ => hrestore before⟩

variable (h : r.Bears R)

include h

theorem tryWith {arguments : List String} (hroutine : r.Routine arguments)
    (patch : Option String) : Keeps R (r.tryWith arguments patch) :=
  runFrom_keeps (h.git _ _ hroutine) (fun _ => h.of_still (Act.yield_still _)) _ _

theorem run {arguments : List String} (hroutine : r.Routine arguments) :
    Keeps R (r.run arguments) := run_keeps (h.tryWith hroutine none)

/-- **A backup is routine.** -/
theorem backUp (base : Option String) : Keeps R (r.backUp base) := by
  refine h.hears.backUp (fun name hbackup => h.run (.backup hbackup)) (fun name => ?_) base
  exact h.of_still (Keeps.modify fun _ => ⟨.of_eq rfl rfl rfl rfl rfl, rfl, rfl, rfl, rfl⟩)

/-- To give git a diff is routine, and what is taken down before has the names of the
paths. -/
theorem tryDiff (diff : String) (threeWay : Bool) {paths : List String}
    (hnamed : ∀ p ∈ paths, Diff.Named p) :
    Obeys R (fun tried => tried.1.Named) (r.tryDiff diff threeWay paths) := by
  have happly (options : List String) (name : String) :
      r.Routine (["apply", "--whitespace=nowarn"] ++ options ++ [name]) :=
    @Routine.change r "apply" _ (by decide)
  refine (h.of_still Act.files_still).bind fun files => ?_
  refine (Obeys.ofExcept (Q := Snapshot.Named) fun before hbefore =>
    snapshot_named hnamed (mapError_eq_ok.1 hbefore)).bind fun before hbefore => ?_
  exact Keeps.get.bind fun _ => (h.tryWith (happly _ _) _).bind fun _ => .pure hbefore

/-- To take a diff back is routine. -/
theorem takeBack (paths : List String) {before : Snapshot} (hnamed : before.Named)
    (out : GitOutput) : Keeps R (r.takeBack paths before out) := by
  refine (h.restores before hnamed).bind fun _ => Keeps.when (h.tryWith (.unstage paths) none) ?_
  exact (h.of_still (Act.emit_still _)).bind fun _ => .throw

/-- **To apply a diff is routine**, and to put back what it has touched. -/
theorem applyDiff (diff : String) (threeWay backup : Bool) :
    Keeps R (r.applyDiff diff threeWay backup) := by
  refine (Obeys.ofExcept (Q := fun parsed => ∀ p ∈ touched parsed.1, Diff.Named p)
    fun parsed hparsed => touched_named hparsed).bind fun parsed hnamed => Keeps.when (h.backUp none) ?_
  refine (h.tryDiff diff threeWay hnamed).bind fun (before, out) hbefore => ?_
  have hback : Keeps R (if !out.succeeded then r.takeBack (touched parsed.1) before out else pure ()) := by
    split
    · exact h.takeBack _ hbefore _
    · exact .pure trivial
  exact hback

/-- **To commit is routine.** -/
theorem commit (message : String) (files : List String) (author : Option (String × String)) :
    Keeps R (r.commit message files author) :=
  h.hears.commit (fun _ => h.run (.change (by decide))) fun _ => h.run (.change (by decide))

theorem commitBaseline (message : String) : Keeps R (r.commitBaseline message) := by
  refine (h.hears.isClean true).bind fun clean => ?_
  split
  · exact h.hears.head
  · exact (h.commit _ _ _).map

end Bears

theorem bears_adds {P : GitRun → Prop} (h : ∀ g : GitRun, r.Routine g.arguments → P g) :
    r.Bears (Adds P) :=
  .of_quiet (fun _ _ hq => hq.adds) fun arguments patch hroutine => Act.git_adds fun g hg =>
    h g (by rwa [GitRun.arguments, hg])

end Repository

end RepairLoop

/-!
## Repository — nothing that is done in a repository touches the stores

All work in a repository comes to runs of git, pauses, changes to files,
readings of the clock and events. So it leaves the stores alone, whatever
git answers.
-/

namespace RepairLoop.Repository

open Act (Keeps Obeys git_apart)
open World (Apart)

variable (r : Repository)

theorem refuse_apart {α : Type} (message : String) (details : Members) :
    Keeps Apart (refuse message details : Act α) :=
  .throw

section

variable {R : World → World → Prop} [IsPreorder World R] (hfiles : Keeps R Act.files)
variable (root : Path) (settings : GitSettings)

include hfiles

/-- A repository is found by a look at the files. -/
theorem at_keeps : Keeps R (at_ root settings) := by
  refine Keeps.get.bind fun w => hfiles.bind fun files => ?_
  split
  · exact .pure trivial
  · exact .throw

/-- And made by a run of git. -/
theorem create_keeps (hgit : ∀ c, Keeps R (Act.git c)) : Keeps R (create root settings) := by
  refine Keeps.get.bind fun w => (hgit _).map.bind fun out => ?_
  split
  · exact at_keeps hfiles _ _
  · exact .throw

end

theorem at_apart (root : Path) (settings : GitSettings) : Keeps Apart (at_ root settings) :=
  at_keeps Act.files_apart root settings

/-! ### Routine -/

theorem bears_apart : r.Bears Apart := .of_quiet (fun _ _ h => h.apart) fun _ _ _ => git_apart _

theorem try_apart (arguments : List String) : Keeps Apart (r.try_ arguments) :=
  runFrom_keeps (git_apart _) Act.yield_apart _ _

theorem run_apart (arguments : List String) : Keeps Apart (r.run arguments) :=
  run_keeps (r.try_apart arguments)

theorem status_apart (untracked : Bool) : Keeps Apart (r.status untracked) :=
  r.bears_apart.hears.status untracked

theorem isClean_apart (untracked : Bool) : Keeps Apart (r.isClean untracked) :=
  r.bears_apart.hears.isClean untracked

theorem currentBranch_apart : Keeps Apart r.currentBranch := r.bears_apart.hears.currentBranch

theorem head_apart : Keeps Apart r.head := r.bears_apart.hears.head

theorem hasBranch_apart (name : String) : Keeps Apart (r.hasBranch name) :=
  r.bears_apart.hears.hasBranch name

theorem difference_apart (base target : String) (paths : List String) :
    Keeps Apart (r.difference base target paths) :=
  r.bears_apart.hears.difference base target paths

theorem backUp_apart (base : Option String) : Keeps Apart (r.backUp base) :=
  r.bears_apart.backUp base

/-- **A diff that is applied leaves the stores alone**, and one that does
not apply as well. -/
theorem applyDiff_apart (diff : String) (threeWay backup : Bool) :
    Keeps Apart (r.applyDiff diff threeWay backup) :=
  r.bears_apart.applyDiff diff threeWay backup

theorem commit_apart (message : String) (files : List String) (author : Option (String × String)) :
    Keeps Apart (r.commit message files author) :=
  r.bears_apart.commit message files author

/-! ### Branches -/

theorem isolate_apart (issue patch start : String) : Keeps Apart (r.isolate issue patch start) := by
  refine (r.hasBranch_apart _).bind fun found => ?_
  split
  · exact refuse_apart _ _
  · exact (r.run_apart _).bind fun _ => .pure trivial

theorem checkOut_apart (branch : String) : Keeps Apart (r.checkOut branch) :=
  (r.run_apart _).bind fun _ => .pure trivial

theorem deleteBranch_apart (name : String) (force : Bool) :
    Keeps Apart (r.deleteBranch name force) :=
  (r.run_apart _).bind fun _ => .pure trivial

theorem commitBaseline_apart (message : String) : Keeps Apart (r.commitBaseline message) :=
  r.bears_apart.commitBaseline message

theorem resetTo_apart (target : String) (hard : Bool) : Keeps Apart (r.resetTo target hard) :=
  (r.backUp_apart none).bind fun _ => (r.run_apart _).bind fun _ => .pure trivial

theorem cherryPick_apart (picked : String) : Keeps Apart (r.cherryPick picked) := by
  refine (r.backUp_apart none).bind fun _ => (r.try_apart _).bind fun out => ?_
  split
  · exact (r.try_apart _).bind fun _ => .throw
  · exact .pure trivial

end RepairLoop.Repository
