import RepairLoop.Proofs.Files.Change
import RepairLoop.Proofs.Repository.Mild
/-!
# Repository — what is left of a diff that does not apply

Git may have written and deleted files that a diff names before it reports that the diff does
not apply. What was a file or was not there before is put back as it was, one path at a time
(`Mendable.restoreOne`), and behind all of them nothing shows what git did
(`Mendable.restore`). A directory is not taken away, though: where one stands at a named
path, the work stops there with a fault of the files instead of the refusal (`restore_stuck`).
So a diff that does not apply leaves no trace exactly where no directory stands at a named path
behind the run of git (`applyDiff_rejected`).
-/

namespace RepairLoop

open Act (Keeps)
open FileTree (SameContents Tampered Tampers Touches isLeaf_iff content?_congr
  isDirectory_congr entry?_eq_none)
open World (Intact Fixed)

namespace Repository

variable {r : Repository} {t u : FileTree} {may : Location → Prop} {w v : World}
variable {paths : List String} {out : GitOutput} {before : Snapshot}

/-! ## One path -/

/-- **What is put back was no directory**, and nothing else is touched. -/
theorem restoreOne_ok {path : String} {content : Option ByteArray} (ht : t.Grounded)
    (h : r.restoreOne t path content = .ok u) :
    t.isDirectory (r.pathOf path).parts = false ∧ Tampered ((r.pathOf path).parts = ·) t u := by
  cases content with
  | none =>
    obtain ⟨hfile, hentries⟩ := ht.unlink_ok h
    refine ⟨hfile, ?_⟩
    by_cases hthere : t.has (r.pathOf path).parts = true
    · have hleaf := isLeaf_iff.2 ⟨hthere, hfile⟩
      exact ((Touches.delete rfl hleaf).tampered ht).of_entries fun q =>
        (hentries q).trans (ht.entry?_remove hleaf q).symm
    · refine ht.untouched.of_entries fun q => (hentries q).trans ?_
      split
      · rename_i hsame
        exact hsame ▸ (entry?_eq_none.2 (by simpa using hthere)).symm
      · rfl
  | some content =>
    obtain ⟨hfree, hfile, hentries⟩ := ht.writeDeep_ok h
    exact ⟨hfile, ((Touches.write rfl hfree hfile content).tampered ht).of_entries hentries⟩

/-- The first tree became the second one by changes to some files, and no directory stands at
one of them: all of them can be put back. -/
structure Mendable (may : Location → Prop) (t u : FileTree) : Prop where
  before : t.Grounded
  linkless : ∀ l, may l → ∀ target, t.entry? l ≠ some (.link target)
  tampered : Tampered may t u
  free : ∀ l, may l → u.isDirectory l = false

namespace Mendable

variable (h : Mendable may t u) {path : String}

include h

/-- There was no directory before. -/
theorem file {l : Location} (hl : may l) : t.isDirectory l = false := by
  by_contra hdirectory
  have hkept := h.tampered.kept l (by simpa using hdirectory)
  rw [h.free l hl] at hkept
  cases hkept

theorem old {l : Location} (hl : may l) : t.entry? l = (t.content? l).map .file :=
  FileTree.entry_of_content (h.file hl) (h.linkless l hl)

/-- The directories around a file are still there. -/
theorem around {p q : Location} (hp : t.has p = true) (hq : q <+: p) (hne : q ≠ p) :
    u.isDirectory q = true := by
  refine h.tampered.kept q ?_
  by_contra hfile
  have hleaf : t.isLeaf q = true := isLeaf_iff.2 ⟨FileTree.has_above hp hq, by simpa using hfile⟩
  rw [h.before.leaves q p hleaf hq hne] at hp
  cases hp

/-- **One path is put back** as it was, and all others stay as they are. -/
theorem restoreOne_entries (hmay : may (r.pathOf path).parts) :
    ∃ u', r.restoreOne u path (t.content? (r.pathOf path).parts) = .ok u' ∧
      ∀ l, u'.entry? l = if (r.pathOf path).parts = l then t.entry? l else u.entry? l := by
  have hgrounded := h.tampered.grounded
  have hold := h.old hmay
  cases hcontent : t.content? (r.pathOf path).parts with
  | none =>
    obtain ⟨u', hu'⟩ := FileTree.unlink_isOk (h.free _ hmay)
    refine ⟨u', hu', fun l => ?_⟩
    rw [(hgrounded.unlink_ok hu').2]
    split
    · rename_i hsame
      rw [← hsame, hold, hcontent]
      rfl
    · rfl
  | some content =>
    have hthere : t.has (r.pathOf path).parts = true := by
      rw [FileTree.has, hold, hcontent]
      rfl
    have hfree : u.blocked (r.pathOf path).parts = false := by
      refine hgrounded.blocked_iff.2 fun q hq hne => ?_
      rw [← Bool.not_eq_true, isLeaf_iff, h.around hthere hq hne]
      simp
    obtain ⟨u', hu'⟩ := hgrounded.writeDeep_isOk hfree (h.free _ hmay) content
    refine ⟨u', hu', fun l => ?_⟩
    rw [(hgrounded.writeDeep_ok hu').2.2, FileTree.write]
    split
    · rename_i hsame
      rw [← hsame, FileTree.entry?_put_self, hold, hcontent]
      rfl
    · rename_i hne
      rw [FileTree.entry?_put_of_ne hne, if_neg]
      -- no directory comes up on the way to the file, since all of them are there
      rw [Bool.and_eq_true, Option.isNone_iff_eq_none, entry?_eq_none, List.isPrefixOf_iff_prefix]
      rintro ⟨hgone, hon⟩
      rw [FileTree.has_of_isDirectory (h.around hthere hon (Ne.symm hne))] at hgone
      cases hgone

/-- And what is left to do can be done. -/
theorem restoreOne (hmay : may (r.pathOf path).parts) :
    ∃ u', r.restoreOne u path (t.content? (r.pathOf path).parts) = .ok u' ∧ Mendable may t u' ∧
      ∀ l, u'.entry? l = if (r.pathOf path).parts = l then t.entry? l else u.entry? l := by
  obtain ⟨u', hu', hentries⟩ := h.restoreOne_entries hmay
  have htampered : Tampered may u u' :=
    (restoreOne_ok h.tampered.grounded hu').2.mono fun l hl => hl ▸ hmay
  refine ⟨u', hu', ⟨h.before, h.linkless, h.tampered.trans htampered, fun l hl => ?_⟩, hentries⟩
  have hentry := hentries l
  by_cases hsame : (r.pathOf path).parts = l
  · rw [if_pos hsame] at hentry
    exact (isDirectory_congr hentry).trans (h.file hl)
  · rw [if_neg hsame] at hentry
    exact (isDirectory_congr hentry).trans (h.free l hl)

end Mendable

/-! ## All paths -/

theorem restore_run (path : String) (content : Option ByteArray) (rest : Snapshot) (v : World) :
    (r.restore ((path, content) :: rest)).run v =
      match r.restoreOne v.files path content with
      | .ok files => (r.restore rest).run { v with files := files }
      | .error f => (.error f.toFault, v) := by
  have hset (files : FileTree) :
      (Act.setFiles fun _ => files).run v = (.ok (), { v with files := files }) := rfl
  rw [restore, run_bind_of_ok (Act.files_run v), run_bind_eq, Act.ofExcept_run]
  cases r.restoreOne v.files path content with
  | ok files => exact run_bind_of_ok (hset files)
  | error f => rfl

/-- **Path by path everything is put back**, and what was put back stays. -/
theorem Mendable.restore (h : Mendable may t v.files) (hmay : ∀ p ∈ paths, may (r.pathOf p).parts) :
    ∃ files, (r.restore (paths.map fun p => (p, t.content? (r.pathOf p).parts))).run v =
        (.ok (), { v with files := files }) ∧ Mendable may t files ∧
      (∀ p ∈ paths, files.entry? (r.pathOf p).parts = t.entry? (r.pathOf p).parts) ∧
      ∀ l, v.files.entry? l = t.entry? l → files.entry? l = t.entry? l := by
  induction paths generalizing v with
  | nil => exact ⟨v.files, rfl, h, fun _ hp => (List.not_mem_nil hp).elim, fun _ hl => hl⟩
  | cons p rest ih =>
    obtain ⟨hp, hrest⟩ := List.forall_mem_cons.1 hmay
    obtain ⟨between, hone, hmendable, hentries⟩ := h.restoreOne hp
    obtain ⟨files, hrun, hmended, hback, hstay⟩ := ih (v := { v with files := between }) hmendable hrest
    rw [List.map_cons, restore_run, hone]
    refine ⟨files, hrun, hmended, List.forall_mem_cons.2 ⟨hstay _ ?_, hback⟩, fun l hl => hstay l ?_⟩
    · exact (hentries _).trans (if_pos rfl)
    · rw [hentries l, hl, ite_self]

/-- **A directory stops the work** with a fault of the files. -/
theorem restore_stuck (hv : v.files.Grounded)
    (hstands : ∃ e ∈ before, v.files.isDirectory (r.pathOf e.1).parts = true) :
    ∃ kind message v', (r.restore before).run v = (.error (.mishap kind message), v') := by
  induction before generalizing v with
  | nil =>
    obtain ⟨e, he, -⟩ := hstands
    cases he
  | cons first rest ih =>
    obtain ⟨path, content⟩ := first
    rw [restore_run]
    cases hone : r.restoreOne v.files path content with
    | error f => exact ⟨_, _, v, rfl⟩
    | ok files =>
      obtain ⟨hfile, htampered⟩ := restoreOne_ok hv hone
      obtain ⟨e, he, hdirectory⟩ := hstands
      refine ih (v := { v with files := files }) htampered.grounded ⟨e, ?_, htampered.kept _ hdirectory⟩
      refine (List.mem_cons.1 he).resolve_left ?_
      rintro rfl
      rw [hfile] at hdirectory
      cases hdirectory

/-! ## The refusal -/

/-- What is done up to the answer of git: perhaps a backup, what stands at the paths, and the
try. -/
def trying (r : Repository) (diff : String) (threeWay backup : Bool) (paths : List String) :
    Act (Snapshot × GitOutput) := do
  if backup then
    let _ ← r.backUp none
  r.tryDiff diff threeWay paths

/-- How a diff that does not apply is refused. -/
def conflict (paths : List String) (out : GitOutput) : Fault :=
  let message := out.complaint "patch does not apply"
  .refuse .gitConflict s!"Patch does not apply cleanly: {message}"
    [("paths", Json.texts paths), ("stderr", .text out.err)]

/-- Git comes to an answer, whatever it is, where it is asked this. -/
def Answers (r : Repository) (arguments : List String) (o : Outside) : Prop :=
  ∀ u : World, u.outside = o → ∃ out u', (r.try_ arguments).run u = (.ok out, u')

/-- How git is asked to take paths out of the index. -/
def unstaging (paths : List String) : List String := ["reset", "--quiet", "--"] ++ paths

/-- Git was given a diff that names the paths and has failed. It may have touched the files
at them. -/
structure Rejected (r : Repository) (diff : String) (threeWay backup : Bool) (paths : List String)
    (w : World) (out : GitOutput) (v : World) : Prop where
  named : ∃ parsed, Diff.parse diff = .ok parsed ∧ touched parsed.1 = paths
  tried : ∃ before, (r.trying diff threeWay backup paths).run w = (.ok (before, out), v)
  failed : out.succeeded = false
  touches : Tampers (fun l => ∃ p ∈ paths, (r.pathOf p).parts = l) w.files v.files

/-- Nothing stands below a file, no link at one of the paths, and git answers and leaves the
files alone where it is not asked to change them. -/
structure Ready (r : Repository) (paths : List String) (w : World) : Prop where
  grounded : w.files.Grounded
  linkless : ∀ p ∈ paths, ∀ target, w.files.entry? (r.pathOf p).parts ≠ some (.link target)
  steady : w.outside.Steady
  answers : r.Answers (unstaging paths) w.outside

variable {diff : String} {threeWay backup : Bool}

/-- A call is answered as long as the pause in front of a further try can be doubled. -/
theorem runFrom_answers {c : GitCall} {o : Outside}
    (hran : ∀ calls, (o.git (calls ++ [c])).failure = none) (left tried : Nat)
    (hfew : tried + left ≤ 1024) {u : World} (hu : u.outside = o) :
    ∃ out u', (r.runFrom c left tried).run u = (.ok out, u') := by
  have hgit (u : World) (hu : u.outside = o) :
      (Act.git c).run u = (.ok (o.git (u.gitCalls ++ [c])), Act.afterGit c u) := by
    rw [Act.git_run, hu, hran]
  induction left generalizing tried u with
  | zero =>
    rw [runFrom, ← bind_pure_comp, run_bind_of_ok (hgit u hu)]
    exact ⟨_, _, rfl⟩
  | succ left ih =>
    cases hheld : (GitOutput.ofReply (o.git (u.gitCalls ++ [c]))).isBusy with
    | true =>
      obtain ⟨v, hstill, hrun⟩ := r.runFrom_run_held (hgit u hu) hheld (show tried < 1024 by omega) left
      rw [hrun]
      exact ih (tried + 1) (by omega) (hstill.apart.outside.trans hu)
    | false => exact ⟨_, _, r.runFrom_run_free (hgit u hu) hheld _ _⟩

/-- **A git that always runs comes to an answer**, if it is not tried more often than a pause
can be doubled. -/
theorem answers_of_ran {arguments : List String} {o : Outside} (hretries : r.settings.lockRetries ≤ 1024)
    (hran : ∀ calls, (o.git (calls ++ [r.call arguments none])).failure = none) :
    r.Answers arguments o :=
  fun _ hu => runFrom_answers hran _ 0 (by omega) hu

/-- What was taken down is what the files held. -/
theorem trying_ok (hsteady : w.outside.Steady)
    (h : (r.trying diff threeWay backup paths).run w = (.ok (before, out), v)) :
    v.outside = w.outside ∧ before = paths.map fun p => (p, w.files.content? (r.pathOf p).parts) := by
  have htried : ∃ x, Intact w x ∧ (r.tryDiff diff threeWay paths).run x = (.ok (before, out), v) := by
    cases backup with
    | false => exact ⟨w, refl_of Intact w, h⟩
    | true =>
      obtain ⟨name, x, hbackup, htry⟩ := run_ok_of_bind h
      exact ⟨x, ((backUp_fixed none).of_run hbackup).1 hsteady, htry⟩
  obtain ⟨x, hintact, htry⟩ := htried
  obtain ⟨files, x₁, hfiles, htry⟩ := run_ok_of_bind htry
  rw [Act.files_run] at hfiles
  obtain ⟨hread, rfl⟩ := Prod.mk.inj hfiles
  obtain rfl := Except.ok.inj hread
  obtain ⟨taken, x₂, htaken, htry⟩ := run_ok_of_bind htry
  rw [Act.ofExcept_run] at htaken
  obtain ⟨hsnapshot, rfl⟩ := Prod.mk.inj htaken
  obtain ⟨_, x₃, hget, htry⟩ := run_ok_of_bind htry
  obtain ⟨-, rfl⟩ := Prod.mk.inj hget
  obtain ⟨answer, x₄, hcall, hpure⟩ := run_ok_of_bind htry
  obtain ⟨hsame, rfl⟩ := run_ok_of_pure hpure
  obtain ⟨rfl, -⟩ := Prod.mk.inj hsame
  obtain ⟨g, -, hanswered⟩ := (r.tryWith_leads _ _ x).of_run rfl hcall
  refine ⟨hanswered.outside.trans hintact.outside, ?_⟩
  rw [snapshot_eq (mapError_eq_ok.1 hsnapshot), hintact.files]

/-- **What follows the answer of git**, where that is a failure. -/
theorem applyDiff_run {parsed : List Diff.FilePatch × List String} (hparse : Diff.parse diff = .ok parsed)
    (htried : (r.trying diff threeWay backup (touched parsed.1)).run w = (.ok (before, out), v))
    (hfailed : out.succeeded = false) :
    (r.applyDiff diff threeWay backup).run w = (r.takeBack (touched parsed.1) before out).run v := by
  have hback : (r.takeBack (touched parsed.1) before out).run v =
      (if !out.succeeded then r.takeBack (touched parsed.1) before out else pure ()).run v := by
    rw [hfailed]
    rfl
  rw [applyDiff, run_bind_eq, Act.ofExcept_run, hparse, hback]
  cases backup with
  | false => exact run_bind_of_ok htried
  | true =>
    obtain ⟨name, x, hbackup, htry⟩ := run_ok_of_bind htried
    exact (run_bind_of_ok hbackup).trans (run_bind_of_ok htry)

/-- Behind the files the index is put right, and then the diff is refused. -/
theorem takeBack_run {x : World} (hsteady : x.outside.Steady)
    (hanswers : r.Answers (unstaging paths) x.outside)
    (hrestored : (r.restore before).run v = (.ok (), x)) :
    ∃ v', (r.takeBack paths before out).run v = (.error (conflict paths out), v') ∧
      v'.files = x.files := by
  have hfixed : Keeps Fixed (r.try_ (unstaging paths)) := try_fixed (by simp [unstaging, Rewriting])
  rw [takeBack, run_bind_of_ok hrestored]
  split
  · obtain ⟨answer, y, hreset⟩ := hanswers x rfl
    exact ⟨_, run_bind_of_ok hreset, ((hfixed.of_run hreset).1 hsteady).files⟩
  · exact ⟨_, rfl, rfl⟩

namespace Rejected

variable (hready : r.Ready paths w) (h : r.Rejected diff threeWay backup paths w out v)

include hready h

theorem tampered : Tampered (fun l => ∃ p ∈ paths, (r.pathOf p).parts = l) w.files v.files :=
  h.touches.tampered hready.grounded

/-- Git has failed, and what it was given is taken back. -/
theorem run : v.outside = w.outside ∧ (r.applyDiff diff threeWay backup).run w =
    (r.takeBack paths (paths.map fun p => (p, w.files.content? (r.pathOf p).parts)) out).run v := by
  obtain ⟨parsed, hparse, rfl⟩ := h.named
  obtain ⟨before, htried⟩ := h.tried
  obtain ⟨houtside, rfl⟩ := trying_ok hready.steady htried
  exact ⟨houtside, applyDiff_run hparse htried h.failed⟩

/-- **Where no directory stands at a named path, the diff leaves no trace.** -/
theorem refused (hfree : ∀ p ∈ paths, v.files.isDirectory (r.pathOf p).parts = false) :
    ∃ v', (r.applyDiff diff threeWay backup).run w = (.error (conflict paths out), v') ∧
      (∀ p ∈ paths, v'.files.entry? (r.pathOf p).parts = w.files.entry? (r.pathOf p).parts) ∧
      SameContents w.files v'.files := by
  obtain ⟨houtside, hrun⟩ := h.run hready
  have hmendable : Mendable (fun l => ∃ p ∈ paths, (r.pathOf p).parts = l) w.files v.files := by
    refine ⟨hready.grounded, ?_, h.tampered hready, ?_⟩
    · rintro l ⟨p, hp, rfl⟩
      exact hready.linkless p hp
    · rintro l ⟨p, hp, rfl⟩
      exact hfree p hp
  obtain ⟨files, hrestored, hmended, hback, -⟩ := hmendable.restore fun p hp => ⟨p, hp, rfl⟩
  obtain ⟨v', hrefused, hfiles⟩ :=
    takeBack_run (houtside ▸ hready.steady) (houtside ▸ hready.answers) hrestored
  have hfiles : v'.files = files := hfiles
  refine ⟨v', hrun.trans hrefused, hfiles ▸ hback, fun l => ?_⟩
  rw [hfiles]
  by_cases hl : ∃ p ∈ paths, (r.pathOf p).parts = l
  · obtain ⟨p, hp, rfl⟩ := hl
    exact content?_congr (hback p hp)
  · exact hmended.tampered.contents l hl

/-- **Where one stands there, the refusal is not reached.** -/
theorem stuck (hstands : ∃ p ∈ paths, v.files.isDirectory (r.pathOf p).parts = true) :
    ∃ kind message v', (r.applyDiff diff threeWay backup).run w = (.error (.mishap kind message), v') := by
  obtain ⟨p, hp, hdirectory⟩ := hstands
  obtain ⟨-, hrun⟩ := h.run hready
  have hmem : (p, w.files.content? (r.pathOf p).parts) ∈
      paths.map fun p => (p, w.files.content? (r.pathOf p).parts) := List.mem_map.2 ⟨p, hp, rfl⟩
  obtain ⟨kind, message, v', hstuck⟩ :=
    restore_stuck (h.tampered hready).grounded ⟨_, hmem, hdirectory⟩
  refine ⟨kind, message, v', ?_⟩
  rw [hrun, takeBack, run_bind_eq, hstuck]

/-- **None stands there** if none did and no named path lies below another one. -/
theorem free (hfile : ∀ p ∈ paths, w.files.isDirectory (r.pathOf p).parts = false)
    (hapart : ∀ p ∈ paths, ∀ q ∈ paths, (r.pathOf p).parts <+: (r.pathOf q).parts →
      (r.pathOf p).parts = (r.pathOf q).parts) :
    ∀ p ∈ paths, v.files.isDirectory (r.pathOf p).parts = false := by
  intro p hp
  by_contra hdirectory
  rcases (h.tampered hready).raised _ (by simpa using hdirectory) with hold | ⟨l, ⟨q, hq, rfl⟩, hon, hne⟩
  · rw [hfile p hp] at hold
    cases hold
  · exact hne (hapart p hp q hq hon)

end Rejected

/-- **A diff that does not apply leaves no trace where no directory stands at a named path
behind git**: it is refused as such, everything at the paths is as it was, and so is every
content elsewhere. Where one stands there, the work ends otherwise, with a fault of the files.
And none does if none did before and no named path lies below another one. -/
theorem applyDiff_rejected (hready : r.Ready paths w)
    (h : r.Rejected diff threeWay backup paths w out v) :
    ((∀ p ∈ paths, v.files.isDirectory (r.pathOf p).parts = false) →
      ∃ v', (r.applyDiff diff threeWay backup).run w = (.error (conflict paths out), v') ∧
        (∀ p ∈ paths, v'.files.entry? (r.pathOf p).parts = w.files.entry? (r.pathOf p).parts) ∧
        SameContents w.files v'.files) ∧
    ((∃ p ∈ paths, v.files.isDirectory (r.pathOf p).parts = true) →
      ∃ kind message v', (r.applyDiff diff threeWay backup).run w = (.error (.mishap kind message), v')) ∧
    ((∀ p ∈ paths, w.files.isDirectory (r.pathOf p).parts = false) →
      (∀ p ∈ paths, ∀ q ∈ paths, (r.pathOf p).parts <+: (r.pathOf q).parts →
        (r.pathOf p).parts = (r.pathOf q).parts) →
      ∀ p ∈ paths, v.files.isDirectory (r.pathOf p).parts = false) :=
  ⟨h.refused hready, h.stuck hready, h.free hready⟩

end Repository

/-! ## Diffs that fail halfway -/

namespace Torn

open Repository (unstaging)

/-- The repository. -/
def repository : Repository := ⟨⟨.root, ["project"]⟩, GitSettings.usual⟩

/-- A git that knows no branch, with its answer to a diff. -/
def git (applied : GitReply) (calls : List GitCall) : GitReply :=
  match (calls.getLast?.map GitCall.arguments).getD [] with
  | "apply" :: _ => applied
  | "show-ref" :: _ => { (default : GitReply) with code := 1 }
  | _ => { (default : GitReply) with out := "main\n".toUTF8 }

/-- The answer to a diff that does not apply, after some changes. -/
def failing (changes : Changes) : GitReply := { (default : GitReply) with
  code := 1, err := "error: patch failed\n".toUTF8, changes := changes }

/-- The files are a single one, with one line. -/
def world (l : Location) (changes : Changes) : World := { (default : World) with
  files := FileTree.empty.write l "a\n".toUTF8
  outside := { (default : Outside) with git := git (failing changes) } }

theorem git_append (applied : GitReply) (calls : List GitCall) (c : GitCall) :
    git applied (calls ++ [c]) = git applied [c] := by
  rw [git, git, List.getLast?_append]
  rfl

theorem world_steady (l : Location) (changes : Changes) : (world l changes).outside.Steady := by
  intro calls c hchanges
  have hgit : (world l changes).outside.git (calls ++ [c]) = git (failing changes) [c] :=
    git_append _ _ _
  rw [hgit, git] at hchanges
  split at hchanges
  · rename_i rest hargs
    have hargs : c.arguments = "apply" :: rest := hargs
    exact .inl (hargs ▸ rfl)
  all_goals exact (hchanges rfl).elim

theorem world_ready {l : Location} (hl : l ≠ []) (changes : Changes) (paths : List String) :
    repository.Ready paths (world l changes) := by
  refine ⟨FileTree.grounded_single hl, fun p _ => FileTree.entry?_single, world_steady l changes, ?_⟩
  refine Repository.answers_of_ran (by decide) fun calls => ?_
  exact congrArg GitReply.failure (git_append (failing changes) calls _)

/-- What git comes to. -/
def tried (l : Location) (changes : Changes) (diff : String) (paths : List String) :
    Except Fault (Repository.Snapshot × GitOutput) × World :=
  (repository.trying diff true true paths).run (world l changes)

/-- The diff names the paths, which are in order, and git has failed. -/
def fails (l : Location) (changes : Changes) (diff : String) (paths : List String) : Bool :=
  match Diff.parse diff, (tried l changes diff paths).1 with
  | .ok parsed, .ok ended =>
    decide (paths.Pairwise fun a b => decide (a ≤ b) = true) &&
      ((parsed.1.flatMap fun f => f.oldPath.toList ++ f.newPath.toList).filter (· != "")).eraseDups == paths &&
      !ended.2.succeeded
  | _, _ => false

theorem rejected {l : Location} {changes : Changes} {diff : String} {paths : List String}
    (h : fails l changes diff paths = true)
    (htouches : Tampers (fun l => ∃ p ∈ paths, (repository.pathOf p).parts = l)
      (world l changes).files (tried l changes diff paths).2.files) :
    ∃ out, repository.Rejected diff true true paths (world l changes) out
      (tried l changes diff paths).2 := by
  rw [fails] at h
  split at h
  · rename_i parsed ended hparse hended
    rw [Bool.and_eq_true, Bool.and_eq_true, decide_eq_true_iff, beq_iff_eq, Bool.not_eq_true'] at h
    obtain ⟨⟨hsorted, hpaths⟩, hfailed⟩ := h
    have hnamed : Repository.touched parsed.1 = paths := by
      rw [Repository.touched, hpaths, List.mergeSort_of_pairwise hsorted]
    have htried : tried l changes diff paths = (.ok ended, (tried l changes diff paths).2) := by
      rw [← hended]
    exact ⟨ended.2, ⟨parsed, hparse, hnamed⟩, ⟨ended.1, htried⟩, hfailed, htouches⟩
  · cases h

/-- Where a directory stands then, the diff is not refused. -/
theorem trips {l : Location} {changes : Changes} {diff : String} {paths : List String} (hl : l ≠ [])
    (h : fails l changes diff paths = true)
    (htouches : Tampers (fun l => ∃ p ∈ paths, (repository.pathOf p).parts = l)
      (world l changes).files (tried l changes diff paths).2.files)
    (hstands : ∃ p ∈ paths,
      (tried l changes diff paths).2.files.isDirectory (repository.pathOf p).parts = true) :
    ∃ out v kind message v', repository.Rejected diff true true paths (world l changes) out v ∧
      (repository.applyDiff diff true true).run (world l changes) = (.error (.mishap kind message), v') := by
  obtain ⟨out, hrejected⟩ := rejected h htouches
  obtain ⟨kind, message, v', hrun⟩ := hrejected.stuck (world_ready hl _ _) hstands
  exact ⟨out, _, kind, message, v', hrejected, hrun⟩

/-- A diff of one line of a file. -/
def change (path : String) : String :=
  "--- a/" ++ path ++ "\n+++ b/" ++ path ++ "\n@@ -1 +1 @@\n-a\n+b\n"

/-- A diff that deletes a file and makes one below it. -/
def descend : String :=
  "--- a/p\n+++ /dev/null\n@@ -1 +0,0 @@\n-a\n--- /dev/null\n+++ b/p/q\n@@ -0,0 +1 @@\n+b\n"

/-- Half of the diff. -/
def half : Changes := [(⟨.root, ["project", "f.txt"]⟩, .file "<<<<<<<\n".toUTF8)]

theorem half_tried : fails ["project", "f.txt"] half (change "f.txt") ["f.txt"] = true ∧
    (tried ["project", "f.txt"] half (change "f.txt") ["f.txt"]).2.files =
      (world ["project", "f.txt"] half).files.write ["project", "f.txt"] "<<<<<<<\n".toUTF8 := by
  decide +kernel

theorem nested_tried : fails ["project", "d", "x.txt"] [] (change "d") ["d"] = true ∧
    (tried ["project", "d", "x.txt"] [] (change "d") ["d"]).2.files =
      (world ["project", "d", "x.txt"] []).files := by
  decide +kernel

/-- All of the other diff. -/
def all : Changes :=
  [(⟨.root, ["project", "p"]⟩, .delete), (⟨.root, ["project", "p", "q"]⟩, .file "b\n".toUTF8)]

theorem all_tried : fails ["project", "p"] all descend ["p", "p/q"] = true ∧
    (tried ["project", "p"] all descend ["p", "p/q"]).2.files =
      FileTree.write ((world ["project", "p"] all).files.remove ["project", "p"])
        ["project", "p", "q"] "b\n".toUTF8 := by
  decide +kernel

end Torn

namespace Repository

/-- Git has written half of a diff, and nothing of it is left. -/
theorem applyDiff_rejected_half : ∃ out v',
    (Torn.repository.applyDiff (Torn.change "f.txt") true true).run
      (Torn.world ["project", "f.txt"] Torn.half) = (.error (conflict ["f.txt"] out), v') ∧
    v'.files.content? ["project", "f.txt"] = some "a\n".toUTF8 := by
  have hnamed : ∃ p ∈ ["f.txt"], (Torn.repository.pathOf p).parts = ["project", "f.txt"] :=
    ⟨"f.txt", by decide, by decide +kernel⟩
  have htouches : Tampers (fun l => ∃ p ∈ ["f.txt"], (Torn.repository.pathOf p).parts = l)
      (Torn.world ["project", "f.txt"] Torn.half).files
      (Torn.tried ["project", "f.txt"] Torn.half (Torn.change "f.txt") ["f.txt"]).2.files := by
    rw [Torn.half_tried.2]
    exact .single (.write hnamed (by decide +kernel) (by decide +kernel) _)
  obtain ⟨out, hrejected⟩ := Torn.rejected Torn.half_tried.1 htouches
  obtain ⟨hrefused, -, hfree⟩ :=
    applyDiff_rejected (Torn.world_ready (by decide) Torn.half ["f.txt"]) hrejected
  obtain ⟨v', hrun, -, hsame⟩ := hrefused (hfree (by decide +kernel) (by decide +kernel))
  exact ⟨out, v', hrun, (hsame _).trans (by decide +kernel)⟩

/-- **A diff that does not apply need not be refused.** It names a directory that stands there;
or git has deleted a file and made one below it, which leaves a directory in its place. -/
theorem applyDiff_trips : (∃ out v kind message v', Torn.repository.Rejected (Torn.change "d") true true
      ["d"] (Torn.world ["project", "d", "x.txt"] []) out v ∧
      (Torn.repository.applyDiff (Torn.change "d") true true).run
        (Torn.world ["project", "d", "x.txt"] []) = (.error (.mishap kind message), v')) ∧
    ∃ out v kind message v', Torn.repository.Rejected Torn.descend true true
      ["p", "p/q"] (Torn.world ["project", "p"] Torn.all) out v ∧
      (Torn.repository.applyDiff Torn.descend true true).run
        (Torn.world ["project", "p"] Torn.all) = (.error (.mishap kind message), v') := by
  constructor
  · refine Torn.trips (by decide) Torn.nested_tried.1 ?_ ⟨"d", by decide, ?_⟩ <;>
      rw [Torn.nested_tried.2]
    decide +kernel
  · have hfile : ∃ p ∈ ["p", "p/q"], (Torn.repository.pathOf p).parts = ["project", "p"] :=
      ⟨"p", by decide, by decide +kernel⟩
    have hbelow : ∃ p ∈ ["p", "p/q"], (Torn.repository.pathOf p).parts = ["project", "p", "q"] :=
      ⟨"p/q", by decide, by decide +kernel⟩
    refine Torn.trips (by decide) Torn.all_tried.1 ?_ ⟨"p", by decide, ?_⟩ <;>
      rw [Torn.all_tried.2]
    · refine .tail (.single (.delete hfile (by decide +kernel))) ?_
      exact .write hbelow (by decide +kernel) (by decide +kernel) _
    · decide +kernel

end Repository

end RepairLoop
