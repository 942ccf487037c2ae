import RepairLoop.Proofs.Rehearsal.Repository
import RepairLoop.Proofs.Repair.Landing
import RepairLoop.Proofs.Text.Character
import RepairLoop.Proofs.Text.Encoded
/-!
# Repair — the branches when an application ends

In a git that answers as a minimal repository does, an application ends on the
branch that it started on, and leaves behind no branch but backups, wherever it
is stopped (`applyToRepository_branches`). Routine work makes backups and no
other branches (`bears_tended`). The rest is the way of the branch of the patch:
it is made where there was none, checked out, left for the base in any case, and
taken away in any case; in such a git neither the return nor the removal can
fail.
-/

namespace RepairLoop

open Act (Keeps Obeys Leads)
open Rehearsal (Follows IsFree)

/-- Git is that of an outside, and something holds of the repository that it answers as. -/
structure World.Stands (o : Outside) (state : List GitCall → Rehearsal.Repository)
    (C : Rehearsal.Repository → Prop) (w : World) : Prop where
  outside : w.outside = o
  repository : C (state w.gitCalls)

open World (Stands)

variable {o : Outside} {state : List GitCall → Rehearsal.Repository}
variable {C C' : Rehearsal.Repository → Prop}

theorem World.Stands.imp {w : World} (h : Stands o state C w) (himp : ∀ s, C s → C' s) :
    Stands o state C' w := ⟨h.outside, himp _ h.repository⟩

namespace Repository

variable {r : Repository} {E : World → Prop} {arguments : List String}

/-! ## Calls that are bound -/

/-- **A call that is bound** is answered and done as the minimal repository has
it. -/
theorem try_stands (hfollows : Follows o.git state) (hbound : ¬ IsFree arguments)
    (hready : ∀ s, C s → (GitOutput.ofReply (s.run arguments).1).isBusy = false) :
    Leads (Stands o state C) (r.try_ arguments) (fun out => Stands o state fun s' =>
      ∃ s, C s ∧ out = .ofReply (s.run arguments).1 ∧ s' = (s.run arguments).2) E := by
  intro w hw
  obtain ⟨hstate, hreply⟩ := hfollows.bound w.gitCalls (r.call arguments none) hbound
  rw [← hw.outside] at hreply
  have hran := Rehearsal.Repository.run_failure (state w.gitCalls) arguments
  rw [try_, tryWith_run r hreply hran (hready _ hw.repository)]
  exact ⟨hw.outside, _, hw.repository, rfl, hstate⟩

/-- A call that must succeed, where it does. -/
theorem run_stands (hfollows : Follows o.git state) (hbound : ¬ IsFree arguments)
    (hcode : ∀ s, C s → (s.run arguments).1.code = 0) :
    Leads (Stands o state C) (r.run arguments)
      (fun _ => Stands o state fun s' => ∃ s, C s ∧ s' = (s.run arguments).2) E := by
  have hready : ∀ s, C s → (GitOutput.ofReply (s.run arguments).1).isBusy = false := by
    intro s hs
    simp [GitOutput.isBusy, GitOutput.ofReply, hcode s hs]
  refine (try_stands hfollows hbound hready).bind fun out => ?_
  split
  · refine .pure fun w hw => hw.imp ?_
    rintro s' ⟨s, hs, -, hs'⟩
    exact ⟨s, hs, hs'⟩
  · rename_i hfailed
    intro w hw
    obtain ⟨s, hs, hout, -⟩ := hw.repository
    exact (hfailed (hout ▸ (GitOutput.succeeded_iff _).2 (hcode s hs))).elim

/-- What is bound, by its first word. -/
theorem not_isFree {word : String} {rest : List String}
    (h : word ∈ ["rev-parse", "show-ref", "branch", "checkout", "reset"]) :
    ¬ IsFree (word :: rest) := by
  rintro ⟨free, hfree, hhead⟩
  obtain rfl := Option.some.inj hhead
  simp only [List.mem_cons, List.not_mem_nil, or_false] at h
  rcases h with rfl | rfl | rfl | rfl | rfl <;> exact absurd hfree (by decide)

/-- **The branch that is checked out** is printed, or nothing is found. -/
theorem currentBranch_stands (hfollows : Follows o.git state) :
    Leads (Stands o state C) r.currentBranch (fun name => Stands o state fun s =>
      C s ∧ (name = none ∨ name = some (Text.strip s.current))) E := by
  have hready : ∀ s, C s → (GitOutput.ofReply
      (Rehearsal.Repository.run s ["rev-parse", "--abbrev-ref", "HEAD"]).1).isBusy = false := by
    intro s _
    rw [Rehearsal.Repository.run_currentBranch]
    split <;> rw [Rehearsal.ofReply_reply]
    · decide
    · rfl
  refine (try_stands hfollows (not_isFree (by decide)) hready).bind fun out => ?_
  refine .pure fun w hw => hw.imp fun s' ⟨s, hs, hout, hs'⟩ => ?_
  obtain rfl : s' = s := hs'
  refine ⟨hs, ?_⟩
  rw [Rehearsal.Repository.run_currentBranch] at hout
  split at hout <;> rw [Rehearsal.ofReply_reply] at hout <;> rw [hout]
  · exact .inl rfl
  · rw [Text.strip_append_feed]
    split
    · exact .inl rfl
    · exact .inr rfl

/-- **A branch is found where there is one.** -/
theorem hasBranch_stands (hfollows : Follows o.git state) (name : String) :
    Leads (Stands o state C) (r.hasBranch name) (fun found => Stands o state fun s =>
      C s ∧ (found = true ↔ name ∈ s.branches)) E := by
  have hready : ∀ s, C s → (GitOutput.ofReply (Rehearsal.Repository.run s
      ["show-ref", "--verify", "--quiet", "refs/heads/" ++ name]).1).isBusy = false := by
    intro s _
    rw [Rehearsal.Repository.run_hasBranch, Rehearsal.ofReply_reply]
    split <;> rfl
  refine (try_stands hfollows (not_isFree (by decide)) hready).bind fun out => ?_
  refine .pure fun w hw => hw.imp fun s' ⟨s, hs, hout, hs'⟩ => ?_
  rw [Rehearsal.Repository.run_hasBranch] at hout hs'
  obtain rfl : s' = s := hs'
  refine ⟨hs, ?_⟩
  rw [hout, Rehearsal.ofReply_reply, GitOutput.succeeded]
  split
  · rename_i hmem
    simpa using hmem
  · rename_i hmem
    simpa using hmem

/-- **A branch that is there is checked out.** -/
theorem checkOut_stands (hfollows : Follows o.git state) {branch : String}
    (h : ∀ s, C s → branch ∈ s.branches) :
    Leads (Stands o state C) (r.checkOut branch)
      (fun _ => Stands o state fun s' => ∃ s, C s ∧ s' = { s with current := branch }) E := by
  have hrun : ∀ s, C s → Rehearsal.Repository.run s ["checkout", "--quiet", branch] =
      (Rehearsal.reply 0 "" "", { s with current := branch }) :=
    fun s hs => s.run_checkout (h s hs)
  refine (run_stands hfollows (not_isFree (by decide)) fun s hs => by rw [hrun s hs]; rfl).bind
    fun _ => .pure fun w hw => hw.imp fun s' ⟨s, hs, hs'⟩ => ⟨s, hs, ?_⟩
  rw [hs', hrun s hs]

/-- **A branch that is there is taken away.** -/
theorem deleteBranch_stands (hfollows : Follows o.git state) {name : String}
    (h : ∀ s, C s → name ∈ s.branches) :
    Leads (Stands o state C) (r.deleteBranch name true) (fun _ => Stands o state fun s' =>
      ∃ s, C s ∧ s' = { s with branches := s.branches.erase name }) E := by
  have hrun : ∀ s, C s → Rehearsal.Repository.run s ["branch", "-D", name] =
      (Rehearsal.reply 0 "" "", { s with branches := s.branches.erase name }) :=
    fun s hs => s.run_delete (h s hs)
  rw [deleteBranch, if_pos rfl]
  refine (run_stands hfollows (not_isFree (by decide)) fun s hs => by rw [hrun s hs]; rfl).bind
    fun _ => .pure fun w hw => hw.imp fun s' ⟨s, hs, hs'⟩ => ⟨s, hs, ?_⟩
  rw [hs', hrun s hs]

end Repository

/-! ## New branches of a kind -/

/-- The branch that is checked out is the same, and the branches are, but for new ones of
a kind. -/
structure World.Tended (state : List GitCall → Rehearsal.Repository) (kind : String → Prop)
    (w w' : World) : Prop where
  outside : w'.outside = w.outside
  current : Follows w.outside.git state → (state w'.gitCalls).current = (state w.gitCalls).current
  branches : Follows w.outside.git state → ∃ more,
    (state w'.gitCalls).branches = (state w.gitCalls).branches ++ more ∧
      ∀ b ∈ more, kind b ∧ b ∉ (state w.gitCalls).branches

open World (Tended)

namespace World.Tended

variable {kind : String → Prop} {w w' : World}

theorem of_same (houtside : w'.outside = w.outside) (h : Follows w.outside.git state →
    (state w'.gitCalls).current = (state w.gitCalls).current ∧
      (state w'.gitCalls).branches = (state w.gitCalls).branches) : Tended state kind w w' :=
  ⟨houtside, fun hf => (h hf).1, fun hf =>
    ⟨[], (h hf).2.trans (List.append_nil _).symm, fun _ hb => (List.not_mem_nil hb).elim⟩⟩

instance : IsPreorder World (Tended state kind) where
  refl _ := of_same rfl fun _ => ⟨rfl, rfl⟩
  trans w w' w'' h h' := by
    refine ⟨h'.outside.trans h.outside, fun hf => ?_, fun hf => ?_⟩
    · exact (h'.current (h.outside ▸ hf)).trans (h.current hf)
    · obtain ⟨early, hearly, hnew⟩ := h.branches hf
      obtain ⟨late, hlate, hnew'⟩ := h'.branches (h.outside ▸ hf)
      refine ⟨early ++ late, ?_, List.forall_mem_append.2 ⟨hnew, fun b hb => ⟨(hnew' b hb).1, ?_⟩⟩⟩
      · rw [hlate, hearly, List.append_assoc]
      · intro hmem
        rw [hearly] at hnew'
        exact (hnew' b hb).2 (List.mem_append_left early hmem)

end World.Tended

namespace Repository

variable {r : Repository} {kind : String → Prop}

/-- A name with a slash is no option. -/
theorem ne_option {name : String} (h : '/' ∈ name.toList) : name ≠ "-D" ∧ name ≠ "-d" := by
  constructor <;> rintro rfl <;> exact absurd h (by decide)

theorem IsBackup.ne_option {name : String} (h : r.IsBackup name) : name ≠ "-D" ∧ name ≠ "-d" :=
  Repository.ne_option (h.subset (by simp))

/-- A question that is bound is one for a revision or a reference. -/
theorem Asking.word {arguments : List String} (h : Asking arguments) (hbound : ¬ IsFree arguments) :
    ∃ word rest, word ∈ ["rev-parse", "show-ref"] ∧ arguments = word :: rest := by
  obtain ⟨word, hword, hhead⟩ := h
  cases arguments with
  | nil => cases hhead
  | cons first rest =>
    obtain rfl := Option.some.inj hhead
    refine ⟨first, rest, ?_, rfl⟩
    by_contra hother
    simp only [List.mem_cons, List.not_mem_nil, or_false, not_or] at hword hother
    rcases hword with rfl | rfl | rfl | rfl | rfl
    · exact hother.1 rfl
    · exact hother.2 rfl
    all_goals exact hbound ⟨_, by decide, rfl⟩

theorem git_tended_of_free {c : GitCall} (h : IsFree c.arguments) :
    Keeps (Tended state kind) (Act.git c) := by
  refine fun w => ⟨?_, fun _ _ => trivial⟩
  rw [Act.git_run]
  exact .of_same rfl fun hf => hf.free w.gitCalls c h

/-- What is bound and does nothing in the minimal repository. -/
theorem git_tended_of_idle {c : GitCall} (hbound : ¬ IsFree c.arguments)
    (h : ∀ s : Rehearsal.Repository, (s.run c.arguments).2 = s) :
    Keeps (Tended state kind) (Act.git c) := by
  refine fun w => ⟨?_, fun _ _ => trivial⟩
  rw [Act.git_run]
  refine .of_same rfl fun hf => ?_
  have hsame : state (w.gitCalls ++ [c]) = state w.gitCalls :=
    (hf.bound w.gitCalls c hbound).1.trans (h _)
  exact ⟨congrArg _ hsame, congrArg _ hsame⟩

theorem tended_of_quiet {w w' : World} (h : World.Quiet w w') : Tended state kind w w' := by
  refine .of_same h.apart.outside fun _ => ?_
  rw [h.gitCalls]
  exact ⟨rfl, rfl⟩

theorem git_tended_of_ask {c : GitCall} (h : Asking c.arguments) :
    Keeps (Tended state kind) (Act.git c) := by
  by_cases hfree : IsFree c.arguments
  · exact git_tended_of_free hfree
  · refine git_tended_of_idle hfree fun s => ?_
    obtain ⟨word, rest, hword, harguments⟩ := h.word hfree
    rw [harguments]
    exact s.run_ask hword rest

/-- **Questions make no branches** of any kind. -/
theorem hears_tended : r.Hears (Tended state kind) :=
  ⟨fun _ _ hs => tended_of_quiet hs.toQuiet, fun _ _ hask => git_tended_of_ask hask⟩

/-- A backup is made where there is no branch of its name. -/
theorem git_tended_of_backup {c : GitCall} {name : String} (hbackup : r.IsBackup name)
    (hc : c.arguments = ["branch", name, "HEAD"]) : Keeps (Tended state r.IsBackup) (Act.git c) := by
  refine fun w => ⟨?_, fun _ _ => trivial⟩
  rw [Act.git_run]
  show Tended state _ w (Act.afterGit c w)
  obtain ⟨hlong, hshort⟩ := hbackup.ne_option
  have hbound : ¬ IsFree c.arguments := hc ▸ not_isFree (by decide)
  have hstate (hf : Follows w.outside.git state) := (hf.bound w.gitCalls c hbound).1
  rw [hc] at hstate
  by_cases hmem : name ∈ (state w.gitCalls).branches
  · rw [Rehearsal.Repository.run_branch_taken _ _ hlong hshort hmem] at hstate
    exact .of_same rfl fun hf => ⟨congrArg _ (hstate hf), congrArg _ (hstate hf)⟩
  · rw [Rehearsal.Repository.run_branch _ _ hlong hshort hmem] at hstate
    have hnew : ∀ b ∈ [name], r.IsBackup b ∧ b ∉ (state w.gitCalls).branches :=
      fun b hb => List.mem_singleton.1 hb ▸ ⟨hbackup, hmem⟩
    refine ⟨rfl, fun hf => ?_, fun hf => ⟨[name], ?_, hnew⟩⟩
    · show (state (w.gitCalls ++ [c])).current = _
      rw [hstate hf]
    · show (state (w.gitCalls ++ [c])).branches = _
      rw [hstate hf]

/-- **Routine work makes backups and no other branches**, in a git that answers
as a minimal repository. -/
theorem bears_tended : r.Bears (Tended state r.IsBackup) := by
  refine .of_quiet (fun _ _ => tended_of_quiet) fun arguments patch hc => ?_
  cases hc with
  | ask hask => exact git_tended_of_ask hask
  | @change word rest hword =>
    refine git_tended_of_free ⟨word, ?_, rfl⟩
    exact List.mem_append_left ["cherry-pick", "diff", "status", "log"] hword
  | unstage paths => exact git_tended_of_idle (not_isFree (by decide)) fun _ => rfl
  | backup hbackup => exact git_tended_of_backup hbackup rfl

/-- **A commit is taken over without any other branch.** -/
theorem cherryPick_tended (picked : String) :
    Keeps (Tended state r.IsBackup) (r.cherryPick picked) := by
  have hpick (rest : List String) :
      Keeps (Tended state r.IsBackup) (r.try_ ("cherry-pick" :: rest)) :=
    runFrom_keeps (git_tended_of_free ⟨_, by decide, rfl⟩)
      (fun _ => bears_tended.of_still (Act.yield_still _)) _ _
  refine (bears_tended.backUp none).bind fun _ => (hpick _).bind fun out => ?_
  split
  · exact (hpick _).bind fun _ => .throw
  · exact .pure trivial

end Repository

/-! ## The way of the branch of a patch -/

/-- A branch is checked out, and behind some branches there are others of a kind. -/
structure Rehearsal.Tidy (kind : String → Prop) (current : String) (branches : List String)
    (s : Rehearsal.Repository) : Prop where
  current : s.current = current
  branches : ∃ more, s.branches = branches ++ more ∧ ∀ b ∈ more, kind b

open Rehearsal (Tidy)

namespace Rehearsal.Tidy

variable {kind kind' : String → Prop} {current branch : String} {B : List String}
variable {s : Rehearsal.Repository}

theorem imp (h : Tidy kind current B s) (hkind : ∀ b, kind b → kind' b) :
    Tidy kind' current B s := by
  obtain ⟨more, hbranches, hmore⟩ := h.branches
  exact ⟨h.current, more, hbranches, fun b hb => hkind b (hmore b hb)⟩

theorem mem (h : Tidy kind current B s) (hmem : branch ∈ B) : branch ∈ s.branches := by
  obtain ⟨more, hbranches, -⟩ := h.branches
  rw [hbranches]
  exact List.mem_append_left _ hmem

/-- There are no others if there are none of the kind. -/
theorem eq (h : Tidy (fun _ => False) current B s) : s.branches = B := by
  obtain ⟨more, hbranches, hmore⟩ := h.branches
  rw [hbranches, List.eq_nil_iff_forall_not_mem.2 hmore, List.append_nil]

end Rehearsal.Tidy

namespace Session

variable {r : Repository} {i : Issue} {p : Patch} {E : World → Prop}
variable {base current branch : String} {B : List String} {kind kind' : String → Prop}

variable (hfollows : Follows o.git state)

include hfollows

/-- Work that makes new branches of a kind alone leaves a tidy repository tidy. -/
theorem tended_leads {α : Type} {x : Act α} (hx : Keeps (Tended state kind) x)
    (hkind : ∀ b, kind b → b ∉ B → kind' b) :
    Leads (Stands o state (Tidy kind' current B)) x (fun _ => Stands o state (Tidy kind' current B))
      (Stands o state (Tidy kind' current B)) := by
  refine (Leads.of_obeys hx fun w w' hw ht => ?_).post fun _ _ h => h.2
  have hf : Follows w.outside.git state := hw.outside ▸ hfollows
  obtain ⟨more, hmore, hnew⟩ := ht.branches hf
  obtain ⟨before, hbefore, hold⟩ := hw.repository.branches
  have hnew' : ∀ b ∈ more, kind' b := fun b hb =>
    hkind b (hnew b hb).1 fun hmem => (hnew b hb).2 (hw.repository.mem hmem)
  refine ⟨ht.outside.trans hw.outside, (ht.current hf).trans hw.repository.current,
    before ++ more, ?_, List.forall_mem_append.2 ⟨hold, hnew'⟩⟩
  rw [hmore, hbefore, List.append_assoc]

theorem checkOut_tidy (hmem : branch ∈ B) :
    Leads (Stands o state (Tidy kind current B)) (r.checkOut branch)
      (fun _ => Stands o state (Tidy kind branch B)) E := by
  refine (Repository.checkOut_stands hfollows fun s hs => hs.mem hmem).post fun _ w hw => ?_
  refine hw.imp fun s' ⟨s, hs, hs'⟩ => ?_
  rw [hs']
  exact ⟨rfl, hs.branches⟩

/-- **The return to the base never fails.** -/
theorem returnTo_tidy (hmem : base ∈ B) :
    Leads (Stands o state (Tidy kind current B)) (returnTo r base)
      (fun _ => Stands o state (Tidy kind base B)) E := by
  have hready : ∀ s, Tidy kind current B s → (GitOutput.ofReply
      (Rehearsal.Repository.run s ["reset", "--hard", "--quiet"]).1).isBusy = false := by
    intro s _
    rw [Rehearsal.Repository.run_reset, Rehearsal.ofReply_reply]
    rfl
  have hreset : Leads (Stands o state (Tidy kind current B)) (r.try_ ["reset", "--hard", "--quiet"])
      (fun _ => Stands o state (Tidy kind current B)) E := by
    refine (Repository.try_stands hfollows (Repository.not_isFree (by decide)) hready).post
      fun _ w hw => hw.imp fun s' ⟨s, hs, _, hs'⟩ => ?_
    rw [hs', Rehearsal.Repository.run_reset]
    exact hs
  exact hreset.bind fun _ => checkOut_tidy hfollows hmem

/-- **A patch is committed and taken over, and the base is checked out again**
wherever that stops. -/
theorem transfer_tidy (hbase : base ∈ B) (hbranch : branch ∈ B)
    (hkind : ∀ b, r.IsBackup b → b ∉ B → kind b) :
    Leads (Stands o state (Tidy kind base B)) (transfer r base branch i p)
      (fun _ => Stands o state (Tidy kind base B)) (Stands o state (Tidy kind base B)) := by
  have hcommit : Leads (Stands o state (Tidy kind branch B))
      (Act.finally_ (commitPatch r i p) (returnTo r base))
      (fun _ => Stands o state (Tidy kind base B)) (Stands o state (Tidy kind base B)) :=
    Leads.finally_ (tended_leads hfollows (commitPatch_keeps Repository.bears_tended) hkind)
      (fun _ => returnTo_tidy hfollows hbase) (returnTo_tidy hfollows hbase)
  rw [transfer_eq]
  have hcarry : Leads (Stands o state (Tidy kind base B)) (carry r i p base branch)
      (fun _ => Stands o state (Tidy kind base B)) (Stands o state (Tidy kind base B)) :=
    (checkOut_tidy hfollows hbranch).bind fun _ => hcommit.bind fun commit =>
      (tended_leads hfollows (Repository.cherryPick_tended commit) hkind).bind fun _ =>
        .pure fun _ hw => hw
  exact hcarry.bind fun _ =>
    tended_leads hfollows (harvest_keeps Repository.bears_tended.hears) hkind

/-- **The branch of the patch is made where there was none.** -/
theorem isolate_tidy (issue patch : String) :
    Leads (Stands o state (Tidy (fun _ => False) base B)) (r.isolate issue patch "HEAD")
      (fun name w => name = r.isolationName issue patch ∧ name ∉ B ∧
        Stands o state (Tidy (fun _ => False) base (B ++ [name])) w)
      (Stands o state (Tidy (fun _ => False) base B)) := by
  have hslash : '/' ∈ (r.isolationName issue patch).toList := by
    simp [Repository.isolationName, toString]
  obtain ⟨hlong, hshort⟩ := Repository.ne_option hslash
  refine (Repository.hasBranch_stands hfollows _).bind fun found => ?_
  split
  · exact .throw fun w hw => hw.imp fun s hs => hs.1
  · rename_i hfound
    have hnew : ∀ s : Rehearsal.Repository, Tidy (fun _ => False) base B s ∧
        (found = true ↔ r.isolationName issue patch ∈ s.branches) →
        r.isolationName issue patch ∉ s.branches := fun s hs hmem => hfound (hs.2.2 hmem)
    have hrun : ∀ s : Rehearsal.Repository, r.isolationName issue patch ∉ s.branches →
        s.run ["branch", r.isolationName issue patch, "HEAD"] = (Rehearsal.reply 0 "" "",
          { s with branches := s.branches ++ [r.isolationName issue patch] }) :=
      fun s hs => s.run_branch _ hlong hshort hs
    refine (Repository.run_stands hfollows (Repository.not_isFree (by decide)) fun s hs => by
      rw [hrun s (hnew s hs)]; rfl).bind fun _ => .pure fun w hw => ⟨rfl, ?_⟩
    obtain ⟨s, hs, hs'⟩ := hw.repository
    rw [hrun s (hnew s hs), hs.1.eq] at hs'
    refine ⟨hs.1.eq ▸ hnew s hs, hw.outside, ?_, [], ?_, fun _ hb => (List.not_mem_nil hb).elim⟩
    · rw [hs']
      exact hs.1.current
    · rw [hs', List.append_nil]

/-- **The branch of the patch is taken away**, and all others stay. -/
theorem dropBranch_tidy (hnew : branch ∉ B) (hother : Text.strip base ≠ branch) :
    Leads (Stands o state (Tidy kind base (B ++ [branch]))) (dropBranch r branch)
      (fun _ => Stands o state (Tidy kind base B)) E := by
  refine (Repository.currentBranch_stands hfollows).bind fun name => ?_
  split
  · refine (Repository.hasBranch_stands hfollows branch).bind fun found => ?_
    have hmem : ∀ s, Tidy kind base (B ++ [branch]) s → branch ∈ s.branches :=
      fun s hs => hs.mem (by simp)
    split
    · refine (Repository.deleteBranch_stands hfollows fun s hs => hmem s hs.1.1).post
        fun _ w hw => hw.imp fun s' ⟨s, hs, hs'⟩ => ?_
      obtain ⟨more, hbranches, hmore⟩ := hs.1.1.branches
      rw [hs']
      refine ⟨hs.1.1.current, more, ?_, hmore⟩
      show s.branches.erase branch = _
      rw [hbranches, List.append_assoc, List.erase_append_right _ hnew, List.singleton_append,
        List.erase_cons_head]
    · rename_i hfound
      exact .pure fun w hw => (hfound (hw.repository.2.2 (hmem _ hw.repository.1.1))).elim
  · -- the base is printed, if anything is
    rename_i hsame
    refine .pure fun w hw => ?_
    obtain ⟨hs, hname⟩ := hw.repository
    rw [hs.current] at hname
    rcases hname with rfl | rfl
    · exact (hsame rfl).elim
    · exact (hsame (by simpa using hother)).elim

/-- An application opens on the base, with a branch that was not there. -/
theorem opening_tidy (hstrip : Text.strip base = base) :
    Leads (Stands o state (Tidy (fun _ => False) base B)) (opening r i p)
      (fun found w => found = (base, r.isolationName i.id p.id) ∧ r.isolationName i.id p.id ∉ B ∧
        Stands o state (Tidy (fun _ => False) base (B ++ [r.isolationName i.id p.id])) w)
      (Stands o state (Tidy (fun _ => False) base B)) := by
  refine (Repository.currentBranch_stands hfollows).bind fun name => ?_
  split
  · exact .throw fun w hw => hw.imp fun s hs => hs.1
  · rename_i found
    have hfound : ∀ w, Stands o state (fun s => Tidy (fun _ => False) base B s ∧
        (some found = none ∨ some found = some (Text.strip s.current))) w →
        found = base ∧ Stands o state (Tidy (fun _ => False) base B) w := by
      intro w hw
      obtain ⟨hs, hname⟩ := hw.repository
      refine ⟨?_, hw.imp fun s hs => hs.1⟩
      rcases hname with hname | hname
      · cases hname
      · rw [Option.some.inj hname, hs.current, hstrip]
    refine Leads.pre (Leads.given ?_) hfound
    rintro rfl
    have hclean : Keeps (Tended state fun _ => False) (requireClean r) :=
      requireClean_keeps Repository.hears_tended
    refine (tended_leads hfollows hclean fun _ h _ => h).bind fun _ =>
      (isolate_tidy hfollows i.id p.id).bind fun name => ?_
    exact .pure fun w ⟨hname, hnew⟩ => ⟨by rw [hname], hname ▸ hnew⟩

/-- **The branch of the patch is gone** once the work with it has ended. -/
theorem transfer_dropped_tidy (hbase : base ∈ B) (hnew : branch ∉ B)
    (hother : Text.strip base ≠ branch) (hkind : ∀ b, r.IsBackup b → b ∉ B ++ [branch] → kind b) :
    Leads (Stands o state (Tidy kind base (B ++ [branch])))
      (Act.finally_ (transfer r base branch i p) (dropBranch r branch))
      (fun _ => Stands o state (Tidy kind base B)) (Stands o state (Tidy kind base B)) := by
  have hthere : branch ∈ B ++ [branch] := List.mem_append_right B List.mem_cons_self
  have htransfer := transfer_tidy (i := i) (p := p) hfollows (List.mem_append_left _ hbase) hthere hkind
  exact Leads.finally_ htransfer (fun _ => dropBranch_tidy hfollows hnew hother)
    (dropBranch_tidy hfollows hnew hother)

/-- **An application leaves a repository tidy**, wherever it ends. -/
theorem applyToRepository_tidy (hbase : base ∈ B) (hstrip : Text.strip base = base)
    (hother : r.isolationName i.id p.id ≠ base)
    (hkind : ∀ b, r.IsBackup b → b ∉ B ++ [r.isolationName i.id p.id] → kind b) :
    Leads (Stands o state (Tidy (fun _ => False) base B)) (applyToRepository r i p)
      (fun _ => Stands o state (Tidy kind base B)) (Stands o state (Tidy kind base B)) := by
  have hmore : ∀ {B : List String} (w : World), Stands o state (Tidy (fun _ => False) base B) w →
      Stands o state (Tidy kind base B) w := fun w hw => hw.imp fun s hs => hs.imp fun _ h => h.elim
  rw [applyToRepository_eq]
  refine ((opening_tidy hfollows hstrip).stops hmore).bind fun found => Leads.given ?_
  rintro rfl
  refine Leads.given fun hnew => ?_
  have hdropped := transfer_dropped_tidy (i := i) (p := p) hfollows hbase hnew
    (hstrip.symm ▸ hother.symm) hkind
  refine (hdropped.pre hmore).bind fun found => ?_
  have hconclude : Keeps (Tended state fun _ => False)
      (conclude p base (r.isolationName i.id p.id) found) := conclude_keeps found
  exact tended_leads hfollows hconclude fun _ h _ => h.elim

omit hfollows in
/-- **An application leaves no branch behind but backups, and loses none.** In
a git that answers as a minimal repository does — freely, or not at all, where
it is asked for files, the index or commits — the branch that was checked out
is checked out again wherever the application ends, and the branches are those
from before and backups: the branch of the patch is not among what is new. The
name of a branch does not begin or end with blanks. -/
theorem applyToRepository_branches {w : World} (hfollows : Follows w.outside.git state)
    (hbase : (state w.gitCalls).current ∈ (state w.gitCalls).branches)
    (hstrip : Text.strip (state w.gitCalls).current = (state w.gitCalls).current)
    (hother : r.isolationName i.id p.id ≠ (state w.gitCalls).current) :
    (state ((applyToRepository r i p).run w).2.gitCalls).current = (state w.gitCalls).current ∧
      ∃ backups, (state ((applyToRepository r i p).run w).2.gitCalls).branches =
          (state w.gitCalls).branches ++ backups ∧
        ∀ b ∈ backups, r.IsBackup b ∧ b ∉ (state w.gitCalls).branches ++ [r.isolationName i.id p.id] := by
  have htidy := Leads.ends_iff.1 (applyToRepository_tidy (i := i) (p := p) hfollows hbase hstrip hother
    fun b hb hnew => And.intro hb hnew) w ⟨rfl, rfl, [], (List.append_nil _).symm,
      fun _ hb => (List.not_mem_nil hb).elim⟩
  exact ⟨htidy.repository.current, htidy.repository.branches⟩

end Session

/-! ## An application that meets a conflict -/

namespace Small

/-- A repository in which nothing can be taken over to another branch. -/
def conflict : Rehearsal.GitScript :=
  ⟨[⟨["cherry-pick"], none, Rehearsal.reply 1 "" "CONFLICT"⟩], ⟨1, "main", ["main", "release"]⟩⟩

/-- The world with that repository. -/
def conflictWorld : World := { world "a\nb\n".toUTF8 with
  outside := { (world "a\nb\n".toUTF8).outside with git := conflict.answer } }

end Small

namespace Session

/-- The conflict leaves both branches, and backups. -/
theorem applyToRepository_branches_conflict : ∃ w' backups,
    w' = ((applyToRepository Small.repository Small.issue Small.patch).run Small.conflictWorld).2 ∧
    (Small.conflict.after w'.gitCalls).2.repository.current = "main" ∧
    (Small.conflict.after w'.gitCalls).2.repository.branches = ["main", "release"] ++ backups ∧
    ∀ b ∈ backups, Small.repository.IsBackup b := by
  have hfollows : Follows Small.conflictWorld.outside.git
      fun calls => (Small.conflict.after calls).2.repository := by
    refine Rehearsal.GitScript.follows fun rule hrule => ?_
    rw [List.mem_singleton.1 hrule]
    exact ⟨"cherry-pick", by decide, rfl⟩
  obtain ⟨hcurrent, backups, hbranches, hbackups⟩ :=
    applyToRepository_branches (r := Small.repository) (i := Small.issue) (p := Small.patch) hfollows
      (by decide) (by decide +kernel) (by decide +kernel)
  exact ⟨_, backups, rfl, hcurrent, hbranches, fun b hb => (hbackups b hb).1⟩

end Session

end RepairLoop
