import RepairLoop.Proofs.Files.Tree
import RepairLoop.Proofs.Repository.Runs
/-!
# Repository — what git does to the files

A steady git changes files only where it applies a diff or goes back to a commit by a hard
reset (`Outside.Steady`); a mild one does so only with success (`Outside.Mild`). With a
steady git all other work in a repository leaves the files alone (`World.Fixed`), and with a
mild one so does every call that fails. A diff that does not apply then leaves every content
as it was (`applyDiff_contents`): what it names is put back, and that was never gone.
-/

namespace RepairLoop

open Act (Keeps Leads)
open FileTree (SameContents Grounded)

/-- Git may change files where it is asked this. -/
def Repository.Rewriting (arguments : List String) : Prop :=
  arguments.head? = some "apply" ∨ ["reset", "--hard"] <+: arguments

open Repository (Rewriting)

/-- Git changes files only where it applies a diff or resets hard. -/
def Outside.Steady (o : Outside) : Prop :=
  ∀ calls c, (o.git (calls ++ [c])).changes ≠ [] → Rewriting c.arguments

/-- Git changes files only where it applies a diff or resets hard, and only with
success. -/
def Outside.Mild (o : Outside) : Prop :=
  ∀ calls c, (o.git (calls ++ [c])).changes ≠ [] →
    GitRun.Succeeded ⟨c, o.git (calls ++ [c])⟩ ∧ Rewriting c.arguments

theorem Outside.Mild.steady {o : Outside} (h : o.Mild) : o.Steady :=
  fun calls c hchanges => (h calls c hchanges).2

namespace World

/-- The files are the same, and so are the answers of the outside. -/
structure Intact (w w' : World) : Prop where
  outside : w'.outside = w.outside
  files : w'.files = w.files

instance : IsPreorder World Intact where
  refl _ := ⟨rfl, rfl⟩
  trans _ _ _ h h' := ⟨h'.outside.trans h.outside, h'.files.trans h.files⟩

/-- Where git is steady, the files are the same. -/
def Fixed (w w' : World) : Prop := w.outside.Steady → Intact w w'

instance : IsPreorder World Fixed where
  refl w _ := refl_of Intact w
  trans w v u h h' hsteady := by
    have hfirst := h hsteady
    exact trans_of Intact hfirst (h' (hfirst.outside ▸ hsteady))

/-- The files hold what they held, and nothing stands below one of them. -/
structure Alike (w w' : World) : Prop where
  outside : w'.outside = w.outside
  contents : SameContents w.files w'.files
  grounded : w'.files.Grounded

variable {w v u : World}

theorem Still.intact (h : Still w v) : Intact w v := ⟨h.apart.outside, h.files⟩

theorem Intact.alike (h : Intact w v) (hgrounded : w.files.Grounded) : Alike w v :=
  ⟨h.outside, h.files ▸ .refl _, h.files ▸ hgrounded⟩

theorem Alike.on (h : Alike w v) (hv : Intact v u) : Alike w u :=
  ⟨hv.outside.trans h.outside, hv.files ▸ h.contents, hv.files ▸ h.grounded⟩

end World

open World (Intact Fixed Alike)

/-- Without changes a run of git is only recorded. -/
theorem Act.afterGit_intact {c : GitCall} {w : World}
    (h : (w.outside.git (w.gitCalls ++ [c])).changes = []) : Intact w (Act.afterGit c w) := by
  refine ⟨rfl, ?_⟩
  rw [Act.afterGit, h]
  rfl

/-- What a steady git is asked otherwise leaves the files alone. -/
theorem Act.git_fixed {c : GitCall} (h : ¬ Rewriting c.arguments) : Keeps Fixed (Act.git c) := by
  intro w
  rw [Act.git_run]
  refine ⟨fun hsteady => afterGit_intact ?_, fun _ _ => trivial⟩
  by_contra hchanges
  exact h (hsteady _ _ hchanges)

namespace Repository

variable {r : Repository}

/-- A question is no such call. -/
theorem Asking.not_rewriting {arguments : List String} (h : Asking arguments) :
    ¬ Rewriting arguments := by
  obtain ⟨word, hword, hhead⟩ := h
  rintro (happly | ⟨rest, rfl⟩)
  · obtain rfl := Option.some.inj (hhead.symm.trans happly)
    exact absurd hword (by decide)
  · obtain rfl := Option.some.inj hhead
    exact absurd hword (by decide)

theorem hears_fixed : r.Hears Fixed :=
  ⟨fun _ _ hs _ => hs.intact, fun _ _ hask => Act.git_fixed hask.not_rewriting⟩

theorem try_fixed {arguments : List String} (h : ¬ Rewriting arguments) :
    Keeps Fixed (r.try_ arguments) :=
  runFrom_keeps (Act.git_fixed h) (fun _ => (hears_fixed (r := r)).of_still (Act.yield_still _)) _ _

theorem run_fixed {arguments : List String} (h : ¬ Rewriting arguments) :
    Keeps Fixed (r.run arguments) := run_keeps (try_fixed h)

/-- **A backup leaves the files alone.** -/
theorem backUp_fixed (base : Option String) : Keeps Fixed (r.backUp base) :=
  hears_fixed.backUp (fun _ _ => run_fixed (by simp [Rewriting]))
    (fun _ => Keeps.modify fun _ _ => ⟨rfl, rfl⟩) base

/-- **And so does a commit.** -/
theorem commit_fixed (message : String) (files : List String) (author : Option (String × String)) :
    Keeps Fixed (r.commit message files author) := by
  refine hears_fixed.commit (fun _ => run_fixed ?_) fun _ => run_fixed ?_ <;> simp [Rewriting]

variable {w : World} {P : World → Prop}

/-- Such work leads on to where nothing but the files and the outside counts. -/
theorem leads_of_fixed {α : Type} {x : Act α} (hx : Keeps Fixed x)
    (hsteady : ∀ v, P v → v.outside.Steady) (hon : ∀ v u, P v → Intact v u → P u) :
    Leads P x (fun _ => P) P :=
  (Leads.of_obeys hx fun v u hv hfixed => hon v u hv (hfixed (hsteady v hv))).post fun _ _ h => h.2

/-- What is done first decides about the files where the rest leaves them alone. -/
theorem intact_of_bind {α β : Type} {x : Act α} {f : α → Act β} (hsteady : (x.run w).2.outside.Steady)
    (hf : ∀ a, Keeps Fixed (f a)) : Intact (x.run w).2 ((x >>= f).run w).2 := by
  rw [run_bind_eq]
  generalize x.run w = first at hsteady ⊢
  obtain ⟨result, v⟩ := first
  cases result with
  | error e => exact refl_of Intact v
  | ok a => exact (hf a v).1 hsteady

/-! ## Calls that fail -/

/-- One run of a mild git changes nothing if it fails. -/
theorem git_intact (hmild : w.outside.Mild) (c : GitCall) :
    Leads (Intact w) (GitOutput.ofReply <$> Act.git c)
      (fun out v => out.succeeded = false → Intact w v) (Intact w) := by
  refine Leads.map fun v hv => ?_
  have hafter (hfails : ¬ GitRun.Succeeded ⟨c, v.outside.git (v.gitCalls ++ [c])⟩) :
      Intact w (Act.afterGit c v) := by
    refine trans_of Intact hv (Act.afterGit_intact ?_)
    by_contra hchanges
    have hmild' : v.outside.Mild := hv.outside ▸ hmild
    exact hfails (hmild' _ _ hchanges).1
  rw [Act.git_run]
  cases hfailure : (v.outside.git (v.gitCalls ++ [c])).failure with
  | some m =>
    refine hafter fun hsucceeded => ?_
    have hnone : (v.outside.git (v.gitCalls ++ [c])).failure = none := hsucceeded.ran
    rw [hfailure] at hnone
    cases hnone
  | none =>
    intro hfailed
    refine hafter fun hsucceeded => ?_
    rw [(GitOutput.succeeded_iff _).2 hsucceeded.code] at hfailed
    cases hfailed

/-- **A call that fails changes nothing**, however often it is tried. -/
theorem runFrom_intact (hmild : w.outside.Mild) (c : GitCall) (left tried : Nat) :
    Leads (Intact w) (r.runFrom c left tried)
      (fun out v => out.succeeded = false → Intact w v) (Intact w) := by
  refine r.runFrom_leads_of (git_intact hmild c) (fun out v hbusy hv => hv ?_)
    (fun _ _ hv hs => trans_of Intact hv hs.intact) _ _
  rw [GitOutput.isBusy, Bool.and_eq_true, bne_iff_ne] at hbusy
  exact beq_false_of_ne hbusy.1

theorem tryWith_intact (hmild : w.outside.Mild) (arguments : List String)
    (patch : Option String) : Leads (Intact w) (r.tryWith arguments patch)
      (fun out v => out.succeeded = false → Intact w v) (Intact w) :=
  runFrom_intact hmild _ _ _

/-- A call that must succeed and does not changes nothing. -/
theorem run_intact (hmild : w.outside.Mild) (arguments : List String) :
    Leads (Intact w) (r.run arguments) (fun _ _ => True) (Intact w) := by
  refine (tryWith_intact hmild arguments none).bind fun out => ?_
  split
  · exact .pure fun _ _ => trivial
  · rename_i hfailed
    exact .throw fun _ hv => hv (Bool.eq_false_iff.2 hfailed)

/-! ## Diffs that do not apply -/

/-- What is put back as it is was never gone. -/
theorem restoreOne_contents {t u : FileTree} {path : String} {content : Option ByteArray}
    (ht : t.Grounded) (hcontent : t.content? (r.pathOf path).parts = content)
    (h : r.restoreOne t path content = .ok u) : SameContents t u ∧ u.Grounded := by
  cases content with
  | none => exact ht.unlink hcontent h
  | some content => exact ht.writeDeep hcontent h

/-- **To put back what the files hold changes no content**, wherever it ends. -/
theorem restore_alike {before : Snapshot}
    (h : ∀ e ∈ before, w.files.content? (r.pathOf e.1).parts = e.2) :
    Leads (Alike w) (r.restore before) (fun _ => Alike w) (Alike w) := by
  induction before with
  | nil => exact .pure fun _ hv => hv
  | cons e rest ih =>
    have hfiles : Leads (Alike w) Act.files (fun files v => files = v.files ∧ Alike w v) (Alike w) :=
      fun _ hv => ⟨rfl, hv⟩
    refine hfiles.bind fun files => ?_
    have hone : Leads (fun v => files = v.files ∧ Alike w v)
        (Act.ofExcept ((r.restoreOne files e.1 e.2).mapError (·.toFault)))
        (fun restored v => (SameContents w.files restored ∧ restored.Grounded) ∧ Alike w v)
        (Alike w) := by
      refine .ofExcept ?_ fun _ hv => hv.2
      rintro v restored ⟨rfl, hv⟩ hrestored
      have hcontent := (hv.contents _).trans (h e List.mem_cons_self)
      obtain ⟨hsame, hgrounded⟩ := restoreOne_contents hv.grounded hcontent (mapError_eq_ok.1 hrestored)
      exact ⟨⟨hv.contents.trans hsame, hgrounded⟩, hv⟩
    refine hone.bind fun restored => ?_
    have hset : Leads (fun v => (SameContents w.files restored ∧ restored.Grounded) ∧ Alike w v)
        (Act.setFiles fun _ => restored) (fun _ => Alike w) (Alike w) :=
      fun v hv => ⟨hv.2.outside, hv.1.1, hv.1.2⟩
    exact hset.bind fun _ => ih fun e he => h e (List.mem_cons_of_mem _ he)

section

variable (hsteady : w.outside.Steady) {α : Type} {x : Act α}

include hsteady

/-- Work that leaves the files alone goes on from files that are the same. -/
theorem leads_intact (hx : Keeps Fixed x) :
    Leads (Intact w) x (fun _ => Intact w) (Intact w) :=
  leads_of_fixed hx (fun _ hv => hv.outside.symm ▸ hsteady) fun _ _ hv h => trans_of Intact hv h

/-- And from files that hold the same. -/
theorem leads_alike (hx : Keeps Fixed x) : Leads (Alike w) x (fun _ => Alike w) (Alike w) :=
  leads_of_fixed hx (fun _ hv => hv.outside.symm ▸ hsteady) fun _ _ hv h => hv.on h

end

/-- Where a diff is not applied, what was taken down before is what the files still hold. -/
theorem tryDiff_alike (hmild : w.outside.Mild) (hgrounded : w.files.Grounded) (diff : String)
    (threeWay : Bool) (paths : List String) :
    Leads (Intact w) (r.tryDiff diff threeWay paths)
      (fun tried v => tried.2.succeeded = false →
        (∀ e ∈ tried.1, w.files.content? (r.pathOf e.1).parts = e.2) ∧ Alike w v) (Alike w) := by
  have halike : ∀ v, Intact w v → Alike w v := fun _ hv => hv.alike hgrounded
  have hfiles : Leads (Intact w) Act.files (fun files v => files = w.files ∧ Intact w v)
      (Alike w) := fun _ hv => ⟨hv.files, hv⟩
  refine hfiles.bind fun files => .given fun hfiles => ?_
  have hbefore : Leads (Intact w)
      (Act.ofExcept ((r.snapshot files paths).mapError (·.toFault)))
      (fun before v => (∀ e ∈ before, w.files.content? (r.pathOf e.1).parts = e.2) ∧ Intact w v)
      (Alike w) := by
    refine .ofExcept (fun v before hv hsnapshot => ⟨fun e he => ?_, hv⟩) halike
    rw [snapshot_eq (mapError_eq_ok.1 hsnapshot)] at he
    obtain ⟨p, -, rfl⟩ := List.mem_map.1 he
    rw [hfiles]
  refine hbefore.bind fun before => .given fun hbefore => ?_
  refine ((leads_intact hmild.steady Keeps.get).stops halike).bind fun _ => ?_
  refine ((tryWith_intact hmild _ _).stops halike).bind fun out => ?_
  exact .pure fun v hv hfailed => ⟨hbefore, halike v (hv hfailed)⟩

/-- **A diff that does not apply leaves every content as it was.** -/
theorem applyDiff_contents (hmild : w.outside.Mild) (hgrounded : w.files.Grounded)
    (diff : String) (threeWay backup : Bool) :
    Leads (· = w) (r.applyDiff diff threeWay backup) (fun _ _ => True)
      (fun v => SameContents w.files v.files) := by
  have halike : ∀ v, Intact w v → Alike w v := fun _ hv => hv.alike hgrounded
  refine Leads.stops (E := Alike w) ?_ fun _ hv => hv.contents
  have hparse : Leads (· = w) (Act.ofExcept ((Diff.parse diff).mapError (·.toFault)))
      (fun _ => Intact w) (Intact w) :=
    .ofExcept (fun v _ hv _ => hv ▸ refl_of Intact v) fun v hv => hv ▸ refl_of Intact v
  have hbackup := leads_intact hmild.steady (backUp_fixed (r := r) none)
  refine (hparse.stops halike).bind fun parsed => Leads.when (hbackup.stops halike) ?_
  refine (tryDiff_alike hmild hgrounded diff threeWay (touched parsed.1)).bind fun tried => ?_
  obtain ⟨before, out⟩ := tried
  dsimp only
  split
  · rename_i hfailed
    have hfailed : out.succeeded = false := (Bool.not_eq_true' _).mp hfailed
    refine Leads.pre (.given fun hbefore => ?_) fun v hv => hv hfailed
    have hreset : Keeps Fixed (r.try_ (["reset", "--quiet", "--"] ++ touched parsed.1)) :=
      try_fixed (by simp [Rewriting])
    refine (restore_alike (r := r) hbefore).bind fun _ => Leads.when (leads_alike hmild.steady hreset) ?_
    exact (leads_alike hmild.steady ((Act.emit_still _).weaken fun _ _ hs _ => hs.intact)).bind fun _ =>
      .throw fun _ hv => hv
  · exact .pure fun _ _ => trivial

end Repository

end RepairLoop
