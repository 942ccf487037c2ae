import RepairLoop.Proofs.Repository.Runs
import RepairLoop.Trial.Gate
/-!
# Trial — what the gate does

All that the gate does is to run commands in copies, to apply diffs there, and steps that
run nothing. A relation between worlds that bears these (`Gate.Bears`) is kept by
everything that the gate does, shown here once for every such relation. The first of them
is that the stores are left alone.
-/

namespace RepairLoop

open Act (Keeps Obeys)
open World (Apart Quiet Still)

/-! ## Commands and sandboxes -/

section

variable {R : World → World → Prop} [IsPreorder World R]

theorem Command.runWords_keeps {place : Path} {words : List String} {timeout : Amount}
    (h : Keeps R (Act.command ⟨place, words, timeout⟩)) :
    Keeps R (Command.runWords place words timeout) := by
  unfold Command.runWords
  split
  · exact .throw
  · exact h.map

/-- **A command line in a sandbox is borne if the commands at its root are.** -/
theorem Sandbox.run_keeps {s : Sandbox}
    (h : ∀ words timeout, Keeps R (Act.command ⟨s.root, words, timeout⟩)) (line : String)
    (timeout : Amount) : Keeps R (s.run line timeout) := by
  have hwords (words : List String) (timeout : Amount) :
      Keeps R (Command.runWords s.root words timeout) := Command.runWords_keeps (h words timeout)
  unfold Sandbox.run
  split
  · refine Keeps.get.bind fun w => (hwords _ _).bind fun r => ?_
    exact Keeps.when (hwords _ _) (Keeps.ofExcept.bind fun _ => .pure trivial)
  · exact Keeps.ofExcept.bind fun _ => hwords _ _

theorem StageSpec.run_keeps {s : Sandbox} (hemit : ∀ e, Keeps R (Act.emit e))
    (hcommand : ∀ words timeout, Keeps R (Act.command ⟨s.root, words, timeout⟩))
    (spec : StageSpec) (patch : Option String) : Keeps R (spec.run s patch) := by
  unfold StageSpec.run
  split
  · exact .pure trivial
  · exact (Sandbox.run_keeps hcommand _ _).bind fun _ => Keeps.ofExcept.bind fun _ =>
      (hemit _).bind fun _ => .pure trivial

end

/-! ## The gate -/

namespace Gate

/-- In a sandbox of a kind the relation `R` bears commands and the application of a diff;
`S` bears work in a copy if `R` bears the work; both bear steps that run nothing. -/
structure Bears (g : Gate) (Kind : Path → Prop) (R S : World → World → Prop) : Prop where
  still : ∀ w w', Still w w' → R w w'
  command : ∀ c : CommandCall, Kind c.place → Keeps R (Act.command c)
  prepare : ∀ root diff, Kind root → Keeps R (g.prepareAndApply root diff)
  idle : ∀ w w', Still w w' → S w w'
  copies : ∀ {α : Type} (work : Sandbox → Act α), (∀ s, Kind s.root → Keeps R (work s)) →
    Keeps S (g.inCopy work)

theorem artifactSize_still (g : Gate) (root : Path) : Keeps Still (g.artifactSize root) :=
  Act.files_still.bind fun _ => Keeps.ofExcept

theorem impact_still (g : Gate) (root : Path) (build performance : StageResult) :
    Keeps Still (g.impact root build performance) := by
  refine Keeps.get.bind fun w => ?_
  split
  · exact .pure trivial
  · refine Keeps.ofExcept.bind fun compile => (g.artifactSize_still _).bind fun size => ?_
    exact Keeps.either Keeps.ofExcept (.pure trivial) fun _ => .pure trivial

theorem blankResult_still (patch : String) (isolation : Isolation) :
    Keeps Still (blankResult patch isolation) := by
  have hname : Keeps Still (Act.supplied Supply.freshName) := Act.supplied_still .freshName
  exact hname.bind fun _ => Act.now_still.bind fun _ => .pure trivial

namespace Bears

variable {g : Gate} {Kind : Path → Prop} {R S : World → World → Prop}

theorem of_still {α : Type} {x : Act α} (h : g.Bears Kind R S) (hx : Keeps Still x) : Keeps R x :=
  hx.weaken h.still

theorem of_idle {α : Type} {x : Act α} (h : g.Bears Kind R S) (hx : Keeps Still x) : Keeps S x :=
  hx.weaken h.idle

variable [IsPreorder World R] (h : g.Bears Kind R S) {s : Sandbox}

include h

theorem stage (hs : Kind s.root) (spec : StageSpec) (patch : Option String) :
    Keeps R (spec.run s patch) :=
  StageSpec.run_keeps (fun _ => h.of_still (Act.emit_still _)) (fun _ _ => h.command _ hs) spec patch

theorem applyStage {root : Path} (hroot : Kind root) (diff : String) :
    Keeps R (g.applyStage root diff) := by
  have hfailure (f : Fault) : Keeps R (applyFailure f) := by
    unfold applyFailure
    split
    · split
      · exact .pure trivial
      · exact .throw
    · exact .throw
  refine (h.prepare root diff hroot).attempt.bind fun r => ?_
  split
  · exact .pure trivial
  · exact hfailure _

theorem runStages (hs : Kind s.root) (r : ValidationResult) : Keeps R (g.runStages s r) := by
  have hperformance (build : StageResult) : Keeps R (g.performanceStage s r.patchId build) := by
    unfold performanceStage
    simp only
    split
    · exact .pure trivial
    · split
      · exact .pure trivial
      · exact h.stage hs _ _
  refine (h.stage hs _ _).bind fun build => (h.stage hs _ _).bind fun test =>
    (h.stage hs _ _).bind fun security => ?_
  simp only
  split
  · exact (hperformance build).bind fun _ =>
      (h.of_still (g.impact_still _ _ _)).bind fun _ => .pure trivial
  · exact .pure trivial

theorem tryPatch (p : Patch) : Keeps S (g.tryPatch p) := by
  refine h.copies _ fun s hs => ?_
  refine (h.of_still (blankResult_still _ _)).bind fun r => (h.applyStage hs _).bind fun applied => ?_
  split
  · exact h.runStages hs _
  · exact .pure trivial

theorem measureBaseline : Keeps S g.measureBaseline := by
  refine h.copies _ fun s hs => ?_
  refine (h.stage hs _ _).bind fun build =>
    (h.of_still (g.artifactSize_still _)).bind fun size => ?_
  split
  · exact .pure trivial
  · exact (h.stage hs _ _).map.bind fun _ => .pure trivial

/-! ### Whole validations -/

variable [IsPreorder World S]

theorem ensureBaseline : Keeps S g.ensureBaseline := by
  have hset (sample : Sample) :
      Keeps S (modify fun w => { w with baseline := some sample } : Act Unit) :=
    h.of_idle (Keeps.modify fun _ => ⟨.of_eq rfl rfl rfl rfl rfl, rfl, rfl, rfl, rfl⟩)
  refine Keeps.get.bind fun w => ?_
  split
  · refine h.measureBaseline.attempt.bind fun r => ?_
    split <;> exact hset _
  · exact .pure trivial

theorem attempt (p : Patch) : Keeps S (g.attempt p) := by
  refine (h.tryPatch p).attempt.bind fun r => ?_
  split
  · exact .pure trivial
  · exact (h.of_idle (blankResult_still _ _)).bind fun _ => .pure trivial

theorem attempts (p : Patch) (left : Nat) : Keeps S (g.attempts p left) := by
  induction left with
  | zero => exact h.attempt p
  | succ left ih =>
    refine (h.attempt p).bind fun r => ?_
    split
    · exact ih
    · exact .pure trivial

theorem validate (p : Patch) : Keeps S (g.validate p) :=
  h.ensureBaseline.bind fun _ => (h.attempts p _).bind fun _ =>
    (h.of_idle (Act.emit_still _)).bind fun _ => .pure trivial

theorem validateEach (ps : List Patch) : Keeps S (g.validateEach ps) := by
  induction ps with
  | nil => exact .pure trivial
  | cons p ps ih => exact (h.validate p).bind fun _ => ih.bind fun _ => .pure trivial

/-- **All that the gate does is borne**, whatever the commands do and wherever it ends. -/
theorem validateMany (ps : List Patch) : Keeps S (g.validateMany ps) := by
  refine Keeps.get.bind fun w => ?_
  split
  · exact .throw
  · exact h.validateEach ps

end Bears

/-! ## What is borne anywhere -/

/-- **It is enough to bear single runs and whatever is done without git.** -/
theorem bears_of_quiet (g : Gate) {R : World → World → Prop} [IsPreorder World R]
    (hquiet : ∀ w w', Quiet w w' → R w w') (hgit : ∀ c, Keeps R (Act.git c))
    (hcommand : ∀ c, Keeps R (Act.command c)) : g.Bears (fun _ => True) R R := by
  have hstill : ∀ w w', Still w w' → R w w' := fun w w' h => hquiet w w' h.toQuiet
  have hset (f : FileTree → FileTree) : Keeps R (Act.setFiles f) :=
    (Act.setFiles_quiet f).weaken hquiet
  have hfiles : Keeps R Act.files := Act.files_quiet.weaken hquiet
  refine ⟨hstill, fun c _ => hcommand c, fun root diff _ => ?_, hstill, fun work hwork => ?_⟩
  · have hbears (r : Repository) : r.Bears R := .of_quiet hquiet fun _ _ _ => hgit _
    refine (hset _).bind fun _ => hfiles.bind fun files => ?_
    refine Keeps.either (Repository.at_keeps hfiles _ _) (Repository.create_keeps hfiles _ _ hgit)
      fun r => ?_
    exact ((hbears r).commitBaseline _).bind fun _ => (hbears r).applyDiff _ _ _
  · have havailable : Keeps R (Sandbox.isAvailable g.settings.container) := by
      refine Keeps.get.bind fun w => ?_
      split
      · exact (Command.runWords_keeps (hcommand _)).map
      · exact .pure trivial
    refine Keeps.get.bind fun w => Obeys.finally_ ?_ (hset _)
    exact (hset _).bind fun _ => Keeps.either havailable (.pure trivial) fun _ => hwork _ trivial

/-- **The gate leaves the stores alone.** -/
theorem bears_apart (g : Gate) : g.Bears (fun _ => True) Apart Apart :=
  g.bears_of_quiet (fun _ _ h => h.apart) Act.git_apart Act.command_apart

end Gate

theorem StageSpec.run_apart (spec : StageSpec) (s : Sandbox) (patch : Option String) :
    Keeps Apart (spec.run s patch) :=
  StageSpec.run_keeps Act.emit_apart (fun _ _ => Act.command_apart _) spec patch

end RepairLoop
