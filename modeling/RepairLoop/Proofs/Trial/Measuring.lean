import RepairLoop.Proofs.Trial.Seclusion
import RepairLoop.Proofs.World.Beside
/-!
# Trial — what measuring the performance adds to an attempt

A gate that measures performance builds once more for the baseline, and runs the benchmark for it
and in each patched copy. Where the outside is uniform, each run of a stage comes to the same end
(`StageSpec.run_like`). So the baseline leaves no trace but on record, and holds the times that
the stages take (`measureBaseline_run`). The changes in performance are therefore always told
(`impact_run`), and an attempt decides the same without and with measuring, unless the benchmark
comes to no result (`attempt_compared`). Whatever the outside answers, an attempt leaves the
baseline alone (`attempt_unmoved`).
-/

namespace RepairLoop

open Act (Ends Paired Twin Blind Keeps)
open World (Beside Like Unmoved)

/-- What a validation decides of a patch. -/
structure Judgement where
  outcome : Outcome
  errorKind : Option ErrorKind
  buildSuccess : Bool
  testSuccess : Bool
  securityScanPassed : Bool
  errors : List String
  deriving DecidableEq

/-- What is decided in a result; the rest are measures, stages and warnings. -/
def ValidationResult.judgement (r : ValidationResult) : Judgement :=
  ⟨r.outcome, r.errorKind, r.buildSuccess, r.testSuccess, r.securityScanPassed, r.errors⟩

/-! ## Commands and stages -/

namespace World

/-- Two worlds in which work is done as in the world `o`. -/
def Kindred (o w v : World) : Prop := Like o w ∧ Like o v

/-- Where the outside is uniform, nothing was done but to run commands and to report. -/
def Asks (w v : World) : Prop :=
  w.outside.Uniform → v.core = w.core ∧ v.baseline = w.baseline

instance : IsPreorder World Asks where
  refl _ _ := ⟨rfl, rfl⟩
  trans w v u h h' hu := by
    obtain ⟨hcore, hbaseline⟩ := h hu
    have houtside : v.outside = w.outside := seen_of_core hcore World.outside fun _ => rfl
    obtain ⟨hcore', hbaseline'⟩ := h' (houtside ▸ hu)
    exact ⟨hcore'.trans hcore, hbaseline'.trans hbaseline⟩

variable {o w v : World} {b : Option Sample}

theorem Kindred.mark (h : Kindred o w v) : v.containerMark = w.containerMark :=
  h.2.mark.trans h.1.mark.symm

end World

open World (Kindred Asks)

namespace Act

variable {α β : Type} {o : World} {b : Option Sample}

theorem emit_asks (e : Event) : Keeps Asks (emit e) := Keeps.modify fun _ _ => ⟨rfl, rfl⟩

theorem command_asks (c : CommandCall) : Keeps Asks (command c) := by
  intro w
  refine ⟨fun hu => ?_, fun _ _ => trivial⟩
  rw [command_uniform hu]
  exact ⟨rfl, rfl⟩

/-- What is reported makes no difference. -/
theorem emit_beside (e e' : Event) : Twin (Beside o b) (emit e) (emit e') := fun _ _ h =>
  ⟨.results rfl, ⟨h.like.outside, h.like.here, h.like.workshop, h.like.mark⟩, h.core, h.baseline⟩

theorem emit_kindred (e e' : Event) : Twin (Kindred o) (emit e) (emit e') := fun _ _ h =>
  ⟨.results rfl, ⟨h.1.outside, h.1.here, h.1.workshop, h.1.mark⟩,
    h.2.outside, h.2.here, h.2.workshop, h.2.mark⟩

/-- **A command of a uniform outside answers the same wherever it is run.** -/
theorem command_kindred (hu : o.outside.Uniform) (c : CommandCall) :
    Blind (Kindred o) (command c) := by
  rintro w v ⟨hw, hv⟩
  rw [command_uniform (hw.outside.symm ▸ hu), command_uniform (hv.outside.symm ▸ hu)]
  refine ⟨ends_eq_iff.2 ?_, ⟨hw.outside, hw.here, hw.workshop, hw.mark⟩,
    hv.outside, hv.here, hv.workshop, hv.mark⟩
  rw [hw.outside, hv.outside]

theorem like_of_asks (hu : o.outside.Uniform) {x : Act α} (hx : Keeps Asks x) {w v : World}
    (hw : Like o w) {r : Except Fault α} (hrun : x.run w = (r, v)) : Like o v := by
  have hasks := (hx w).1 (hw.outside.symm ▸ hu)
  rw [hrun] at hasks
  exact hw.on hasks.1

/-- Where two pieces of work only ask, it is enough to compare their ends. -/
theorem paired_of_asks {Q : Except Fault α → Except Fault β → Prop} {x : Act α} {y : Act β}
    (hu : o.outside.Uniform) (hx : Keeps Asks x) (hy : Keeps Asks y)
    (h : ∀ w v, Beside o b w v → Q (x.run w).1 (y.run v).1) : Paired (Beside o b) Q x y := by
  intro w v hbeside
  obtain ⟨hcore, -⟩ := (hx w).1 (hbeside.like.outside.symm ▸ hu)
  obtain ⟨hcore', hbaseline⟩ := (hy v).1 (hbeside.like'.outside.symm ▸ hu)
  exact ⟨h w v hbeside, hbeside.like.on hcore, by rw [hcore, hcore', hbeside.core],
    hbaseline.trans hbeside.baseline⟩

end Act

section

variable {R : World → World → Prop} (hcommand : ∀ c, Blind R (Act.command c))

include hcommand

theorem Command.runWords_blind (place : Path) (words : List String) (timeout : Amount) :
    Blind R (runWords place words timeout) := by
  unfold runWords
  split
  · exact .throw
  · exact (hcommand _).map

variable (hmark : ∀ w v, R w v → v.containerMark = w.containerMark)

include hmark

theorem Sandbox.run_blind (s : Sandbox) (line : String) (timeout : Amount) :
    Blind R (s.run line timeout) := by
  have hwords (words : List String) (timeout : Amount) :
      Blind R (Command.runWords s.root words timeout) :=
    Command.runWords_blind hcommand _ _ _
  unfold Sandbox.run
  split
  · refine Twin.get_bind (fun w v h => ?_) fun w => (hwords _ _).bind fun r => ?_
    · rw [hmark w v h]
    · exact Twin.when (hwords _ _) (Twin.ofExcept.bind fun _ => .pure)
  · exact Twin.ofExcept.bind fun _ => hwords _ _

/-- **A stage comes to the same end** wherever its commands do, if it does not matter for which
patch it is reported. -/
theorem StageSpec.run_twin {patch patch' : Option String}
    (hemit : ∀ r i, Twin R (Act.emit (event r patch i)) (Act.emit (event r patch' i)))
    (spec : StageSpec) (s : Sandbox) : Twin R (spec.run s patch) (spec.run s patch') := by
  unfold StageSpec.run
  split
  · exact .pure
  · exact (Sandbox.run_blind hcommand hmark _ _ _).bind fun _ => Twin.ofExcept.bind fun _ =>
      (hemit _ _).bind fun _ => .pure

end

namespace StageSpec

variable {o w : World} {b : Option Sample} (spec : StageSpec) (s : Sandbox)

theorem run_asks (patch : Option String) : Keeps Asks (spec.run s patch) :=
  StageSpec.run_keeps Act.emit_asks (fun _ _ => Act.command_asks _) spec patch

/-- **Each run of a stage comes to the end of a run in the world `o`.** -/
theorem run_like (hu : o.outside.Uniform) (hw : Like o w) (patch : Option String) :
    ((spec.run s patch).run w).1 = ((spec.run s none).run o).1 :=
  Act.ends_eq_iff.1 (run_twin (Act.command_kindred hu) (fun _ _ h => h.mark)
    (fun _ _ => Act.emit_kindred _ _) spec s o w ⟨.refl o, hw⟩).1

theorem run_paired (hu : o.outside.Uniform) (patch : Option String) :
    Paired (Beside o b) (Ends fun x y => y = x ∧ ((spec.run s none).run o).1 = .ok x)
      (spec.run s patch) (spec.run s patch) := by
  refine Act.paired_of_asks hu (spec.run_asks s patch) (spec.run_asks s patch) fun w v h => ?_
  rw [run_like spec s hu h.like, run_like spec s hu h.like']
  cases ((spec.run s none).run o).1 with
  | ok x => exact .results ⟨rfl, rfl⟩
  | error e => exact .faults e

end StageSpec

/-! ## Work in a copy -/

namespace Sandbox

/-- The program for containers is found and answers. -/
def answers (c : ContainerSettings) (o : World) : Bool :=
  o.outside.finds c.executable &&
    (CommandResult.ofReply [c.executable, "info"]
      (o.outside.command [⟨o.here, [c.executable, "info"], serviceTimeout⟩])).succeeded

variable {o w : World}

theorem isAvailable_asks (c : ContainerSettings) : Keeps Asks (isAvailable c) := by
  refine Keeps.get.bind fun w => ?_
  split
  · exact (Command.runWords_keeps (Act.command_asks _)).map
  · exact .pure trivial

theorem isAvailable_run (hu : o.outside.Uniform) (hw : Like o w) (c : ContainerSettings) :
    ((isAvailable c).run w).1 = .ok (answers c o) := by
  have hget : (get : Act World).run w = (.ok w, w) := rfl
  have hcommand := Act.command_uniform (hw.outside.symm ▸ hu)
    ⟨w.here, [c.executable, "info"], serviceTimeout⟩
  rw [isAvailable, run_bind_of_ok hget, answers, ← hw.outside, ← hw.here]
  split
  · rename_i hfound
    rw [hfound, Command.runWords, if_neg (by simp), Functor.map_map, ← bind_pure_comp,
      run_bind_of_ok hcommand]
    rfl
  · rename_i hmissing
    rw [Bool.eq_false_iff.2 hmissing]
    rfl

end Sandbox

namespace Gate

variable (g : Gate) {o w v : World} {b : Option Sample}

/-- The gate that measures performance, or the one that does not. -/
def measuring (measure : Bool) : Gate :=
  { g with settings := { g.settings with measurePerformance := measure } }

/-- Work is done in a container. -/
def contained (o : World) : Bool :=
  g.settings.container.enabled && Sandbox.answers g.settings.container o

/-- The sandbox in which the gate works. -/
def sandboxIn (o : World) : Sandbox :=
  ⟨o.workshop, if g.contained o then some g.settings.container else none⟩

/-- Whether containers are wanted and to be had. -/
def containing : Act Bool :=
  if g.settings.container.enabled then Sandbox.isAvailable g.settings.container else pure false

/-- Makes the copy at a place and works in it. -/
def copied {α : Type} (root : Path) (work : Sandbox → Act α) : Act α := do
  Act.setFiles fun t => Sandbox.placed t root.parts
    (Sandbox.copied g.settings.sandboxIgnore (t.below g.workspace.parts))
  let contained ← g.containing
  work ⟨root, if contained then some g.settings.container else none⟩

theorem inCopy_run {α : Type} (work : Sandbox → Act α) (w : World) :
    (g.inCopy work).run w =
      (Act.finally_ (g.copied w.workshop work)
        (Act.setFiles fun t => t.remove w.workshop.parts)).run w := by
  have hcopied : g.copied w.workshop work = (do
      Act.setFiles fun t => Sandbox.placed t w.workshop.parts
        (Sandbox.copied g.settings.sandboxIgnore (t.below g.workspace.parts))
      let contained ←
        if g.settings.container.enabled then Sandbox.isAvailable g.settings.container else pure false
      work ⟨w.workshop, if contained then some g.settings.container else none⟩) := by
    rw [copied, containing]
    split <;> rfl
  rw [hcopied]
  rfl

theorem containing_asks : Keeps Asks g.containing := by
  unfold containing
  split
  · exact Sandbox.isAvailable_asks _
  · exact .pure trivial

theorem containing_run (hu : o.outside.Uniform) (hw : Like o w) :
    (g.containing.run w).1 = .ok (g.contained o) := by
  unfold containing contained
  split
  · rename_i henabled
    rw [Sandbox.isAvailable_run hu hw, henabled, Bool.true_and]
  · rename_i hdisabled
    rw [Bool.eq_false_iff.2 hdisabled, Bool.false_and]
    rfl

/-- **Work in two copies is paired in the one sandbox.** -/
theorem inCopy_paired {α β : Type} {Q : Except Fault α → Except Fault β → Prop}
    (hu : o.outside.Uniform) (hfault : ∀ e, Q (.error e) (.error e)) {work : Sandbox → Act α}
    {work' : Sandbox → Act β}
    (h : Paired (Beside o b) Q (work (g.sandboxIn o)) (work' (g.sandboxIn o))) :
    Paired (Beside o b) Q (g.inCopy work) (g.inCopy work') := by
  have hcontaining : Paired (Beside o b) (Ends fun x y => x = g.contained o ∧ y = g.contained o)
      g.containing g.containing := by
    refine Act.paired_of_asks hu g.containing_asks g.containing_asks fun w v h => ?_
    rw [g.containing_run hu h.like, g.containing_run hu h.like']
    exact .results ⟨rfl, rfl⟩
  have hcopied : Paired (Beside o b) Q (g.copied o.workshop work) (g.copied o.workshop work') := by
    refine Paired.bind (Act.setFiles_blind World.sighted_beside _) hfault fun _ _ _ =>
      hcontaining.bind hfault ?_
    rintro x y ⟨rfl, rfl⟩
    exact h
  intro w v hbeside
  rw [inCopy_run, inCopy_run, hbeside.like.workshop, hbeside.like'.workshop]
  exact hcopied.finally_ (fun w v h => World.sighted_beside.step
    (Act.setFiles_moves fun t => t.remove o.workshop.parts) h) w v hbeside

/-! ## The baseline -/

/-- A run of the stage in a copy takes a time. -/
def Takes (spec : StageSpec) (o : World) (n : Int) : Prop :=
  ∃ r, ((spec.run (g.sandboxIn o) none).run o).1 = .ok r ∧ r.durationMs = n

/-- The times of the sample are what the stages take. -/
structure Gauged (o : World) (sample : Sample) : Prop where
  build : ∀ n ∈ sample.buildMs, g.Takes g.settings.buildStage o n
  benchmark : ∀ n ∈ sample.benchmarkMs, g.Takes g.settings.benchmarkStage o n

theorem artifactSize_asks (root : Path) : Keeps Asks (g.artifactSize root) :=
  Keeps.bind (R := Asks) (fun w => ⟨refl_of Asks w, fun _ _ => trivial⟩) fun _ => Keeps.ofExcept

/-- The work by which the baseline is measured. -/
def gauging (s : Sandbox) : Act Sample := do
  let build ← g.settings.buildStage.run s none
  let size ← g.artifactSize s.root
  let benchmark ← match g.settings.benchmarkStage.command? with
    | none => pure none
    | some _ => durationOf <$> g.settings.benchmarkStage.run s none
  pure ⟨durationOf build, benchmark, size⟩

theorem gauging_asks (s : Sandbox) : Keeps Asks (g.gauging s) := by
  refine (StageSpec.run_asks _ _ _).bind fun _ => (g.artifactSize_asks _).bind fun _ => ?_
  split
  · exact .pure trivial
  · exact (StageSpec.run_asks _ _ _).map.bind fun _ => .pure trivial

theorem duration_of_mem {r : StageResult} {n : Int} (h : n ∈ durationOf r) : r.durationMs = n := by
  rw [durationOf] at h
  split at h
  · exact Option.some.inj h
  · cases h

theorem gauging_gauged (hu : o.outside.Uniform) (hw : Like o w) {sample : Sample} {v : World}
    (h : (g.gauging (g.sandboxIn o)).run w = (.ok sample, v)) : g.Gauged o sample := by
  have htakes {spec : StageSpec} {r : StageResult} {w v : World} (hw : Like o w)
      (hrun : (spec.run (g.sandboxIn o) none).run w = (.ok r, v)) :
      ∀ n ∈ durationOf r, g.Takes spec o n := fun n hn =>
    ⟨r, by rw [← spec.run_like _ hu hw none, hrun], duration_of_mem hn⟩
  obtain ⟨build, u, hbuild, h⟩ := run_ok_of_bind h
  obtain ⟨size, t, hsize, h⟩ := run_ok_of_bind h
  have hu' : Like o u := Act.like_of_asks hu (StageSpec.run_asks _ _ _) hw hbuild
  have ht : Like o t := Act.like_of_asks hu (g.artifactSize_asks _) hu' hsize
  split at h
  · cases h
    exact ⟨htakes hw hbuild, fun _ hn => by cases hn⟩
  · obtain ⟨benchmark, x, hbenchmark, h⟩ := run_ok_of_bind h
    cases h
    rw [← bind_pure_comp] at hbenchmark
    obtain ⟨r, y, hrun, hr⟩ := run_ok_of_bind hbenchmark
    cases hr
    exact ⟨htakes hw hbuild, htakes ht hrun⟩

/-- **To measure the baseline of a new copy changes nothing but what is on record**, and yields
the times that the stages take. -/
theorem measureBaseline_run (hu : o.outside.Uniform) (hnew : o.files.has o.workshop.parts = false)
    (hparent : o.files.has o.workshop.parts.dropLast = true) :
    (g.measureBaseline.run o).2.core = o.core ∧
      ∀ sample, (g.measureBaseline.run o).1 = .ok sample → g.Gauged o sample := by
  have hmeasure : g.measureBaseline = g.inCopy g.gauging := rfl
  rw [hmeasure, inCopy_run, Act.finally_setFiles_run]
  set copy : FileTree := Sandbox.placed o.files o.workshop.parts
    (Sandbox.copied g.settings.sandboxIgnore (o.files.below g.workspace.parts)) with hcopy
  set gauge : Act Sample := do
    let contained ← g.containing
    g.gauging ⟨o.workshop, if contained then some g.settings.container else none⟩
  have hplaced : (g.copied o.workshop g.gauging).run o = gauge.run { o with files := copy } := rfl
  have hlike : Like o { o with files := copy } := ⟨rfl, rfl, rfl, rfl⟩
  have hasks : Keeps Asks gauge := g.containing_asks.bind fun _ => g.gauging_asks _
  -- what was placed is taken away again, and nothing else was changed
  have hback (v : World) (hcore : v.core = { o.core with files := copy }) :
      { v.core with files := v.core.files.remove o.workshop.parts } = o.core := by
    rw [hcore, hcopy, remove_placed hnew hparent]
    rfl
  rw [hplaced]
  constructor
  · exact hback _ ((hasks { o with files := copy }).1 hu).1
  · intro sample hsample
    obtain ⟨contained, u, hcontained, hgauging⟩ := run_ok_of_bind (Prod.ext hsample rfl)
    have hvalue := g.containing_run hu hlike
    rw [hcontained] at hvalue
    obtain rfl : contained = g.contained o := Except.ok.inj hvalue
    exact g.gauging_gauged hu (Act.like_of_asks hu g.containing_asks hlike hcontained) hgauging

/-! ## Stages of a patched copy -/

/-- The benchmark comes to a result in the copy, a good one or not. -/
def Benchmarks (o : World) : Prop :=
  ∃ r, ((g.settings.benchmarkStage.run (g.sandboxIn o) none).run o).1 = .ok r

/-- **There is a change from a time to the same time.** -/
theorem percentChange_same {n : Int} {before : Option Int} (h : ∀ m ∈ before, m = n) :
    ∃ q, Sample.percentChange before (some n) = .ok q := by
  cases before with
  | none => exact ⟨none, rfl⟩
  | some m =>
    obtain rfl : m = n := h m rfl
    unfold Sample.percentChange
    simp only
    split
    · exact ⟨_, rfl⟩
    · -- no time is too large for its change to itself, which is zero
      have hzero : Sample.quotient (m - m) m.toNat = .ok (Number.nearest false 0 m.toNat) := by
        have hnearest : Number.nearest false 0 m.toNat = Float.ofBits (UInt64.ofNat 0) := rfl
        have hfinite : Number.isFinite (Float.ofBits (UInt64.ofNat 0)) = true := by decide +kernel
        rw [Int.sub_self, Sample.quotient]
        exact if_pos (hnearest ▸ hfinite)
      rw [hzero]
      exact ⟨_, rfl⟩

theorem artifactSize_run (root : Path)
    (hglobs : ∀ s ∈ g.settings.artifactGlobs, ∃ search, Search.ofString s = .ok search) (v : World) :
    ∃ n, (g.artifactSize root).run v = (.ok n, v) := by
  have hsearches (globs : List String)
      (h : ∀ s ∈ globs, ∃ search, Search.ofString s = .ok search) :
      ∃ searches, globs.mapM Search.ofString = .ok searches := by
    induction globs with
    | nil => exact ⟨[], rfl⟩
    | cons s globs ih =>
      obtain ⟨⟨search, hsearch⟩, hrest⟩ := List.forall_mem_cons.1 h
      obtain ⟨searches, hsearches⟩ := ih hrest
      exact ⟨search :: searches, by rw [List.mapM_cons, hsearch, hsearches]; rfl⟩
  obtain ⟨searches, hsearches⟩ := hsearches _ hglobs
  refine ⟨Int.ofNat (v.files.sizeFound root searches), ?_⟩
  rw [artifactSize, run_bind_of_ok (Act.files_run v), Act.ofExcept_run, FileTree.sizeMatching,
    hsearches]
  rfl

/-- The performance was read off a run of the benchmark, if it has a command. -/
def Read (o : World) (performance : StageResult) : Prop :=
  (performance.command.filter (· != "")).isSome = true →
    ((g.settings.benchmarkStage.run (g.sandboxIn o) none).run o).1 = .ok performance

/-- **The changes in performance are always told**, if the times are those that the stages take. -/
theorem impact_run
    (hglobs : ∀ s ∈ g.settings.artifactGlobs, ∃ search, Search.ofString s = .ok search)
    {sample : Sample} (hgauged : g.Gauged o sample) (hv : v.baseline = some sample)
    {build performance : StageResult}
    (hbuild : ((g.settings.buildStage.run (g.sandboxIn o) none).run o).1 = .ok build)
    (hread : g.Read o performance) (root : Path) :
    ∃ i, (g.impact root build performance).run v = (.ok i, v) := by
  have hsame {spec : StageSpec} {r : StageResult} {n : Int} (htakes : g.Takes spec o n)
      (hrun : ((spec.run (g.sandboxIn o) none).run o).1 = .ok r) : n = r.durationMs := by
    obtain ⟨r', hrun', rfl⟩ := htakes
    rw [hrun] at hrun'
    rw [Except.ok.inj hrun']
  have hget : (get : Act World).run v = (.ok v, v) := rfl
  obtain ⟨compile, hcompile⟩ :=
    percentChange_same fun n hn => hsame (hgauged.build n hn) hbuild
  obtain ⟨size, hsize⟩ := g.artifactSize_run root hglobs v
  rw [impact, run_bind_of_ok hget, hv, Option.getD_some]
  simp only
  split
  · exact ⟨_, rfl⟩
  · rw [run_bind_of_ok (by rw [Act.ofExcept_run, hcompile]), run_bind_of_ok hsize]
    split
    · rename_i hran
      obtain ⟨runtime, hruntime⟩ := percentChange_same fun n hn =>
        hsame (hgauged.benchmark n hn) (hread (Bool.and_eq_true_iff.1 hran).2)
      rw [run_bind_of_ok (by rw [Act.ofExcept_run, hruntime])]
      exact ⟨_, rfl⟩
    · exact ⟨_, rfl⟩

theorem impact_asks (root : Path) (build performance : StageResult) :
    Keeps Asks (g.impact root build performance) := by
  refine Keeps.get.bind fun w => ?_
  split
  · exact .pure trivial
  · refine Keeps.ofExcept.bind fun compile => (g.artifactSize_asks _).bind fun size => ?_
    exact Keeps.either Keeps.ofExcept (.pure trivial) fun _ => .pure trivial

theorem performanceStage_asks (s : Sandbox) (patch : String) (build : StageResult) :
    Keeps Asks (g.performanceStage s patch build) := by
  unfold performanceStage
  simp only
  split
  · exact .pure trivial
  · split
    · exact .pure trivial
    · exact StageSpec.run_asks _ _ _

/-- **The performance is measured unless the benchmark stops** what was built. -/
theorem performanceStage_run (hu : o.outside.Uniform) (hv : Like o v) (patch : String)
    (build : StageResult) : ∃ r v', (g.performanceStage (g.sandboxIn o) patch build).run v = (r, v') ∧
      v'.baseline = v.baseline ∧
      ((¬ g.Benchmarks o ∧ build.passed = true ∧ ∃ e, r = .error e) ∨
        (g.Benchmarks o ∨ build.passed = false) ∧ ∃ performance, r = .ok performance ∧
          g.Read o performance) := by
  have hasks := (g.performanceStage_asks (g.sandboxIn o) patch build v).1 (hv.outside.symm ▸ hu)
  generalize hrun : (g.performanceStage (g.sandboxIn o) patch build).run v = run at hasks
  obtain ⟨r, v'⟩ := run
  refine ⟨r, v', rfl, hasks.2, ?_⟩
  unfold performanceStage at hrun
  simp only at hrun
  split at hrun
  · rename_i hfailed
    cases hrun
    refine .inr ⟨.inr (by simpa using hfailed), _, rfl, fun hcommand => ?_⟩
    cases hcommand
  · rename_i hpassed
    have hpassed : build.passed = true := by simpa using hpassed
    split at hrun
    · rename_i hnone
      have hskipped : (g.settings.benchmarkStage.run (g.sandboxIn o) none).run o =
          (.ok (g.settings.benchmarkStage.skipped "performance command not configured"), o) := by
        rw [StageSpec.run, hnone]
        rfl
      cases hrun
      refine .inr ⟨.inl ⟨_, by rw [hskipped]⟩, _, rfl, fun hcommand => ?_⟩
      cases hcommand
    · have hbenchmark := g.settings.benchmarkStage.run_like (g.sandboxIn o) hu hv (some patch)
      rw [hrun] at hbenchmark
      -- the benchmark of the patched copy comes to the end of the one in the world `o`
      cases r with
      | error e =>
        refine .inl ⟨?_, hpassed, e, rfl⟩
        rintro ⟨r, hr⟩
        rw [hr] at hbenchmark
        cases hbenchmark
      | ok r => exact .inr ⟨.inl ⟨r, hbenchmark.symm⟩, r, rfl, fun _ => hbenchmark.symm⟩

/-- The ends of an attempt without and with measuring: they decide the same, or the second one is
stopped where a patched copy was built. -/
inductive Compared (o : World) : Except Fault ValidationResult → Except Fault ValidationResult → Prop
  | same {r r' : ValidationResult} (h : r'.judgement = r.judgement)
    (hfree : g.Benchmarks o ∨ r.buildSuccess = false) : Compared o (.ok r) (.ok r')
  | faults (e : Fault) : Compared o (.error e) (.error e)
  | stopped {r : ValidationResult} (h : ¬ g.Benchmarks o) (hbuilt : r.buildSuccess = true)
    (e : Fault) : Compared o (.ok r) (.error e)

theorem blankResult_blind {R : World → World → Prop} (hR : World.Sighted R) (patch : String)
    (isolation : Isolation) : Blind R (blankResult patch isolation) :=
  (Act.supplied_blind hR _).bind fun _ => (Act.supplied_blind hR _).bind fun _ => .pure

/-- A result before anything has run is the same, and nothing was built. -/
theorem blankResult_paired (patch : String) (isolation : Isolation) :
    Paired (Beside o b) (Ends fun r r' => r' = r ∧ r.buildSuccess = false)
      (blankResult patch isolation) (blankResult patch isolation) := by
  refine Paired.bind (Act.supplied_blind World.sighted_beside _) .faults ?_
  rintro _ id rfl
  refine Paired.bind (Act.supplied_blind World.sighted_beside _) .faults ?_
  rintro _ time rfl
  exact .pure (.results ⟨rfl, rfl⟩)

/-- **A diff is applied the same** wherever the core is the same. -/
theorem applyStage_blind {R : World → World → Prop} (hR : World.Sighted R) (root : Path)
    (diff : String) : Blind R (g.applyStage root diff) := by
  have hdiff (r : Repository) : Blind R (do
      let _ ← r.commitBaseline baselineMessage
      r.applyDiff diff true false) :=
    (r.commitBaseline_blind hR _).bind fun _ => r.applyDiff_blind hR _ _
  have hprepare : Blind R (g.prepareAndApply root diff) := by
    refine (Act.setFiles_blind hR _).bind fun _ => (Act.files_blind hR).bind fun files => ?_
    split
    · exact (Repository.at_blind hR _ _).bind hdiff
    · exact (Repository.create_blind hR _ _).bind hdiff
  refine hprepare.attempt.bind fun r => ?_
  split
  · exact .pure
  · unfold applyFailure
    split
    · split
      · exact .pure
      · exact .throw
    · exact .throw

section

variable (hu : o.outside.Uniform)
variable (hglobs : ∀ s ∈ g.settings.artifactGlobs, ∃ search, Search.ofString s = .ok search)
variable {sample : Sample} (hgauged : g.Gauged o sample)

include hu hglobs hgauged

/-- **The stages decide the same**, unless the benchmark stops them. -/
theorem runStages_paired (r : ValidationResult) :
    Paired (Beside o (some sample)) (g.Compared o)
      ((g.measuring false).runStages (g.sandboxIn o) r)
      ((g.measuring true).runStages (g.sandboxIn o) r) := by
  unfold runStages
  refine (StageSpec.run_paired _ _ hu _).bind .faults ?_
  rintro _ build ⟨rfl, hbuild⟩
  refine (StageSpec.run_paired _ _ hu _).bind .faults ?_
  rintro _ test ⟨rfl, -⟩
  refine (StageSpec.run_paired _ _ hu _).bind .faults ?_
  rintro _ security ⟨rfl, -⟩
  generalize StageResult.verdict build test security = verdict
  obtain ⟨outcome, kind⟩ := verdict
  dsimp only
  have hoff : (g.measuring false).settings.measurePerformance = false := rfl
  have hon : (g.measuring true).settings.measurePerformance = true := rfl
  simp only [hoff, hon, Bool.false_eq_true, if_false, if_true]
  -- from here on only the gate that measures does anything, and it changes neither core nor baseline
  refine Act.paired_of_asks hu (.pure trivial) ?_ fun w v h => ?_
  · exact ((g.measuring true).performanceStage_asks _ _ _).bind fun _ =>
      ((g.measuring true).impact_asks _ _ _).bind fun _ => .pure trivial
  obtain ⟨result, v', hrun, hbaseline, hresult⟩ :=
    g.performanceStage_run hu h.like' r.patchId build
  have hrun : ((g.measuring true).performanceStage (g.sandboxIn o) r.patchId build).run v =
      (result, v') := hrun
  obtain ⟨hstops, hbuilt, e, rfl⟩ | ⟨hfree, performance, rfl, hread⟩ := hresult
  · rw [run_bind_eq, hrun]
    exact .stopped hstops hbuilt e
  · obtain ⟨i, hi⟩ := g.impact_run hglobs hgauged (hbaseline.trans h.baseline) hbuild hread
      (g.sandboxIn o).root
    have himpact : ((g.measuring true).impact (g.sandboxIn o).root build performance).run v' =
        (.ok i, v') := hi
    rw [run_bind_of_ok hrun, run_bind_of_ok himpact]
    exact .same rfl hfree

/-- **And so is a patch tried**, unless the benchmark stops it. -/
theorem tryPatch_paired (p : Patch) : Paired (Beside o (some sample)) (g.Compared o)
    ((g.measuring false).tryPatch p) ((g.measuring true).tryPatch p) := by
  refine g.inCopy_paired hu .faults ?_
  refine (blankResult_paired _ _).bind .faults ?_
  rintro r _ ⟨rfl, hblank⟩
  refine Paired.bind (g.applyStage_blind World.sighted_beside _ _) .faults ?_
  rintro applied _ rfl
  dsimp only
  split
  · exact g.runStages_paired hu hglobs hgauged _
  · exact .pure (.same rfl (.inr hblank))

/-- **What an attempt comes to without and with measuring**: the same is decided, and the worlds
stay beside each other; or a patched copy was built, and the benchmark stops the second one. -/
theorem attempt_compared (h : Beside o (some sample) w v) (p : Patch) : ∃ r w' r' v',
    ((g.measuring false).attempt p).run w = (.ok r, w') ∧
    ((g.measuring true).attempt p).run v = (.ok r', v') ∧
    ((r'.judgement = r.judgement ∧ (g.Benchmarks o ∨ r.buildSuccess = false) ∧
        Beside o (some sample) w' v') ∨
      (¬ g.Benchmarks o ∧ r.buildSuccess = true ∧ r'.buildSuccess = false ∧
        r'.errorKind = some .validationError)) := by
  obtain ⟨hends, hworlds⟩ := g.tryPatch_paired hu hglobs hgauged p w v h
  rw [attempt, attempt, run_bind_of_ok (Act.attempt_run _ w), run_bind_of_ok (Act.attempt_run _ v)]
  generalize ((g.measuring false).tryPatch p).run w = off at hends hworlds ⊢
  generalize ((g.measuring true).tryPatch p).run v = on at hends hworlds ⊢
  obtain ⟨r, w'⟩ := off
  obtain ⟨r', v'⟩ := on
  cases hends with
  | same hsame hfree => exact ⟨_, _, _, _, rfl, rfl, .inl ⟨hsame, hfree, hworlds⟩⟩
  | faults e =>
    have hblind : Blind (Beside o (some sample)) (do
        let r ← blankResult p.id .filesystem
        pure { r with errorKind := some .validationError, errors := [e.report] }) :=
      (blankResult_blind World.sighted_beside _ _).bind fun _ => .pure
    obtain ⟨hsame, hlast⟩ := hblind w' v' hworlds
    refine ⟨_, _, _, _, rfl, rfl, .inl ⟨?_, .inr rfl, hlast⟩⟩
    exact congrArg ValidationResult.judgement (Except.ok.inj (Act.ends_eq_iff.1 hsame))
  | stopped hstops hbuilt e =>
    exact ⟨_, _, _, _, rfl, rfl, .inr ⟨hstops, hbuilt, rfl, rfl⟩⟩

end

/-! ## The baseline stays -/

section

variable (b : Option Sample) (g : Gate)

theorem stage_unmoved (spec : StageSpec) (s : Sandbox) (patch : Option String) :
    Blind (Unmoved b) (spec.run s patch) :=
  StageSpec.run_twin (Act.command_unmoved b) (fun _ _ h => h.1 ▸ rfl)
    (fun _ _ => Act.emit_blind World.sighted_unmoved _) spec s

theorem runStages_unmoved (s : Sandbox) (r : ValidationResult) :
    Blind (Unmoved b) (g.runStages s r) := by
  have hperformance (patch : String) (build : StageResult) :
      Blind (Unmoved b) (g.performanceStage s patch build) := by
    unfold performanceStage
    dsimp only
    split
    · exact .pure
    · split
      · exact .pure
      · exact stage_unmoved b _ _ _
  have himpact (build performance : StageResult) :
      Blind (Unmoved b) (g.impact s.root build performance) := by
    refine Twin.get_bind (fun w v h => h.1 ▸ rfl) fun w => ?_
    dsimp only
    split
    · exact .pure
    · refine Twin.ofExcept.bind fun compile => Twin.bind ?_ fun size => ?_
      · exact (Act.files_blind World.sighted_unmoved).bind fun _ => .ofExcept
      · split
        · exact Twin.ofExcept.bind fun _ => .pure
        · exact .pure
  unfold runStages
  refine (stage_unmoved b _ _ _).bind fun build => (stage_unmoved b _ _ _).bind fun test =>
    (stage_unmoved b _ _ _).bind fun security => ?_
  generalize StageResult.verdict build test security = verdict
  obtain ⟨outcome, kind⟩ := verdict
  dsimp only
  split
  · exact (hperformance _ _).bind fun performance => (himpact _ _).bind fun _ => .pure
  · exact .pure

theorem inCopy_unmoved {α : Type} {work : Sandbox → Act α}
    (h : ∀ s, Blind (Unmoved b) (work s)) : Blind (Unmoved b) (g.inCopy work) := by
  have hcontaining : Blind (Unmoved b) g.containing := by
    unfold containing
    split
    · refine Twin.get_bind (fun w v h => h.1 ▸ rfl) fun w => ?_
      split
      · exact (Command.runWords_blind (Act.command_unmoved b) _ _ _).map
      · exact .pure
    · exact .pure
  have hcopied (root : Path) : Blind (Unmoved b) (g.copied root work) :=
    (Act.setFiles_blind World.sighted_unmoved _).bind fun _ => hcontaining.bind fun _ => h _
  rintro w _ ⟨rfl, hw⟩
  rw [inCopy_run]
  exact (hcopied _).finally_ (fun _ _ => World.sighted_unmoved.step (Act.setFiles_moves _)) _ _
    ⟨rfl, hw⟩

/-- **An attempt leaves the baseline alone.** -/
theorem attempt_unmoved (p : Patch) : Blind (Unmoved b) (g.attempt p) := by
  have hblank (isolation : Isolation) : Blind (Unmoved b) (blankResult p.id isolation) :=
    blankResult_blind World.sighted_unmoved _ _
  have htry : Blind (Unmoved b) (g.tryPatch p) := by
    refine inCopy_unmoved b g fun s => (hblank _).bind fun r =>
      (g.applyStage_blind World.sighted_unmoved _ _).bind fun applied => ?_
    dsimp only
    split
    · exact runStages_unmoved b g _ _
    · exact .pure
  refine htry.attempt.bind fun r => ?_
  split
  · exact .pure
  · exact (hblank _).bind fun _ => .pure

end

end Gate

end RepairLoop
