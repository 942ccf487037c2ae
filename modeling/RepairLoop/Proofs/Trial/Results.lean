import RepairLoop.Lifecycle
import RepairLoop.Proofs.Trial.Gate
/-!
# Trial — what the results of the gate say

A stage says what went wrong exactly if it has not passed (`StageSpec.judged_coherent`),
and the outcome of an attempt is read off its stages, so a result is coherent
(`attempt_coherent`): it is a success exactly if it names no error, and exactly if all
stages that are required have passed. A validation is a row of attempts of which all but
the last have run out of time (`attempts_retried`).
-/

namespace RepairLoop

open Act (Keeps Obeys Yields)
open World (Apart)

/-! ## Stages -/

/-- The stage names an error exactly if it has not passed, and then says something
of it. -/
structure StageResult.Coherent (s : StageResult) : Prop where
  kind : s.errorKind = none ↔ s.passed = true
  errors : s.passed = false → s.errors ≠ []

namespace StageResult

theorem coherent_passing (name : StageName) : (passing name).Coherent :=
  ⟨⟨fun _ => rfl, fun _ => rfl⟩, fun h => by cases h⟩

theorem coherent_skippedFor (name : StageName) (reason : String) :
    (skippedFor name reason).Coherent :=
  ⟨⟨fun _ => rfl, fun _ => rfl⟩, fun h => by cases h⟩

/-- A stage that names an error and has not passed. -/
theorem coherent_of_failed {s : StageResult} {kind : ErrorKind} (hkind : s.errorKind = some kind)
    (hpassed : s.passed = false) (herrors : s.errors ≠ []) : s.Coherent := by
  refine ⟨?_, fun _ => herrors⟩
  rw [hkind, hpassed]
  constructor <;> intro h <;> cases h

/-- **The verdict on coherent stages**: a success is without an error, and all have
passed; a warning is of the last one only. -/
theorem verdict_coherent {build test : StageResult} (hbuild : build.Coherent)
    (htest : test.Coherent) (security : StageResult) :
    ((verdict build test security).1 = .success ↔ (verdict build test security).2 = none) ∧
    ((verdict build test security).2 = none ↔
      build.passed = true ∧ test.passed = true ∧ security.passed = true) ∧
    ((verdict build test security).1 = .warning →
      build.passed = true ∧ test.passed = true ∧ security.passed = false) := by
  have hkinds := And.intro hbuild.kind htest.kind
  unfold verdict
  cases hb : build.passed <;> cases ht : test.passed <;> cases hs : security.passed <;>
    simp [hb, ht] at hkinds ⊢ <;> simp [hkinds]

end StageResult

namespace StageSpec

variable (spec : StageSpec)

theorem judged_name (r : CommandResult) (d : Diagnostics) : (spec.judged r d).name = spec.name := by
  unfold judged
  simp only
  repeat' split
  all_goals rfl

/-- **What a command yielded is judged coherently**, whatever it was. -/
theorem judged_coherent (r : CommandResult) (d : Diagnostics) : (spec.judged r d).Coherent := by
  unfold judged
  simp only
  split
  · split
    · exact StageResult.coherent_skippedFor _ _
    · exact StageResult.coherent_of_failed rfl rfl (by simp)
  · split
    · rename_i htimedOut
      refine StageResult.coherent_of_failed rfl ?_ (by simp)
      simp [raw, CommandResult.succeeded, htimedOut]
    · split
      · rename_i hfailed
        refine StageResult.coherent_of_failed rfl (by simpa [raw] using hfailed) ?_
        by_cases hempty : (spec.raw r d).errors = [] <;> simp [hempty]
      · rename_i hsucceeded
        have hpassed : (spec.raw r d).passed = true := by simpa [raw] using hsucceeded
        refine ⟨⟨fun _ => hpassed, fun _ => rfl⟩, fun h => ?_⟩
        rw [hpassed] at h
        cases h

theorem run_coherent (s : Sandbox) (patch : Option String) :
    Yields (fun x => x.name = spec.name ∧ x.Coherent) (spec.run s patch) := by
  unfold StageSpec.run
  split
  · exact .pure ⟨rfl, StageResult.coherent_skippedFor _ _⟩
  · exact .after fun r => .after fun d => .after fun _ =>
      .pure ⟨spec.judged_name r d, spec.judged_coherent r d⟩

end StageSpec

/-! ## Results -/

namespace ValidationResult

/-- The stage with the name is part of the result and has passed. -/
def Passed (r : ValidationResult) (name : StageName) : Prop :=
  ∃ s, r.stage? name.name = some s ∧ s.passed = true

/-- The result agrees with its stages. -/
structure Coherent (r : ValidationResult) : Prop where
  success : r.outcome = .success ↔ r.errorKind = none
  passed : r.errorKind = none ↔
    r.Passed .apply ∧ r.Passed .build ∧ r.Passed .test ∧ r.Passed .security
  warning : r.outcome = .warning → r.Passed .apply ∧ r.Passed .build ∧ r.Passed .test ∧
    ∃ s, r.stage? StageName.security.name = some s ∧ s.passed = false
  stages : ∀ s ∈ r.stages, s.Coherent
  built : r.Passed .build → r.buildSuccess = true
  tested : r.Passed .test → r.testSuccess = true

/-- What is not a failure has been built and tested. -/
def Earned (r : ValidationResult) : Prop :=
  r.outcome ≠ .failed → r.buildSuccess = true ∧ r.testSuccess = true

/-- **A coherent result is earned.** -/
theorem Coherent.earned {r : ValidationResult} (h : r.Coherent) : r.Earned := by
  intro hne
  cases houtcome : r.outcome with
  | success =>
    obtain ⟨-, hbuild, htest, -⟩ := h.passed.1 (h.success.1 houtcome)
    exact ⟨h.built hbuild, h.tested htest⟩
  | warning =>
    obtain ⟨-, hbuild, htest, -⟩ := h.warning houtcome
    exact ⟨h.built hbuild, h.tested htest⟩
  | failed => exact absurd houtcome hne

/-- What lets a patch be applied has been built and tested. -/
theorem Earned.of_passes {r : ValidationResult} {allow : Bool} (h : r.Earned)
    (hpass : r.passes allow = true) : r.buildSuccess = true ∧ r.testSuccess = true := by
  refine h fun hfailed => ?_
  rw [passes, hfailed] at hpass
  revert hpass
  cases allow <;> decide

/-- A failure that names an error is coherent if no stage but the first was run, and that
one, if any, has not passed. -/
theorem coherent_of_failed {r : ValidationResult} {kind : ErrorKind}
    (houtcome : r.outcome = .failed) (hkind : r.errorKind = some kind)
    (hall : ∀ s ∈ r.stages, s.Coherent) (hfailed : ∀ s ∈ r.stages, s.passed = false) :
    r.Coherent := by
  have hpassed (name : StageName) : ¬ r.Passed name := by
    rintro ⟨s, hs, hp⟩
    rw [hfailed s (List.mem_of_find?_eq_some hs)] at hp
    cases hp
  refine ⟨?_, ?_, ?_, hall, fun h => absurd h (hpassed _),
    fun h => absurd h (hpassed _)⟩
  · rw [houtcome, hkind]
    constructor <;> intro h <;> cases h
  · rw [hkind]
    constructor
    · intro h
      cases h
    · exact fun h => absurd h.1 (hpassed _)
  · rw [houtcome]
    intro h
    cases h

/-- What is found of five stages by their names. -/
theorem stage?_of_stages {r : ValidationResult} {applied build test security last : StageResult}
    (hstages : r.stages = [applied, build, test, security, last]) (happlied : applied.name = .apply)
    (hbuild : build.name = .build) (htest : test.name = .test)
    (hsecurity : security.name = .security) :
    r.stage? StageName.apply.name = some applied ∧ r.stage? StageName.build.name = some build ∧
      r.stage? StageName.test.name = some test ∧
      r.stage? StageName.security.name = some security := by
  simp [stage?, hstages, happlied, hbuild, htest, hsecurity, StageName.name]

end ValidationResult

open ValidationResult (Coherent Earned)

namespace Gate

variable (g : Gate)

/-- A result before anything has run is a failure without stages. -/
theorem blankResult_yields (patch : String) (isolation : Isolation) :
    Yields (fun r => r.outcome = .failed ∧ r.stages = []) (blankResult patch isolation) :=
  .after fun _ => .after fun _ => .pure ⟨rfl, rfl⟩

theorem applyStage_coherent (root : Path) (diff : String) :
    Yields (fun x => x.name = .apply ∧ x.Coherent) (g.applyStage root diff) := by
  refine .after fun r => ?_
  split
  · exact .pure ⟨rfl, StageResult.coherent_passing _⟩
  · unfold applyFailure
    split
    · split
      · exact .pure ⟨rfl, StageResult.coherent_of_failed rfl rfl (by simp)⟩
      · exact .throw
    · exact .throw

theorem performanceStage_coherent (s : Sandbox) (patch : String) (build : StageResult) :
    Yields StageResult.Coherent (g.performanceStage s patch build) := by
  unfold performanceStage
  simp only
  split
  · exact .pure (StageResult.coherent_skippedFor _ _)
  · split
    · exact .pure (StageResult.coherent_passing _)
    · exact (StageSpec.run_coherent _ s _).mono fun _ h => h.2

/-- **The result of the stages agrees with them**: its outcome is read off them. -/
theorem runStages_coherent (s : Sandbox) {r : ValidationResult} {applied : StageResult}
    (hstages : r.stages = [applied]) (hname : applied.name = .apply) (hcoherent : applied.Coherent)
    (hpassed : applied.passed = true) : Yields Coherent (g.runStages s r) := by
  refine (StageSpec.run_coherent _ s _).bind fun build hbuild =>
    (StageSpec.run_coherent _ s _).bind fun test htest =>
    (StageSpec.run_coherent _ s _).bind fun security hsecurity => ?_
  have hverdict := StageResult.verdict_coherent hbuild.2 htest.2 security
  split
  rename_i outcome kind heq
  rw [heq] at hverdict
  obtain ⟨hsuccess, hkind, hwarning⟩ := hverdict
  -- whatever stands last, the four stages before it decide
  have hresult (last : StageResult) (x : ValidationResult) (hlast : last.Coherent)
      (hx : x.stages = [applied, build, test, security, last]) (houtcome : x.outcome = outcome)
      (hxkind : x.errorKind = kind) (hb : x.buildSuccess = build.passed)
      (ht : x.testSuccess = test.passed) : x.Coherent := by
    obtain ⟨ha?, hb?, ht?, hs?⟩ :=
      ValidationResult.stage?_of_stages hx hname hbuild.1 htest.1 hsecurity.1
    have hpassed? {name : StageName} {y : StageResult} (hy : x.stage? name.name = some y) :
        x.Passed name ↔ y.passed = true := by
      constructor
      · rintro ⟨z, hz, hp⟩
        obtain rfl := Option.some.inj (hy.symm.trans hz)
        exact hp
      · exact fun hp => ⟨y, hy, hp⟩
    refine ⟨?_, ?_, ?_, ?_, fun h => hb.trans ((hpassed? hb?).1 h),
      fun h => ht.trans ((hpassed? ht?).1 h)⟩
    · rw [houtcome, hxkind]
      exact hsuccess
    · rw [hxkind, hpassed? ha?, hpassed? hb?, hpassed? ht?, hpassed? hs?, hkind]
      exact ⟨fun h => ⟨hpassed, h⟩, fun h => h.2⟩
    · intro hx
      obtain ⟨hbp, htp, hsp⟩ := hwarning (houtcome ▸ hx)
      exact ⟨⟨_, ha?, hpassed⟩, ⟨_, hb?, hbp⟩, ⟨_, ht?, htp⟩, security, hs?, hsp⟩
    · rw [hx]
      simp [hcoherent, hbuild.2, htest.2, hsecurity.2, hlast]
  simp only
  split
  · refine (g.performanceStage_coherent s _ _).bind fun performance hlast => .after fun impact =>
      .pure (hresult performance _ hlast ?_ rfl rfl rfl rfl)
    simp [hstages]
  · refine .pure (hresult (.skippedFor .performance "") _
      (StageResult.coherent_skippedFor _ _) ?_ rfl rfl rfl rfl)
    simp [hstages]

/-- And so is that of an attempt, which is a failure unless the stages ran. -/
theorem tryPatch_coherent (p : Patch) : Yields Coherent (g.tryPatch p) := by
  refine Yields.after fun w => .finally_ (.after fun _ => ?_)
  have hwork (s : Sandbox) : Yields Coherent (do
      let r ← blankResult p.id s.isolation
      let applied ← g.applyStage s.root p.diff
      let r := { r with stages := [applied] }
      if applied.passed then g.runStages s r
      else pure { r with errorKind := applied.errorKind, errors := applied.errors }) := by
    refine (blankResult_yields _ _).bind fun r hr =>
      (g.applyStage_coherent _ _).bind fun applied happlied => ?_
    split
    · rename_i hpassed
      exact g.runStages_coherent s rfl happlied.1 happlied.2 hpassed
    · rename_i hfailed
      have hnone : applied.errorKind ≠ none := fun h => hfailed (happlied.2.kind.1 h)
      obtain ⟨kind, hkind⟩ := Option.ne_none_iff_exists'.1 hnone
      refine .pure (ValidationResult.coherent_of_failed hr.1 hkind ?_ ?_)
      · exact List.forall_mem_singleton.2 happlied.2
      · exact List.forall_mem_singleton.2 (by simpa using hfailed)
  split
  · exact .after fun _ => hwork _
  · exact hwork _

/-- **Every attempt has a coherent result**, whatever stops it. -/
theorem attempt_coherent (p : Patch) : Yields Coherent (g.attempt p) := by
  refine (g.tryPatch_coherent p).attempt.bind fun r hr => ?_
  split
  · exact .pure (hr _ rfl)
  · refine (blankResult_yields _ _).bind fun r hr => .pure ?_
    have hnone (s : StageResult) : s ∉ r.stages := hr.2 ▸ List.not_mem_nil
    exact ValidationResult.coherent_of_failed hr.1 rfl (fun s hs => absurd hs (hnone s))
      fun s hs => absurd hs (hnone s)

theorem attempts_coherent (p : Patch) (left : Nat) : Yields Coherent (g.attempts p left) := by
  induction left with
  | zero => exact g.attempt_coherent p
  | succ left ih =>
    refine (g.attempt_coherent p).bind fun r hr => ?_
    split
    · exact ih
    · exact .pure hr

theorem validate_yields (p : Patch) : Yields Coherent (g.validate p) :=
  .after fun _ => (g.attempts_coherent p _).bind fun _ hr => .after fun _ => .pure hr

/-- Each patch has its result, and none is a success without a build and tests that have
passed. -/
theorem validateMany_yields (ps : List Patch) :
    Yields (fun rs => rs.length = ps.length ∧ ∀ r ∈ rs, r.Earned) (g.validateMany ps) := by
  have heach : Yields (fun rs => rs.length = ps.length ∧ ∀ r ∈ rs, r.Earned) (g.validateEach ps) := by
    induction ps with
    | nil => exact .pure ⟨rfl, by simp⟩
    | cons p ps ih =>
      refine (g.validate_yields p).bind fun r hr => ih.bind fun rs ⟨hlength, hrs⟩ => .pure ⟨?_, ?_⟩
      · rw [List.length_cons, List.length_cons, hlength]
      · exact List.forall_mem_cons.2 ⟨hr.earned, hrs⟩
  refine .after fun w => ?_
  split
  · exact .throw
  · exact heach

/-- **No result of the gate is a success without a build and tests that have
passed**, and the stores are left alone. -/
theorem validateMany_earned (ps : List Patch) :
    Obeys Apart (fun rs => ∀ r ∈ rs, r.Earned) (g.validateMany ps) :=
  (g.bears_apart.validateMany ps).obeys ((g.validateMany_yields ps).mono fun _ h => h.2)

end Gate

/-! ## A small workspace -/

namespace Small

/-- A git where every run succeeds, nothing is changed, and no branch has the
name of a new one. -/
def git (calls : List GitCall) : GitReply :=
  match (calls.getLast?.map GitCall.arguments).getD [] with
  | "init" :: _ => { saying "" with changes := [(⟨.root, ["copy", ".git"]⟩, .directory)] }
  | "show-ref" :: _ => { saying "" with code := 1 }
  | "status" :: _ => saying ""
  | _ => saying "main"
where
  /-- A run that succeeds and prints a text. -/
  saying (out : String) : GitReply := ⟨0, out.toUTF8, .empty, [], none⟩

/-- A gate whose build takes too long, with two attempts. -/
def slowGate : Gate where
  workspace := ⟨.root, ["project"]⟩
  settings := { ValidationSettings.usual with
    buildCommand := some "make", testCommand := none, securityCommand := none, maxAttempts := 2 }
  git := GitSettings.usual

/-- The world of that gate: no command comes to its end in time. -/
def slowWorld : World := { (default : World) with
  here := ⟨.root, []⟩
  workshop := ⟨.root, ["copy"]⟩
  files := ⟨[(["project", "f.txt"], .file "a\nb\n".toUTF8)]⟩
  outside := { (default : Outside) with
    git := git, command := fun _ => ⟨none, "", "", 0, true, false, [], none⟩ } }

/-- A patch of the file. -/
def change : Patch := { (default : Patch) with
  id := "patch-1", diff := "--- a/f.txt\n+++ b/f.txt\n@@ -1,2 +1,2 @@\n a\n-b\n+c\n" }

end Small

/-! ## Attempts -/

namespace Gate

variable (g : Gate)

/-- From one world to another a patch was tried as often as there are results. -/
inductive Tried (p : Patch) : World → List ValidationResult → World → Prop
  | last {w w' : World} {r : ValidationResult} (h : (g.attempt p).run w = (.ok r, w')) :
    Tried p w [r] w'
  | again {w v w' : World} {r : ValidationResult} {rs : List ValidationResult}
    (h : (g.attempt p).run w = (.ok r, v)) (hrest : Tried p v rs w') : Tried p w (r :: rs) w'

/-- A result is the last of some attempts: those before it have run out of time, and it
has done so only if no more were left. -/
structure Retried (limit : Int) (rs : List ValidationResult) (r : ValidationResult) : Prop where
  last : rs.getLast? = some r
  few : rs.length ≤ limit
  early : ∀ x ∈ rs.dropLast, x.errorKind = some .timeout
  late : r.errorKind = some .timeout → rs.length = limit

/-- An attempt comes to a result in every world. -/
theorem attempt_returns (p : Patch) (w : World) : ∃ r w', (g.attempt p).run w = (.ok r, w') := by
  rw [attempt, run_bind_of_ok (Act.attempt_run _ w)]
  cases ((g.tryPatch p).run w).1 <;> exact ⟨_, _, rfl⟩

theorem ensureBaseline_returns (w : World) : ∃ w', g.ensureBaseline.run w = (.ok (), w') := by
  have hget : (get : Act World).run w = (.ok w, w) := rfl
  rw [ensureBaseline, run_bind_of_ok hget]
  split
  · rw [run_bind_of_ok (Act.attempt_run _ w)]
    cases (g.measureBaseline.run w).1 <;> exact ⟨_, rfl⟩
  · exact ⟨w, rfl⟩

/-- **Attempts end with the first that does not run out of time**, or when none are
left. -/
theorem attempts_retried (p : Patch) (left : Nat) (w : World) :
    ∃ rs r w', (g.attempts p left).run w = (.ok r, w') ∧ g.Tried p w rs w' ∧
      Retried (left + 1) rs r := by
  induction left generalizing w with
  | zero =>
    obtain ⟨r, w', hrun⟩ := g.attempt_returns p w
    exact ⟨[r], r, w', hrun, .last hrun, rfl, by simp, fun _ hx => (List.not_mem_nil hx).elim,
      fun _ => rfl⟩
  | succ left ih =>
    obtain ⟨first, v, hfirst⟩ := g.attempt_returns p w
    rw [attempts, run_bind_of_ok hfirst]
    split
    · rename_i htimeout
      obtain ⟨rs, r, w', hrun, htried, hretried⟩ := ih v
      have hne : rs ≠ [] := by
        rintro rfl
        cases hretried.last
      have hlength : ((first :: rs).length : Int) = rs.length + 1 := by simp
      refine ⟨first :: rs, r, w', hrun, .again hfirst htried, ?_, ?_, ?_, ?_⟩
      · rw [List.getLast?_cons_of_ne_nil hne, hretried.last]
      · have hfew := hretried.few
        omega
      · rw [List.dropLast_cons_of_ne_nil hne]
        exact List.forall_mem_cons.2 ⟨beq_iff_eq.1 htimeout, hretried.early⟩
      · intro h
        have hlate := hretried.late h
        omega
    · rename_i hother
      have hone : (([first].length : Nat) : Int) ≤ ((left + 1 : Nat) : Int) + 1 := by
        rw [List.length_singleton]
        omega
      exact ⟨[first], first, v, rfl, .last hfirst, rfl, hone,
        fun _ hx => (List.not_mem_nil hx).elim, fun h => absurd (beq_iff_eq.2 h) hother⟩

/-- **A validation comes to a coherent result**: it sees to the baseline, tries the patch,
again as long as the time runs out and attempts are left, and reports the last result. -/
theorem validate_coherent (p : Patch) (w : World) (hlimit : 1 ≤ g.settings.maxAttempts) :
    ∃ r w', (g.validate p).run w = (.ok r, w') ∧ r.Coherent ∧
      ∃ u rs v, g.ensureBaseline.run w = (.ok (), u) ∧ g.Tried p u rs v ∧
        Retried g.settings.maxAttempts rs r ∧ (Act.emit (event r)).run v = (.ok (), w') := by
  obtain ⟨u, hbaseline⟩ := g.ensureBaseline_returns w
  obtain ⟨rs, r, v, hattempts, htried, hretried⟩ :=
    g.attempts_retried p (g.settings.maxAttempts.toNat - 1) u
  have hrun : (g.validate p).run w = (.ok r, ((Act.emit (event r)).run v).2) := by
    rw [validate, run_bind_of_ok hbaseline, run_bind_of_ok hattempts]
    rfl
  have hleft : ((g.settings.maxAttempts.toNat - 1 : Nat) : Int) + 1 = g.settings.maxAttempts := by
    omega
  rw [hleft] at hretried
  exact ⟨r, _, hrun, g.validate_yields p w r _ hrun, u, rs, v, hbaseline, htried, hretried, rfl⟩

/-- Both attempts are made, and the second runs out of time as well. -/
theorem validate_coherent_slow : 1 ≤ Small.slowGate.settings.maxAttempts ∧
    ∃ r w', (Small.slowGate.validate Small.change).run Small.slowWorld = (.ok r, w') ∧
      r.Coherent ∧ r.errorKind = some .timeout ∧ ∃ u rs v, Small.slowGate.Tried Small.change u rs v ∧
        rs.length = 2 := by
  have hlimit : 1 ≤ Small.slowGate.settings.maxAttempts := by decide
  have htimeout : (((Small.slowGate.validate Small.change).run Small.slowWorld).1.toOption.any
      fun r => r.errorKind == some .timeout) = true := by decide +kernel
  obtain ⟨r, w', hrun, hcoherent, u, rs, v, -, htried, hretried, -⟩ :=
    validate_coherent Small.slowGate Small.change Small.slowWorld hlimit
  rw [hrun] at htimeout
  have hkind : r.errorKind = some .timeout := beq_iff_eq.1 htimeout
  have hlength : (rs.length : Int) = 2 := hretried.late hkind
  exact ⟨hlimit, r, w', hrun, hcoherent, hkind, u, rs, v, htried, by omega⟩

end Gate

end RepairLoop
