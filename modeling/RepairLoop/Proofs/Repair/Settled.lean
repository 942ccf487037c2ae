import RepairLoop.Proofs.Repair.Course
/-!
# Repair — what is left when a repair ends

A repair first sets its issue in progress (`mark`) and then works on it
(`afterMarking`). If it comes to a report, the status of the issue and the
candidates in the store are as the report says (`process_settled`). If a fault
stops it behind the mark, the issue stays in progress, so it is in progress in
the end exactly where the repair was stopped (`process_inProgress_iff`): faults
of proposing and of applying that are no refusals, and all faults of the stages
behind the application and of the rollback, pass through.
-/

namespace RepairLoop

open Act (Keeps Obeys Leads)
open World (Apart Ready Has)
open Store (Tracks Halted)

/-- No name that will be given out is that of a patch in the store. -/
def World.Fresh (w : World) : Prop :=
  ∀ n, w.supply.given < n → ∀ q ∈ w.store.patches, q.id ≠ Supply.nameOf n

namespace Session

/-! ## The two parts of a repair -/

/-- Stores the issue unless it is known, and sets it in progress. -/
def mark (i : Issue) : Act Issue := do
  if ((← Act.store).issue? i.id).isNone then
    Act.storing fun s => s.addIssue i
  setStatus i .inProgress

/-- The repair of an issue that is in progress. -/
def afterMarking (s : Session) (i : Issue) : Act IssueReport := do
  match ← Act.attempt (s.proposeAll i) with
  | .ok candidates => s.afterProposing { IssueReport.blank i with candidates := candidates }
  | .error f => if isOfProposal f then leftOpen (.blank i) (reported f) else throw f

variable (s : Session) (i : Issue) (w : World)

/-- **A repair marks its issue and then works on it.** -/
theorem process_eq : s.process i = mark i >>= s.afterMarking := by
  rw [process, mark, bind_assoc]
  refine bind_congr fun store => ?_
  split
  · rw [bind_assoc]
    rfl
  · rfl

/-- What is known of the repair of an issue in a world. -/
def track : Track where
  issue := i.id
  old := w.store.patches
  ok := s.Clears w.outside i
  fresh := w.Fresh

/-- The names of patches that candidates must not have. -/
def takenIn (id : String) : Prop := w.Fresh ∧ ∃ q ∈ w.store.patches, q.id = id

/-- The patches are the same, and no name of theirs will be given out. -/
structure Untouched (w w' : World) : Prop where
  patches : w'.store.patches = w.store.patches
  ready : w'.Ready w.outside (takenIn w)

theorem Untouched.refl : Untouched w w :=
  ⟨rfl, rfl, fun n hn ⟨hfresh, q, hq, hid⟩ => hfresh n hn q hq hid⟩

/-- **The mark sets the issue in progress and touches no patch.** -/
theorem mark_leads : Leads (Untouched w) (mark i)
    (fun j w' => j = { i with status := .inProgress } ∧
      (Has (Tracks (s.track i w) [] none) w' ∧ w'.Ready w.outside (takenIn w))) (Untouched w) := by
  have hnow : Leads (Untouched w) Act.now (fun _ w' => True ∧ Untouched w w') (Untouched w) :=
    .of_obeys Act.now_apart fun _ _ hv ha => ⟨ha.store ▸ hv.patches, hv.ready.of_apart ha⟩
  have hset : Leads (Untouched w) (setStatus i .inProgress)
      (fun j w' => j = { i with status := .inProgress } ∧
        (Has (Tracks (s.track i w) [] none) w' ∧ w'.Ready w.outside (takenIn w)))
      (Untouched w) := by
    refine hnow.bind fun now => .given fun _ => ?_
    refine Leads.bind (Q := fun _ w' => Has (Tracks (s.track i w) [] none) w' ∧
      w'.Ready w.outside (takenIn w)) (.storing (fun v s' hv hset => ?_) fun _ hv => hv)
        fun _ => .pure fun _ hv => ⟨rfl, hv⟩
    have hstatus := Store.setIssueStatus_status hset
    obtain ⟨_, -, rfl⟩ := Store.setIssueStatus_eq hset
    exact ⟨.start hstatus hv.patches, hv.ready.outside, hv.ready.unused⟩
  rw [mark]
  have hstore : Leads (Untouched w) Act.store (fun _ => Untouched w) (Untouched w) :=
    fun _ hv => hv
  refine hstore.bind fun known => ?_
  split
  · refine Leads.bind (Q := fun _ => Untouched w) (.storing (fun v s' hv hadd => ?_)
      fun _ hv => hv) fun _ => hset
    obtain ⟨_, -, -, -, rfl⟩ := Store.addIssue_eq hadd
    exact ⟨hv.patches, hv.ready.outside, hv.ready.unused⟩
  · exact hset

/-- What is known of candidates before they are stored. -/
structure Proposed (t : Track) (ps : List Patch) : Prop where
  each : ∀ p ∈ ps, p.New ∧ t.Member p
  fresh : t.fresh → ∀ p ∈ ps, ∀ q ∈ t.old, q.id ≠ p.id
  names : (ps.map Patch.id).Nodup

/-- **Candidates are asked for before anything is stored.** -/
theorem proposed_leads :
    Leads (fun w' => Has (Tracks (s.track i w) [] none) w' ∧ w'.Ready w.outside (takenIn w))
      (s.proposeAll { i with status := .inProgress })
      (fun ps w' => Proposed (s.track i w) ps ∧ Has (Tracks (s.track i w) [] none) w')
      (Has (Tracks (s.track i w) [] none)) := by
  refine ((apart_leads (s.proposeAll_new _)).and (s.proposeAll_leads _)).imp (fun _ hw => hw)
    (fun ps w' hw => ⟨⟨fun p hp => ?_, fun hf p hp q hq hid => ?_, hw.2.1.names⟩, hw.1.2⟩)
    fun _ hw => hw.1
  · obtain ⟨hnew, howner, hvetted, -⟩ := hw.2.1.each p hp
    -- no question asks for the status of the issue
    exact ⟨hnew, howner, hvetted.mono fun _ hx => hx⟩
  · exact (hw.2.1.each p hp).name ⟨hf, q, hq, hid⟩

/-- **Behind the mark a repair settles its issue, or is stopped while the
issue is in progress.** -/
theorem afterMarking_leads :
    Leads (fun w' => Has (Tracks (s.track i w) [] none) w' ∧ w'.Ready w.outside (takenIn w))
      (s.afterMarking { i with status := .inProgress }) (fun r w' => r.Settles (s.track i w) w'.store)
      (Has (Halted (s.track i w))) := by
  refine Leads.bind (proposed_leads s i w).attempt fun r => ?_
  cases r with
  | ok ps =>
    exact .given fun hps => s.afterProposing_leads rfl rfl rfl hps.each hps.fresh hps.names
  | error f =>
    simp only
    split
    · exact leftOpen_leads _ ⟨rfl, ⟨rfl, by simp [IssueReport.blank]⟩, rfl, rfl⟩
    · exact .throw fun _ hw => hw.halted

end Session

/-! ## A small project

One file of two lines, a model that answers every question with a change of the
second line, a git where every run succeeds, and a gate without stages. -/

namespace Small

/-- What the model answers. -/
def answer : String :=
  "\x7b\"response\": \"--- a/f.txt\\n+++ b/f.txt\\n@@ -1,2 +1,2 @@\\n a\\n-b\\n+c\\n\"\x7d"

/-- The world, with the content of the file. -/
def world (content : ByteArray) : World := { (default : World) with
  here := ⟨.root, []⟩
  workshop := ⟨.root, ["copy"]⟩
  files := ⟨[(["project", "f.txt"], .file content)]⟩
  outside := { (default : Outside) with git := git, web := fun _ => .answer 200 answer } }

/-- The settings, with the form of the commit messages. -/
def settings (template : String) : Settings := { Settings.usual with
  llm := { ModelSettings.usual with backend := .local_ }
  safety := { SafetySettings.usual with denylist := [⟨"evaluation", "eval\\(", 0.4⟩] }
  validation := { ValidationSettings.usual with
    buildCommand := none, testCommand := none, securityCommand := none }
  git := { GitSettings.usual with commitMessageTemplate := template } }

/-- The session, with the form of the commit messages. -/
def session (template : String) : Session :=
  ⟨settings template, ⟨⟨.root, ["project"]⟩, (settings template).git⟩, none, none⟩

/-- The issue. -/
def issue : Issue := { (default : Issue) with id := "issue-1", filePath := "f.txt" }

theorem world_fresh (content : ByteArray) : (world content).Fresh :=
  fun _ _ _ hq => (List.not_mem_nil hq).elim

/-- The repair of the issue. -/
def repair (template : String) (content : ByteArray) : Except Fault IssueReport × World :=
  ((session template).process issue).run (world content)

/-- The issue was resolved, and a patch is applied. -/
def landed (r : Except Fault IssueReport × World) : Bool :=
  r.1.toOption.any IssueReport.isResolved && r.2.store.patches.any Patch.applied

/-- A fault has stopped the repair while the issue is in progress. -/
def stuck (r : Except Fault IssueReport × World) : Bool :=
  r.1.toOption.isNone && (r.2.store.issue? "issue-1").map Issue.status == some .inProgress

theorem of_landed {r : Except Fault IssueReport × World} (h : landed r = true) :
    ∃ report w', r = (.ok report, w') ∧ report.isResolved = true ∧
      ∃ q ∈ w'.store.patches, q.applied = true := by
  obtain ⟨hresolved, happlied⟩ := Bool.and_eq_true_iff.1 h
  match r with
  | (.ok report, w') => exact ⟨report, w', rfl, hresolved, List.any_eq_true.1 happlied⟩
  | (.error f, w') => cases hresolved

theorem of_stuck {r : Except Fault IssueReport × World} (h : stuck r = true) :
    ∃ f w', r = (.error f, w') ∧ w'.store.Shows "issue-1" .inProgress := by
  obtain ⟨hstopped, hstatus⟩ := Bool.and_eq_true_iff.1 h
  match r with
  | (.ok report, w') => cases hstopped
  | (.error f, w') => exact ⟨f, w', rfl, beq_iff_eq.1 hstatus⟩

/-- The change lands. -/
theorem lands : landed (repair "fix" "a\nb\n".toUTF8) = true := by decide +kernel

/-- A file that is no text stops the repair when it is read. -/
theorem stuck_undecodable : stuck (repair "fix" ⟨#[255]⟩) = true := by decide +kernel

end Small

namespace Session

/-! ## The issue in the end -/

variable {s : Session} {i : Issue} {w : World}

/-- **A report tells the truth**: the issue is resolved in the store if the
report says so, and open otherwise; and of the candidates in the report exactly
one stands applied in the store if the issue is resolved, and none otherwise. -/
theorem process_settled {report : IssueReport} {w' : World} (hfresh : w.Fresh)
    (hrun : (s.process i).run w = (.ok report, w')) :
    w'.store.Shows i.id (if report.isResolved then .resolved else .open_) ∧
      report.candidates.countP (fun p => w'.store.standing p.id) =
        if report.isResolved then 1 else 0 := by
  rw [process_eq] at hrun
  obtain ⟨j, v, hmark, hrun⟩ := run_ok_of_bind hrun
  obtain ⟨rfl, hmarked⟩ := (mark_leads s i w).of_run (.refl w) hmark
  have hsettles := (afterMarking_leads s i w).of_run hmarked hrun
  exact ⟨hsettles.status hfresh, hsettles.count hfresh⟩

/-- The change of the small project lands. -/
theorem process_settled_landed : ∃ report w',
    ((Small.session "fix").process Small.issue).run (Small.world "a\nb\n".toUTF8) =
      (.ok report, w') ∧ w'.store.Shows "issue-1" .resolved ∧
      report.candidates.countP (fun p => w'.store.standing p.id) = 1 := by
  obtain ⟨report, w', hrun, hresolved, -⟩ := Small.of_landed Small.lands
  have hsettled := process_settled (Small.world_fresh _) hrun
  rw [hresolved] at hsettled
  exact ⟨report, w', hrun, hsettled⟩

/-- **A repair leaves its issue in progress exactly where a fault stops it**,
unless the issue could not be marked at all. -/
theorem process_inProgress_iff (s : Session) (i : Issue) {w : World} (hfresh : w.Fresh) :
    match (mark i).run w with
    | (.ok _, _) => ((s.process i).run w).2.store.Shows i.id .inProgress ↔
        ∃ f, ((s.process i).run w).1 = .error f
    | (.error f, v) => (s.process i).run w = (.error f, v) := by
  rw [process_eq, run_bind_eq]
  cases hmark : (mark i).run w with
  | mk marked v =>
    cases marked with
    | error f => rfl
    | ok j =>
      obtain ⟨rfl, hmarked⟩ := (mark_leads s i w).of_run (.refl w) hmark
      simp only
      cases hrun : (s.afterMarking { i with status := .inProgress }).run v with
      | mk r w' =>
        cases r with
        | error f =>
          have hhalted := (afterMarking_leads s i w).of_stop hmarked hrun
          exact ⟨fun _ => ⟨f, rfl⟩, fun _ => hhalted.status⟩
        | ok report =>
          have hstatus := ((afterMarking_leads s i w).of_run hmarked hrun).status hfresh
          constructor
          · intro hprogress
            have hsame := Option.some.inj (hstatus.symm.trans hprogress)
            split at hsame <;> cases hsame
          · rintro ⟨f, hf⟩
            cases hf

/-- The file of the small project is no text. -/
theorem process_inProgress_undecodable :
    (((Small.session "fix").process Small.issue).run (Small.world ⟨#[255]⟩)).2.store.Shows
      "issue-1" .inProgress := by
  have hiff := process_inProgress_iff (Small.session "fix") Small.issue (Small.world_fresh ⟨#[255]⟩)
  have hmarked : ((mark Small.issue).run (Small.world ⟨#[255]⟩)).1.toOption.isSome = true := by
    decide +kernel
  obtain ⟨f, w', hrun, -⟩ := Small.of_stuck Small.stuck_undecodable
  cases hmark : (mark Small.issue).run (Small.world ⟨#[255]⟩) with
  | mk marked v =>
    rw [hmark] at hiff hmarked
    cases marked with
    | error e => cases hmarked
    | ok j => exact hiff.2 ⟨f, congrArg Prod.fst hrun⟩

/-- **Two repairs that leave their issue in progress.** In the first the file
is no text; in the second the form of the commit messages names what no
message has, which shows when the patch is applied. -/
theorem process_stuck :
    (∃ f w', ((Small.session "fix").process Small.issue).run (Small.world ⟨#[255]⟩) =
      (.error f, w') ∧ w'.store.Shows "issue-1" .inProgress) ∧
    ∃ f w', ((Small.session "\x7bwhat\x7d").process Small.issue).run
      (Small.world "a\nb\n".toUTF8) = (.error f, w') ∧ w'.store.Shows "issue-1" .inProgress := by
  have htemplate : Small.stuck (Small.repair "\x7bwhat\x7d" "a\nb\n".toUTF8) = true := by
    decide +kernel
  exact ⟨Small.of_stuck Small.stuck_undecodable, Small.of_stuck htemplate⟩

end Session

end RepairLoop

/-!
## Repair — nothing goes round the safety gate

What a repair applies was let through by the safety gate, with the score of all
that its completion adds (`process_gated`). And what the gate holds for a
review or refuses is not even validated: a repair comes to the same whatever
its validation makes of such patches (`processThrough_eq`).
-/

namespace RepairLoop.Session

open Act (Keeps Obeys Leads Agree)
open World (Apart Ready Has)
open Store (Tracks Halted)

/-! ### The verdict of the gate -/

/-- The settings of the safety gate: those of the proposer that was given, or
the session's own. -/
def safety (s : Session) : SafetySettings :=
  match s.proposer with
  | some p => p.safety
  | none => s.settings.safety

/-- The gate lets a patch through: it needs no review, its score is high
enough, and its diff is not too long. -/
structure Cleared (s : Session) (p : Patch) : Prop where
  review : p.needsReview = false
  score : s.safety.rejectionThreshold ≤ p.safetyScore
  size : Int.ofNat p.diff.length ≤ s.safety.maxPatchSize

variable {s : Session} {o : Outside} {i : Issue}

/-- All proposers of a session have its gate. -/
theorem Asks.safety_eq {p : Proposer} (h : s.Asks p) : p.safety = s.safety := by
  cases h with
  | given h => rw [safety, h]
  | made h => rw [safety, h]

theorem Clears.cleared {p : Patch} (h : s.Clears o i p.offer) (hreview : p.needsReview = false) :
    s.Cleared p := by
  obtain ⟨asked, hasks, hclears, -⟩ := h
  rw [hasks.safety_eq] at hclears
  exact ⟨hreview, hclears.1, hclears.2⟩

/-! ### Validation by other means -/

/-- Validates the candidates by some means and records the results. -/
def validateThrough (s : Session) (send : List Patch → Act (List ValidationResult))
    (report : IssueReport) : Act (IssueReport × Option Fault) := do
  let candidates := report.candidates.filter (·.state == .validating)
  match ← Act.attempt (send candidates) with
  | .error f => pure (report, some f)
  | .ok results =>
    recordAll s.settings.validation.allowSecurityWarnings report (candidates.zip results)

/-- The work on an issue once it has candidates, which are validated by some
means. -/
def afterProposingThrough (s : Session) (send : List Patch → Act (List ValidationResult))
    (report : IssueReport) : Act IssueReport := do
  keepPatches report.candidates
  let candidates ← beginAll report.candidates
  let (report, fault) ← s.validateThrough send { report with candidates := candidates }
  match fault with
  | none => s.afterValidating report
  | some f =>
    let candidates ← giveUp report.candidates
    leftOpen { report with candidates := candidates }
      s!"{ErrorKind.validationError.name}: {f.message}"

/-- A repair whose candidates are validated by some means. -/
def processThrough (s : Session) (send : List Patch → Act (List ValidationResult)) (i : Issue) :
    Act IssueReport := do
  let i ← mark i
  match ← Act.attempt (s.proposeAll i) with
  | .ok candidates =>
    s.afterProposingThrough send { IssueReport.blank i with candidates := candidates }
  | .error f => if isOfProposal f then leftOpen (.blank i) (reported f) else throw f

/-- The means treats patches that were let through as the gate does; what it
does with others is left open. -/
def Validates (s : Session) (send : List Patch → Act (List ValidationResult)) : Prop :=
  ∀ ps, (∀ p ∈ ps, s.Cleared p) → send ps = s.gate.validateMany ps

variable {t : Track} {ids : List String} {send : List Patch → Act (List ValidationResult)}

/-- **Only patches that were let through are validated.** -/
theorem cleared_of_validating {ps : List Patch} (hroll : Roll t ids ps)
    (hok : ∀ x, t.ok x → s.Clears o i x) :
    ∀ p ∈ ps.filter (·.state == .validating), s.Cleared p := by
  intro p hp
  obtain ⟨hp, hstate⟩ := List.mem_filter.1 hp
  have hstatus : p.validationStatus = .validating :=
    (Patch.state_eq_ofStatus.1 (beq_iff_eq.1 hstate)).2.2
  obtain ⟨hreview, hclears⟩ := (hroll.members p hp).vetted.of_status (by simp [hstatus])
    (by simp [hstatus]) (by simp [hstatus])
  exact (hok _ hclears).cleared hreview

theorem afterProposingThrough_agrees (hsend : s.Validates send)
    (hok : ∀ x, t.ok x → s.Clears o i x) {report : IssueReport}
    (hps : Proposed t report.candidates) :
    Agree (Has (Tracks t [] none)) (s.afterProposingThrough send report)
      (s.afterProposing report) := by
  refine Agree.bind (keepPatches_leads hps.each hps.fresh) fun _ => ?_
  refine Agree.bind (beginAll_leads fun p hp => (hps.each p hp).2) fun candidates w hw => ?_
  have hsame := hsend _ (cleared_of_validating hw.1 hok)
  rw [validateThrough]
  simp only
  rw [hsame]
  rfl

/-- **What the gate does not let through is never validated**: a repair comes
to the same whatever is made of lists in which there is such a patch. -/
theorem processThrough_eq (hsend : s.Validates send) : s.processThrough send i = s.process i := by
  rw [process_eq]
  funext w
  refine Agree.bind (mark_leads s i w) (fun j v hv => ?_) w (.refl w)
  obtain ⟨rfl, hv⟩ := hv
  refine Agree.bind (Leads.attempt (E := fun _ => False) (proposed_leads s i w)) (fun r => ?_) v hv
  cases r with
  | ok ps =>
    intro v ⟨hps, hv⟩
    exact afterProposingThrough_agrees hsend (fun _ hx => hx) hps v hv
  | error f => exact fun _ _ => rfl

/-! ### What is applied -/

/-- **The safety gate covers everything that is applied.** A patch that a
repair leaves applied in the store, whether it comes to a report or is stopped,
was applied before or was let through: it needs no review, its diff is short
enough, and its score, which is that of all lines that the completion adds in
any file, is high enough. Patches that are held for a review or refused are
never validated. -/
theorem process_gated (s : Session) (i : Issue) (w : World) :
    (∀ q ∈ ((s.process i).run w).2.store.patches, q.applied = true →
      q ∈ w.store.patches ∨
        (s.Cleared q ∧ ∃ p, s.Asks p ∧ p.Makes w.outside i q.offer)) ∧
    ∀ send, s.Validates send → s.processThrough send i = s.process i := by
  refine ⟨?_, fun send hsend => processThrough_eq hsend⟩
  have hsafe : ((s.process i).run w).2.store.Safe (s.track i w) := by
    have hstart (v : World) (hv : Untouched w v) : Has (Store.Safe (s.track i w)) v := by
      intro q hq _
      have hold : q ∈ w.store.patches := hv.patches ▸ hq
      exact Or.inl hold
    have hmark := (mark_leads s i w).stops hstart
    rw [process_eq]
    refine Leads.ends_iff.1 (hmark.bind fun j => .given fun hj => ?_) w (.refl w)
    rw [hj]
    exact ((afterMarking_leads s i w).post fun _ _ hw => hw.safe).stops fun _ hw => hw.safe
  intro q hq ha
  rcases hsafe q hq ha with hold | ⟨hreview, hclears⟩
  · exact Or.inl hold
  · have hcleared := hclears.cleared hreview
    obtain ⟨p, hasks, -, hmakes⟩ := hclears
    exact Or.inr ⟨hcleared, p, hasks, hmakes⟩

/-- The change of the small project lands, and its repair is the same where
what is held for a review stops the validation. -/
theorem process_gated_landed :
    (∃ report w' q, ((Small.session "fix").process Small.issue).run (Small.world "a\nb\n".toUTF8) =
      (.ok report, w') ∧ q ∈ w'.store.patches ∧ q.applied = true ∧
      (Small.session "fix").Cleared q ∧ ∃ p, (Small.session "fix").Asks p ∧
        p.Makes (Small.world "a\nb\n".toUTF8).outside Small.issue q.offer) ∧
    (Small.session "fix").processThrough (fun ps => if ps.any Patch.needsReview then throw default
      else (Small.session "fix").gate.validateMany ps) Small.issue =
        (Small.session "fix").process Small.issue := by
  obtain ⟨happlied, hsame⟩ :=
    process_gated (Small.session "fix") Small.issue (Small.world "a\nb\n".toUTF8)
  constructor
  · obtain ⟨report, w', hrun, -, q, hq, ha⟩ := Small.of_landed Small.lands
    rw [Small.repair] at hrun
    rw [hrun] at happlied
    rcases happlied q hq ha with hold | hnew
    · exact (List.not_mem_nil hold).elim
    · exact ⟨report, w', q, hrun, hq, ha, hnew⟩
  · refine hsame _ fun ps hps => ?_
    have hreview : ps.any Patch.needsReview = false :=
      List.any_eq_false.2 fun p hp => by simp [(hps p hp).review]
    rw [hreview]
    rfl

end RepairLoop.Session
