import RepairLoop.Proofs.Diff.Parsed
import RepairLoop.Proofs.Lifecycle
import RepairLoop.Proofs.World.Obeys
import RepairLoop.Proposal.Proposer
/-!
# Proposal — how a completion becomes a patch

A patch is made of a draft: of one without a change it is a patch whose
completion could not be used, of one with a change it carries the two
versions of the file and the diff between them unaltered, whatever the
safety gate decides (`build_change`). The section that is used is one that
was read from the completion (`targetOf_legible`).
-/

namespace RepairLoop.Proposal

open Diff (Extraction FilePatch)

/-! ## The section that is used -/

theorem firstFenced_legible {bodies : List (List Char)} {x : Extraction}
    (h : Diff.firstFenced bodies = .ok (.inl x)) : ∀ p ∈ x.files, p.Legible := by
  induction bodies with
  | nil => cases h
  | cons body rest ih =>
    rw [Diff.firstFenced] at h
    split at h
    · rename_i files notes hparse
      obtain rfl := Sum.inl.inj (Except.ok.inj h)
      exact (Diff.parseChars_legible hparse).1
    · cases h
    · obtain ⟨r, hr, h⟩ := ok_of_bind h
      split at h
      · obtain rfl := Sum.inl.inj (Except.ok.inj h)
        exact ih hr
      · cases h

/-- **The sections found in a completion are legible.** -/
theorem extract_legible {completion : String} {x : Extraction}
    (h : Diff.extract completion = .ok x) : ∀ p ∈ x.files, p.Legible := by
  unfold Diff.extract Diff.extractChars at h
  split at h
  · cases h
  obtain ⟨r, hr, h⟩ := ok_of_bind h
  split at h
  · obtain rfl := Except.ok.inj h
    exact firstFenced_legible hr
  · split at h
    · cases h
    · split at h
      · rename_i hparse
        obtain rfl := Except.ok.inj h
        exact (Diff.parseChars_legible hparse).1
      · cases h
      · cases h

/-- The section that is used is one of those that were found. -/
theorem mem_of_targetOf {x : Extraction} {path : String} {target : FilePatch}
    (h : targetOf x path = .ok target) : target ∈ x.files := by
  unfold targetOf at h
  split at h
  · rename_i t ht
    obtain rfl := Except.ok.inj h
    rcases Option.or_eq_some_iff.1 ht with ht | ⟨-, ht⟩
    · obtain ⟨i, -, hi⟩ := Option.bind_eq_some_iff.1 ht
      exact List.mem_of_getElem? hi
    · exact List.mem_of_head? ht
  · cases h

/-- The section that is used is legible. -/
theorem targetOf_legible {completion path : String} {x : Extraction} {target : FilePatch}
    (hx : Diff.extract completion = .ok x) (h : targetOf x path = .ok target) :
    target.Legible :=
  extract_legible hx target (mem_of_targetOf h)

/-! ## The change of a draft -/

/-- The change states what the section of the completion does to the file. -/
structure Comes (path completion : String) (c : FileChange) (target : FilePatch) : Prop where
  extracted : ∃ x, Diff.extract completion = .ok x ∧ targetOf x path = .ok target
  applied : Diff.apply c.original target = .ok c.patched
  diff : c.diff = restated target c.original c.patched
  diff_ne : c.diff ≠ ""

/-- What a section comes to: a reason that it cannot be used for, or its change. -/
theorem draftOf_cases (x : Extraction) (target : FilePatch) (original : String) :
    (∃ reason, draftOf x target original = .unusable reason (some x)) ∨
      ∃ patched, Diff.apply original target = .ok patched ∧
        restated target original patched ≠ "" ∧ draftOf x target original =
          .change ⟨x, target.path, original, patched, restated target original patched⟩ := by
  unfold draftOf
  split
  · exact .inl ⟨_, rfl⟩
  · rename_i patched hpatched
    simp only
    split
    · exact .inl ⟨_, rfl⟩
    · rename_i hne
      exact .inr ⟨patched, hpatched, by simpa using hne, rfl⟩

/-- **What a draft is made of**: a completion without a diff, or a section of its diff and the
source that it is for. -/
theorem draft_cases {read : String → Except Fault String} {path source completion : String}
    {d : Draft} (h : draft read path source completion = .ok d) :
    (∃ reason, d = .unusable reason none) ∨
      ∃ x target original, Diff.extract completion = .ok x ∧ targetOf x path = .ok target ∧
        (original = source ∨ read target.path = .ok original) ∧ d = draftOf x target original := by
  unfold draft at h
  split at h
  · cases h
  · exact .inl ⟨_, (Except.ok.inj h).symm⟩
  · rename_i x hx
    obtain ⟨target, htarget, h⟩ := ok_of_bind h
    split at h
    · exact .inr ⟨x, target, source, hx, htarget, .inl rfl, (Except.ok.inj h).symm⟩
    · obtain ⟨original, hread, h⟩ := ok_of_bind h
      exact .inr ⟨x, target, original, hx, htarget, .inr hread, (Except.ok.inj h).symm⟩

theorem draft_change {read : String → Except Fault String} {path source completion : String}
    {c : FileChange} (h : draft read path source completion = .ok (.change c)) :
    Diff.extract completion = .ok c.asked ∧ ∃ target, Comes path completion c target := by
  rcases draft_cases h with ⟨reason, heq⟩ | ⟨x, target, original, hx, htarget, -, heq⟩
  · cases heq
  rcases draftOf_cases x target original with ⟨reason, hbad⟩ | ⟨patched, hpatched, hne, hchange⟩
  · cases heq.trans hbad
  · injection heq.trans hchange with hc
    subst hc
    exact ⟨hx, target, ⟨x, hx, htarget⟩, hpatched, rfl, hne⟩

/-! ## Patches -/

/-- A patch that is found invalid is the patch it was, and invalid. -/
theorem invalidated_spec {p q : Patch} {kind : ErrorKind} {s s' : Supply}
    (h : (invalidated p kind).run s = (.ok q, s')) :
    ∃ touched, q = { p with
      validationStatus := .invalid, errorKind := some kind, needsReview := false
      updatedAt := touched } := by
  rw [invalidated, run_mapError_eq] at h
  obtain ⟨hresult, -⟩ := Prod.mk.inj h
  rw [mapError_eq_ok] at hresult
  have hact : (p.actNow (.invalidate kind false)).run s =
      (.ok q, ((p.actNow (.invalidate kind false)).run s).2) := Prod.ext hresult rfl
  obtain ⟨applied, touched, hact⟩ := Patch.act_of_actNow hact
  obtain ⟨_, -, hact⟩ := ok_of_bind hact
  exact ⟨touched, (Except.ok.inj hact).symm⟩

/-- **The safety gate rules on a patch and leaves its change alone.** -/
theorem gated_spec {settings : SafetySettings} {p q : Patch} {s s' : Supply}
    (h : (gated settings p).run s = (.ok q, s')) :
    ∃ explanation needsReview status kind touched,
      q = { p with
        explanation := explanation, needsReview := needsReview, validationStatus := status
        errorKind := kind, updatedAt := touched } ∧
      ((status = p.validationStatus ∧ kind = p.errorKind) ∨
        (status = .invalid ∧ kind = some .safetyRejection)) := by
  unfold gated at h
  split at h
  · obtain ⟨touched, rfl⟩ := invalidated_spec h
    exact ⟨_, _, _, _, _, rfl, Or.inr ⟨rfl, rfl⟩⟩
  · split at h
    · obtain ⟨rfl, -⟩ := run_ok_of_pure h
      exact ⟨_, _, _, _, _, rfl, Or.inl ⟨rfl, rfl⟩⟩
    · split at h
      · obtain ⟨rfl, -⟩ := run_ok_of_pure h
        exact ⟨_, _, _, _, _, rfl, Or.inl ⟨rfl, rfl⟩⟩
      · obtain ⟨touched, rfl⟩ := invalidated_spec h
        exact ⟨_, _, _, _, _, rfl, Or.inr ⟨rfl, rfl⟩⟩

theorem rejected_spec {dangers : List (Danger Float)} {p q : Patch} {completion reason : String}
    {asked : Option Extraction} {event : Event} {s s' : Supply}
    (h : (rejected dangers p completion reason asked).run s = (.ok (q, event), s')) :
    q.errorKind = some .parseError ∧ q.validationStatus = .invalid ∧ q.applied = p.applied ∧
      q.rolledBack = p.rolledBack ∧ q.id = p.id ∧ q.issueId = p.issueId := by
  unfold rejected at h
  obtain ⟨r, t, hr, h⟩ := run_ok_of_bind h
  obtain ⟨heq, -⟩ := run_ok_of_pure h
  obtain ⟨rfl, -⟩ := Prod.mk.inj heq
  obtain ⟨touched, rfl⟩ := invalidated_spec hr
  exact ⟨rfl, rfl, rfl, rfl, rfl, rfl⟩

/-- **A patch with a change carries it unaltered**, and only the safety gate
has ruled on it. -/
theorem scored_spec {settings : SafetySettings} {dangers : List (Danger Float)} {p q : Patch}
    {completion : String} {c : FileChange} {event : Event} {s s' : Supply}
    (h : (scored settings dangers p completion c).run s = (.ok (q, event), s')) :
    q.originalCode = c.original ∧ q.patchedCode = c.patched ∧ q.diff = c.diff ∧
      q.applied = p.applied ∧ q.rolledBack = p.rolledBack ∧ q.id = p.id ∧ q.issueId = p.issueId ∧
      ((q.validationStatus = p.validationStatus ∧ q.errorKind = p.errorKind) ∨
        (q.validationStatus = .invalid ∧ q.errorKind = some .safetyRejection)) := by
  unfold scored at h
  obtain ⟨breaking, t, -, h⟩ := run_ok_of_bind h
  obtain ⟨taken, t', -, h⟩ := run_ok_of_bind h
  obtain ⟨r, t'', hr, h⟩ := run_ok_of_bind h
  obtain ⟨heq, -⟩ := run_ok_of_pure h
  obtain ⟨rfl, -⟩ := Prod.mk.inj heq
  obtain ⟨_, _, _, _, _, rfl, hcases⟩ := gated_spec hr
  exact ⟨rfl, rfl, rfl, rfl, rfl, rfl, rfl, hcases⟩

/-! ## That there is a patch -/

/-- What may be found invalid is found invalid. -/
theorem invalidated_ok {p : Patch} (h : p.canMove .invalid = true) (kind : ErrorKind)
    (s : Supply) : ∃ q s', (invalidated p kind).run s = (.ok q, s') := by
  -- the clock is read only after the move has been allowed
  have hact : ∀ applied touched, p.act (.invalidate kind false) applied touched = .ok { p with
      validationStatus := .invalid, errorKind := some kind, needsReview := false
      updatedAt := touched } := by
    intro applied touched
    rw [Patch.act, Patch.require, if_pos h]
    rfl
  have hrun : ∃ q s', (p.actNow (.invalidate kind false)).run s = (.ok q, s') := by
    simp only [Patch.actNow, hact]
    exact ⟨_, _, rfl⟩
  obtain ⟨q, s', hrun⟩ := hrun
  refine ⟨q, s', ?_⟩
  rw [invalidated, run_mapError_eq, hrun]
  rfl

theorem gated_ok (settings : SafetySettings) {p : Patch} (h : p.canMove .invalid = true)
    (s : Supply) : ∃ q s', (gated settings p).run s = (.ok q, s') := by
  unfold gated
  simp only
  split
  · refine invalidated_ok ?_ _ s
    exact h
  · split
    · exact ⟨p, s, rfl⟩
    · split
      · exact ⟨_, s, rfl⟩
      · exact invalidated_ok h _ s

theorem scored_ok {p : Patch} {c : FileChange} {names taken : List String}
    (settings : SafetySettings) (dangers : List (Danger Float)) (completion : String)
    (h : p.canMove .invalid = true)
    (hnames : breakingChanges c.original c.patched (Language.ofPath c.path) = .ok names)
    (htaken : Proposal.dependencies c.patched (Language.ofPath c.path) = .ok taken) (s : Supply) :
    ∃ r s', (scored settings dangers p completion c).run s = (.ok r, s') := by
  simp only [scored]
  rw [run_bind_of_known hnames, run_bind_of_known htaken]
  -- whatever the scores are, the gate comes to a patch
  have hgated : ∀ p' : Patch, p'.canMove .invalid = true →
      ∀ f : Patch → ExceptT Fault (StateM Supply) (Patch × Event),
        (∀ q t, ∃ r s', (f q).run t = (.ok r, s')) →
        ∃ r s', (gated settings p' >>= f).run s = (.ok r, s') := by
    intro p' hp f hf
    obtain ⟨q, t, hq⟩ := gated_ok settings hp s
    obtain ⟨r, s', hr⟩ := hf q t
    exact ⟨r, s', by rw [run_bind_of_ok hq, hr]⟩
  refine hgated _ ?_ _ fun q t => ⟨_, t, rfl⟩
  exact h

/-! ## Patches of completions -/

theorem blankPatch_spec {issue explanation : String} {index : Int} {s : Supply} :
    ((blankPatch issue explanation index).run s).1.applied = false ∧
      ((blankPatch issue explanation index).run s).1.rolledBack = false ∧
      ((blankPatch issue explanation index).run s).1.validationStatus = .pending ∧
      ((blankPatch issue explanation index).run s).1.errorKind = none :=
  ⟨rfl, rfl, rfl, rfl⟩

/-- **The patch that a completion comes to** is new, and either says that
the completion could not be used or carries what it comes to. -/
theorem patchOf_spec {read : String → Except Fault String} {settings : SafetySettings}
    {dangers : List (Danger Float)} {issue : Issue} {completion source : String} {index : Int}
    {q : Patch} {event : Event} {s s' : Supply}
    (h : (patchOf read settings dangers issue completion source index).run s =
      (.ok (q, event), s')) :
    q.New ∧ (q.errorKind = some .parseError ∨
      ∃ c target, Comes issue.filePath completion c target ∧ q.originalCode = c.original ∧
        q.patchedCode = c.patched ∧ q.diff = c.diff ∧ q.errorKind ≠ some .parseError) := by
  unfold patchOf at h
  obtain ⟨p, t, hp, h⟩ := run_ok_of_bind h
  have hblank : ((blankPatch issue.id (explanation completion) index).run s).1 = p :=
    Except.ok.inj (congrArg (fun r => r.1) hp)
  obtain ⟨happlied, hrolled, hstatus, hkind⟩ :=
    hblank ▸ @blankPatch_spec issue.id (explanation completion) index s
  obtain ⟨d, t', hd, h⟩ := run_ok_of_bind h
  obtain ⟨hd, -⟩ := run_ok_of_known hd
  split at h
  · obtain ⟨hk, hst, ha, hr, -⟩ := rejected_spec h
    exact ⟨⟨ha.trans happlied, hr.trans hrolled, Or.inr hst⟩, Or.inl hk⟩
  · rename_i d c hd
    obtain ⟨ho, hpatched, hdiff, ha, hr, -, -, hcases⟩ := scored_spec h
    obtain ⟨-, target, hcomes⟩ := draft_change hd
    refine ⟨⟨ha.trans happlied, hr.trans hrolled, ?_⟩,
      Or.inr ⟨c, target, hcomes, ho, hpatched, hdiff, ?_⟩⟩
    · rcases hcases with ⟨hst, -⟩ | ⟨hst, -⟩
      · exact Or.inl (hst.trans hstatus)
      · exact Or.inr hst
    · rcases hcases with ⟨-, hk⟩ | ⟨-, hk⟩
      · rw [hk, hkind]
        simp
      · rw [hk]
        simp

/-- **A completion that comes to a change comes to a patch with it**, if the
interfaces of the two versions can be read. -/
theorem patchOf_ok {read : String → Except Fault String} {issue : Issue}
    {completion source : String} {c : FileChange} {names taken : List String}
    (settings : SafetySettings) (dangers : List (Danger Float)) (index : Int) (s : Supply)
    (hdraft : draft read issue.filePath source completion = .ok (.change c))
    (hnames : breakingChanges c.original c.patched (Language.ofPath c.path) = .ok names)
    (htaken : Proposal.dependencies c.patched (Language.ofPath c.path) = .ok taken) :
    ∃ q event s', (patchOf read settings dangers issue completion source index).run s =
        (.ok (q, event), s') ∧
      q.originalCode = c.original ∧ q.patchedCode = c.patched ∧ q.diff = c.diff ∧
      q.errorKind ≠ some .parseError := by
  obtain ⟨p, t, hp⟩ : ∃ p t, (blankPatch issue.id (explanation completion) index).run s =
    (p, t) := ⟨_, _, rfl⟩
  obtain ⟨happlied, hrolled, hstatus, hkind⟩ :=
    (congrArg Prod.fst hp) ▸ @blankPatch_spec issue.id (explanation completion) index s
  have hmove : p.canMove .invalid = true := by
    rw [Patch.canMove, Patch.state, hrolled, happlied, hstatus]
    rfl
  obtain ⟨⟨q, event⟩, s', hscored⟩ :=
    scored_ok settings dangers completion hmove hnames htaken t
  obtain ⟨ho, hpatched, hdiff, -, -, -, -, hcases⟩ := scored_spec hscored
  refine ⟨q, event, s', ?_, ho, hpatched, hdiff, ?_⟩
  · have hblank : (liftM (blankPatch issue.id (explanation completion) index) :
        ExceptT Fault (StateM Supply) Patch).run s = (.ok p, t) :=
      congrArg (fun r : Patch × Supply => ((Except.ok r.1 : Except Fault Patch), r.2)) hp
    rw [patchOf, run_bind_of_ok hblank, run_bind_of_known hdraft]
    exact hscored
  · rcases hcases with ⟨-, hk⟩ | ⟨-, hk⟩
    · rw [hk, hkind]
      simp
    · rw [hk]
      simp

end RepairLoop.Proposal

namespace RepairLoop.Proposer

open Proposal (Comes)

/-- What building a patch leaves behind. -/
theorem build_run {p : Proposer} {issue : Issue} {completion source : String} {index : Int}
    {w w' : World} {q : Patch}
    (h : (p.build issue completion source index).run w = (.ok q, w')) :
    ∃ event s, (Proposal.patchOf (Proposal.readSource w.files p.root) p.safety p.dangers issue
        completion source index).run w.supply = (.ok (q, event), s) ∧
      w' = { w with supply := s, events := w.events ++ [event] } := by
  unfold build at h
  obtain ⟨files, t, hfiles, h⟩ := run_ok_of_bind h
  rw [Act.files_run] at hfiles
  obtain ⟨hf, rfl⟩ := Prod.mk.inj hfiles
  obtain rfl := Except.ok.inj hf
  obtain ⟨⟨patch, event⟩, t, hsupply, h⟩ := run_ok_of_bind h
  rw [Act.supplying_run] at hsupply
  obtain ⟨hresult, rfl⟩ := Prod.mk.inj hsupply
  obtain ⟨u, t, hemit, h⟩ := run_ok_of_bind h
  rw [Act.emit_run] at hemit
  obtain ⟨-, rfl⟩ := Prod.mk.inj hemit
  obtain ⟨rfl, rfl⟩ := run_ok_of_pure h
  exact ⟨event, _, Prod.ext hresult rfl, rfl⟩

/-- **A patch that is built of a usable completion carries the change that a
section of the completion makes of the file.** -/
theorem build_change {p : Proposer} {issue : Issue} {completion source : String} {index : Int}
    {w w' : World} {q : Patch}
    (h : (p.build issue completion source index).run w = (.ok q, w'))
    (hkind : q.errorKind ≠ some .parseError) :
    ∃ c target, Comes issue.filePath completion c target ∧ q.originalCode = c.original ∧
      q.patchedCode = c.patched ∧ q.diff = c.diff := by
  obtain ⟨event, s, hpatch, -⟩ := build_run h
  rcases (Proposal.patchOf_spec hpatch).2 with hbad | ⟨c, target, hcomes, ho, hp, hd, -⟩
  · exact absurd hbad hkind
  · exact ⟨c, target, hcomes, ho, hp, hd⟩

/-- **A patch is built of every completion that comes to a change** between
versions whose interfaces can be read. -/
theorem build_ok {p : Proposer} {issue : Issue} {completion source : String} {w : World}
    {c : Proposal.FileChange} {names taken : List String} (index : Int)
    (hdraft : Proposal.draft (Proposal.readSource w.files p.root) issue.filePath source completion
      = .ok (.change c))
    (hnames : Proposal.breakingChanges c.original c.patched (Language.ofPath c.path) = .ok names)
    (htaken : Proposal.dependencies c.patched (Language.ofPath c.path) = .ok taken) :
    ∃ q w', (p.build issue completion source index).run w = (.ok q, w') ∧
      q.originalCode = c.original ∧ q.patchedCode = c.patched ∧ q.diff = c.diff ∧
      q.errorKind ≠ some .parseError := by
  obtain ⟨q, event, s', hrun, hq⟩ :=
    Proposal.patchOf_ok p.safety p.dangers index w.supply hdraft hnames htaken
  refine ⟨q, { w with supply := s', events := w.events ++ [event] }, ?_, hq⟩
  rw [build, run_bind_of_ok (Act.files_run w)]
  rw [run_bind_of_ok (a := (q, event)) (t := { w with supply := s' })
    (by rw [Act.supplying_run, hrun])]
  rw [run_bind_of_ok (Act.emit_run event _)]
  rfl

end RepairLoop.Proposer
