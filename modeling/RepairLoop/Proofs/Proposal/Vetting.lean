import RepairLoop.Proofs.Proposal.Draft
import RepairLoop.Proofs.Supply
import RepairLoop.Proofs.World.Runs
import RepairLoop.Proposal.Proposer
/-!
# Proposal — what the safety gate lets through

A patch offers a change with a score (`Patch.Offer`). Where a patch comes from
the gate it is refused, held for a review, or cleared: then its diff is short
enough, its score is high enough, and both are those of the change that the
completion comes to, scored by all that the completion adds
(`patchOf_vetted`). The moves of a patch keep to that (`Patch.Vetted.moves`).
-/

namespace RepairLoop

/-! ## Offers -/

/-- The change that a patch offers, and its score. -/
structure Patch.Offer where
  original : String
  patched : String
  diff : String
  safety : Float

namespace Patch

/-- What a patch offers. -/
def offer (p : Patch) : Offer := ⟨p.originalCode, p.patchedCode, p.diff, p.safetyScore⟩

/-- The patch was refused, or is held for a review, or offers what it may. -/
inductive Vetted (ok : Offer → Prop) (p : Patch) : Prop
  | refused (h : p.validationStatus = .invalid ∨ p.validationStatus = .rejected)
  | held (h : p.validationStatus = .pending) (hreview : p.needsReview = true)
  | cleared (hreview : p.needsReview = false) (h : ok p.offer)

namespace Vetted

variable {ok : Offer → Prop} {p q : Patch} {a : PatchAction}

/-- **What is validated, or can be, was cleared.** -/
theorem of_status (h : p.Vetted ok) (hreview : p.validationStatus = .pending → p.needsReview = false)
    (hinvalid : p.validationStatus ≠ .invalid) (hrejected : p.validationStatus ≠ .rejected) :
    p.needsReview = false ∧ ok p.offer := by
  cases h with
  | refused h => exact (h.elim hinvalid hrejected).elim
  | held h hr => exact absurd (hr.symm.trans (hreview h)) (by decide)
  | cleared hr h => exact ⟨hr, h⟩

theorem mono {ok' : Offer → Prop} (h : p.Vetted ok) (himp : ∀ x, ok x → ok' x) :
    p.Vetted ok' := by
  cases h with
  | refused h => exact .refused h
  | held h hr => exact .held h hr
  | cleared hr h => exact .cleared hr (himp _ h)

/-- **A move changes nothing that a patch offers**, and what is held for a
review stays where it is unless its validation begins. -/
theorem moves (h : p.Vetted ok) (hm : Moves p a q) (hbegin : a = .begin → p.needsReview = false) :
    q.Vetted ok := by
  have hcleared (hstatus : p.state = .ofStatus .validating ∨ p.state = .ofStatus .valid) :
      p.needsReview = false ∧ ok p.offer := by
    refine h.of_status ?_ ?_ ?_ <;>
      (rcases hstatus with hs | hs <;> simp [(state_eq_ofStatus.1 hs).2.2])
  cases hm with
  | begin hstate =>
    have hpending := (state_eq_ofStatus.1 hstate).2.2
    obtain ⟨hr, hok⟩ := h.of_status (fun _ => hbegin rfl) (by simp [hpending]) (by simp [hpending])
    exact .cleared hr hok
  | invalidate | fail => exact .refused (Or.inl rfl)
  | pass _ _ hstate => exact .cleared (hcleared (Or.inl hstate)).1 (hcleared (Or.inl hstate)).2
  | reject => exact .refused (Or.inr rfl)
  | apply _ hstate => exact .cleared (hcleared (Or.inr hstate)).1 (hcleared (Or.inr hstate)).2
  | rollBack =>
    cases h with
    | refused h => exact .refused h
    | held h hr => exact .held h hr
    | cleared hr h => exact .cleared hr h

end Vetted

end Patch

namespace SafetySettings

/-- The gate lets an offer through. -/
def Clears (s : SafetySettings) (x : Patch.Offer) : Prop :=
  s.rejectionThreshold ≤ x.safety ∧ Int.ofNat x.diff.length ≤ s.maxPatchSize

end SafetySettings

namespace Proposal

open Supply (Grows)

/-- The offer is the change that the completion comes to, with the score of
all that the completion adds, in whatever file. -/
def Offers (dangers : List (Danger Float)) (path completion : String) (x : Patch.Offer) : Prop :=
  ∃ c target, Diff.extract completion = .ok c.asked ∧ Comes path completion c target ∧
    x = ⟨c.original, c.patched, c.diff, (safety dangers (addedText c.asked)).score⟩

/-! ## The gate -/

/-- What the gate makes of a pending patch. -/
theorem gated_cases {settings : SafetySettings} {p q : Patch} {s s' : Supply}
    (h : (gated settings p).run s = (.ok q, s')) (hpending : p.validationStatus = .pending) :
    q.validationStatus = .invalid ∨ (q.validationStatus = .pending ∧ q.needsReview = true) ∨
      (q = p ∧ settings.Clears p.offer) := by
  unfold gated at h
  split at h
  · obtain ⟨touched, rfl⟩ := invalidated_spec h
    exact Or.inl rfl
  · rename_i hshort
    split at h
    · rename_i hsafe
      obtain ⟨rfl, -⟩ := run_ok_of_pure h
      exact Or.inr (Or.inr ⟨rfl, hsafe, Int.not_lt.1 hshort⟩)
    · split at h
      · obtain ⟨rfl, -⟩ := run_ok_of_pure h
        exact Or.inr (Or.inl ⟨hpending, rfl⟩)
      · obtain ⟨touched, rfl⟩ := invalidated_spec h
        exact Or.inl rfl

theorem scored_vetted {settings : SafetySettings} {dangers : List (Danger Float)} {p q : Patch}
    {path completion : String} {c : FileChange} {target : Diff.FilePatch} {event : Event}
    {s s' : Supply} (h : (scored settings dangers p completion c).run s = (.ok (q, event), s'))
    (hpending : p.validationStatus = .pending) (hreview : p.needsReview = false)
    (hasked : Diff.extract completion = .ok c.asked) (hcomes : Comes path completion c target) :
    q.Vetted fun x => settings.Clears x ∧ Offers dangers path completion x := by
  unfold scored at h
  obtain ⟨breaking, t, -, h⟩ := run_ok_of_bind h
  obtain ⟨taken, t', -, h⟩ := run_ok_of_bind h
  obtain ⟨r, t'', hr, h⟩ := run_ok_of_bind h
  obtain ⟨heq, -⟩ := run_ok_of_pure h
  obtain ⟨rfl, -⟩ := Prod.mk.inj heq
  rcases gated_cases hr hpending with hinvalid | ⟨hp, hheld⟩ | ⟨rfl, hclears⟩
  · exact .refused (Or.inl hinvalid)
  · exact .held hp hheld
  · exact .cleared hreview ⟨hclears, c, target, hasked, hcomes, rfl⟩

/-- **A patch that comes of a completion is vetted.** -/
theorem patchOf_vetted {read : String → Except Fault String} {settings : SafetySettings}
    {dangers : List (Danger Float)} {issue : Issue} {completion source : String} {index : Int}
    {q : Patch} {event : Event} {s s' : Supply}
    (h : (patchOf read settings dangers issue completion source index).run s =
      (.ok (q, event), s')) :
    q.Vetted fun x => settings.Clears x ∧ Offers dangers issue.filePath completion x := by
  unfold patchOf at h
  obtain ⟨p, t, hp, h⟩ := run_ok_of_bind h
  have hblank : ((blankPatch issue.id (explanation completion) index).run s).1 = p :=
    Except.ok.inj (congrArg (fun r => r.1) hp)
  have hpending : p.validationStatus = .pending := hblank ▸ rfl
  have hreview : p.needsReview = false := hblank ▸ rfl
  obtain ⟨d, t', hd, h⟩ := run_ok_of_bind h
  obtain ⟨hdraft, -⟩ := run_ok_of_known hd
  cases d with
  | unusable reason asked => exact .refused (Or.inl (rejected_spec h).2.1)
  | change c =>
    obtain ⟨hasked, target, hcomes⟩ := draft_change hdraft
    exact scored_vetted h hpending hreview hasked hcomes

/-! ## The names that are taken -/

theorem invalidated_grows (p : Patch) (kind : ErrorKind) : Grows (invalidated p kind).run :=
  .bind (.actNow p _) fun _ => .pure _

theorem gated_grows (settings : SafetySettings) (p : Patch) : Grows (gated settings p).run := by
  unfold gated
  split
  · exact invalidated_grows _ _
  · split
    · exact .run_pure _
    · split
      · exact .run_pure _
      · exact invalidated_grows _ _

theorem rejected_grows (dangers : List (Danger Float)) (p : Patch) (completion reason : String)
    (asked : Option Diff.Extraction) : Grows (rejected dangers p completion reason asked).run :=
  .run_bind (invalidated_grows _ _) fun _ => .run_pure _

theorem scored_grows (settings : SafetySettings) (dangers : List (Danger Float)) (p : Patch)
    (completion : String) (c : FileChange) : Grows (scored settings dangers p completion c).run :=
  .run_bind (.run_known _) fun _ => .run_bind (.run_known _) fun _ =>
    .run_bind (gated_grows _ _) fun _ => .run_pure _

theorem blankPatch_grows (issue explanation : String) (index : Int) :
    Grows (blankPatch issue explanation index) :=
  .bind .freshName fun _ => .bind .readClock fun _ => .bind .readClock fun _ => .pure _

theorem patchOf_grows (read : String → Except Fault String) (settings : SafetySettings)
    (dangers : List (Danger Float)) (issue : Issue) (completion source : String) (index : Int) :
    Grows (patchOf read settings dangers issue completion source index).run := by
  refine .run_bind (.run_lift (blankPatch_grows _ _ _)) fun p => .run_bind (.run_known _) fun d => ?_
  cases d with
  | unusable reason asked => exact rejected_grows _ _ _ _ _
  | change c => exact scored_grows _ _ _ _ _

/-- **A patch takes the next name**, and belongs to its issue. -/
theorem patchOf_named {read : String → Except Fault String} {settings : SafetySettings}
    {dangers : List (Danger Float)} {issue : Issue} {completion source : String} {index : Int}
    {q : Patch} {event : Event} {s s' : Supply}
    (h : (patchOf read settings dangers issue completion source index).run s =
      (.ok (q, event), s')) :
    q.id = Supply.nameOf (s.given + 1) ∧ q.issueId = issue.id ∧ s.given < s'.given := by
  unfold patchOf at h
  obtain ⟨p, t, hp, h⟩ := run_ok_of_bind h
  obtain ⟨hblank, ht⟩ := Prod.mk.inj hp
  have hid : p.id = Supply.nameOf (s.given + 1) := (Except.ok.inj hblank) ▸ rfl
  have hissue : p.issueId = issue.id := (Except.ok.inj hblank) ▸ rfl
  have hgiven : t.given = s.given + 1 := ht ▸ rfl
  obtain ⟨d, t', hd, h⟩ := run_ok_of_bind h
  obtain ⟨-, rfl⟩ := run_ok_of_known hd
  cases d with
  | unusable reason asked =>
    obtain ⟨-, -, -, -, hq, howner⟩ := rejected_spec h
    have hgrows := (rejected_grows dangers p completion reason asked).of_run h
    exact ⟨hq.trans hid, howner.trans hissue, by omega⟩
  | change c =>
    obtain ⟨-, -, -, -, -, hq, howner, -⟩ := scored_spec h
    have hgrows := (scored_grows settings dangers p completion c).of_run h
    exact ⟨hq.trans hid, howner.trans hissue, by omega⟩

end Proposal

end RepairLoop

/-!
## Proposal — what asking for patches does

Asking a service takes tokens, waits, sends requests and reports; none of it
touches the stores. A patch that comes of it is new: it is pending, or has
already been found invalid, and was never applied (`propose_new`).
-/

namespace RepairLoop

open Act (Keeps Obeys)
open World (Apart Still)

/-- Ranking keeps the patches and only orders them. -/
theorem Patch.perm_ranked {ps : List Patch} : (ranked ps).Perm ps :=
  (List.mergeSort_perm _ _).trans (List.mergeSort_perm _ _)

theorem Patch.mem_ranked {q : Patch} {ps : List Patch} : q ∈ ranked ps ↔ q ∈ ps :=
  perm_ranked.mem_iff

namespace Service

variable (s : Service)

theorem send_still (payload : Json) : Keeps Still (s.send payload) := by
  unfold send
  split
  · refine (Act.model_still payload).bind fun reply => ?_
    split
    · exact .pure trivial
    · exact .throw
  · exact Keeps.ofExcept.bind fun _ => (Act.web_still _).bind fun _ => Keeps.ofExcept

theorem attempt_still (payload : Json) : Keeps Still (s.attempt payload) :=
  (s.send_still payload).bind fun _ => Keeps.ofExcept

theorem attemptFrom_still (r : ModelRequest) (payload : Json) (left number : Nat) :
    Keeps Still (s.attemptFrom r payload left number) := by
  induction left generalizing number with
  | zero => exact .throw
  | succ left ih =>
    refine (s.attempt_still payload).attempt.bind fun reply => ?_
    split
    · exact (Act.emit_still _).bind fun _ => .pure trivial
    · split
      · exact Keeps.when (Act.pause_still _) (ih (number + 1))
      · exact .throw

/-- **A service is asked, and nothing else is done.** -/
theorem ask_still (r : ModelRequest) : Keeps Still (s.ask r) := s.attemptFrom_still _ _ _ _

theorem ask_apart (r : ModelRequest) : Keeps Apart (s.ask r) :=
  (s.ask_still r).weaken fun _ _ h => h.apart

end Service

namespace Proposer

theorem takeToken_still : Keeps Still takeToken := by
  refine Obeys.get_bind fun w => ?_
  split
  · exact ⟨refl_of Still w, fun _ _ => trivial⟩
  · refine Obeys.set_bind ⟨.of_eq rfl rfl rfl rfl rfl, rfl, rfl, rfl, rfl⟩ ?_
    split
    · exact .pure trivial
    · exact (Act.emit_still _).bind fun _ => .throw

theorem takeToken_apart : Keeps Apart takeToken := takeToken_still.weaken fun _ _ h => h.apart

/-- **A proposer is made of its settings**, for the place that its root leads to, and its
patterns are those of the denylist. -/
theorem make_spec (service : Service) (root : Path) (settings : ModelSettings)
    (safety : SafetySettings) :
    Obeys Apart (fun p => ∃ (files : FileTree) (here : Path) (place : Location) (dangers : _),
      files.resolve (here.join root) = .ok place ∧ Proposal.dangers safety.denylist = .ok dangers ∧
      p = ⟨service, ⟨.root, place⟩, settings, safety, dangers⟩)
      (make service root settings safety) := by
  refine Obeys.get_bind fun w => ?_
  rw [run_bind_eq, Act.ofExcept_run]
  cases hplace : w.files.resolve (w.absolute root) with
  | error e => exact ⟨.of_eq rfl rfl rfl rfl, fun _ h => by cases h⟩
  | ok place =>
    have hrest : Obeys Apart (fun p : Proposer => ∃ (files : FileTree) (here : Path)
        (place : Location) (dangers : _), files.resolve (here.join root) = .ok place ∧
          Proposal.dangers safety.denylist = .ok dangers ∧
          p = ⟨service, ⟨.root, place⟩, settings, safety, dangers⟩) (do
        let dangers ← Act.ofExcept (Proposal.dangers safety.denylist)
        pure (⟨service, ⟨.root, place⟩, settings, safety, dangers⟩ : Proposer)) :=
      Obeys.bind (Obeys.ofExcept fun _ h => h) fun dangers hdangers =>
        .pure ⟨w.files, w.here, place, dangers, hplace, hdangers, rfl⟩
    simp only [Except.mapError]
    split
    · rw [run_bind_eq, Act.ofExcept_run]
      split
      · rename_i heq
        obtain ⟨-, rfl⟩ := Prod.mk.inj heq
        exact Obeys.set_bind (.of_eq rfl rfl rfl rfl) hrest
      · rename_i heq
        obtain ⟨-, rfl⟩ := Prod.mk.inj heq
        exact ⟨.of_eq rfl rfl rfl rfl, fun _ h => by cases h⟩
    · exact hrest w

theorem make_apart (service : Service) (root : Path) (settings : ModelSettings)
    (safety : SafetySettings) : Keeps Apart (make service root settings safety) :=
  (make_spec service root settings safety).keeps

variable (p : Proposer)

theorem read_apart (path : String) : Keeps Apart (p.read path) :=
  Act.files_apart.bind fun _ => Keeps.ofExcept

/-- **A patch that is built is new.** -/
theorem build_new (issue : Issue) (completion source : String) (index : Int) :
    Obeys Apart Patch.New (p.build issue completion source index) :=
  Act.files_apart.bind fun _ =>
    Obeys.bind (Act.supplying_apart (Q := fun made => made.1.New)
        (Proposal.patchOf_grows _ _ _ _ _ _ _) fun _ _ _ h => (Proposal.patchOf_spec h).1) fun _ hnew =>
      (Act.emit_apart _).bind fun _ => .pure hnew

theorem propose_new (issue : Issue) (index : Int) : Obeys Apart Patch.New (p.propose issue index) :=
  takeToken_apart.bind fun _ => (p.read_apart _).bind fun _ => (p.service.ask_apart _).bind fun _ =>
    Keeps.ofExcept.bind fun _ => p.build_new _ _ _ _

theorem proposeFrom_new (issue : Issue) (index : Int) (count : Nat) :
    Obeys Apart (fun ps => ∀ q ∈ ps, q.New) (p.proposeFrom issue index count) := by
  induction count generalizing index with
  | zero => exact .pure (by simp)
  | succ count ih =>
    refine (p.propose_new issue index).bind fun q hq => (ih (index + 1)).bind fun qs hqs => .pure ?_
    exact List.forall_mem_cons.2 ⟨hq, hqs⟩

theorem ask_apart (request : ModelRequest) : Keeps Apart (p.ask request) :=
  takeToken_apart.bind fun _ => p.service.ask_apart request

theorem explain_apart (issue : Issue) : Keeps Apart (p.explain issue) :=
  (p.ask_apart _).bind fun _ => Keeps.ofExcept.bind fun _ => .pure trivial

theorem review_apart (issue : Issue) (patch : Patch) : Keeps Apart (p.review issue patch) := by
  refine Keeps.when .throw ?_
  exact (p.ask_apart _).bind fun _ => Keeps.ofExcept.bind fun _ =>
    (Act.emit_apart _).bind fun _ => .pure trivial

theorem candidates_new (issue : Issue) (count : Option Int) :
    Obeys Apart (fun ps => ∀ q ∈ ps, q.New) (p.candidates issue count) :=
  (p.proposeFrom_new issue 0 _).bind fun _ hps => .pure fun q hq => hps q (Patch.mem_ranked.1 hq)

end Proposer

end RepairLoop
