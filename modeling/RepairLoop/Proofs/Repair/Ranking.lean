import RepairLoop.Proofs.Number.Order
import RepairLoop.Proofs.Proposal.Vetting
import RepairLoop.Repair.Process
/-!
# Ranking — one order of the candidates, and the best of them

Patches are sorted twice, by their numbers and then by their scores. Since a sort keeps the order of
what it does not tell apart (`pairwise_mergeSort_stable`), the two come to one order: by score, of
equal scores by number, of equal numbers by place (`Patch.pairwise_placed`). Scores are compared as
the numbers that they stand for, which is right for shares and their products
(`Patch.IsScored.lt_iff`). Where no two patches have the same number their places do not matter.
The winner stands first among the valid candidates.
-/

namespace RepairLoop

/-! ## Stable sorting -/

section Stable

variable {α : Type} {R : α → α → Prop} {l : List α} {a b : α}

/-- Of two members one stands in front of the other. -/
theorem inFront_or (ha : a ∈ l) (hb : b ∈ l) (hab : a ≠ b) :
    [a, b].Sublist l ∨ [b, a].Sublist l := by
  have hpairs : l.Pairwise fun a b => [a, b].Sublist l ∨ [b, a].Sublist l :=
    List.pairwise_iff_forall_sublist.2 fun h => .inl h
  have : Std.Symm fun a b => [a, b].Sublist l ∨ [b, a].Sublist l := ⟨fun _ _ => Or.symm⟩
  exact hpairs.forall ha hb hab

/-- And not both. -/
theorem not_inFront (hnodup : l.Nodup) (h : [a, b].Sublist l) : ¬[b, a].Sublist l := by
  intro hback
  induction l with
  | nil => cases h
  | cons x l ih =>
    obtain ⟨hx, hl⟩ := List.nodup_cons.1 hnodup
    rcases List.sublist_cons_iff.1 h with hab | ⟨r, hr, hb⟩ <;>
      rcases List.sublist_cons_iff.1 hback with hba | ⟨r', hr', ha⟩
    · exact ih hl hab hba
    · cases hr'
      exact hx (hab.subset (.tail _ (.head _)))
    · cases hr
      exact hx (hba.subset (.tail _ (.head _)))
    · cases hr
      cases hr'
      exact hx (ha.subset (.head _))

/-- **A stable sort keeps the order of what it does not tell apart.** -/
theorem pairwise_mergeSort_stable (le : α → α → Bool)
    (htrans : ∀ a b c, le a b = true → le b c = true → le a c = true)
    (htotal : ∀ a b, (le a b || le b a) = true) (hnodup : l.Nodup) (h : l.Pairwise R) :
    (l.mergeSort le).Pairwise fun a b => le a b = true ∧ (le b a = true → R a b) := by
  have hsorted : (l.mergeSort le).Pairwise fun a b => le a b = true :=
    List.pairwise_mergeSort htrans htotal l
  have hnodup' : (l.mergeSort le).Nodup := (List.mergeSort_perm l le).nodup_iff.2 hnodup
  rw [List.pairwise_iff_forall_sublist]
  intro a b hab
  refine ⟨List.pairwise_iff_forall_sublist.1 hsorted hab, fun hback => ?_⟩
  have hmem : ∀ c ∈ [a, b], c ∈ l := fun c hc => List.mem_mergeSort.1 (hab.subset hc)
  have hne : a ≠ b := by
    rintro rfl
    simpa using hab.nodup hnodup'
  rcases inFront_or (hmem a (by simp)) (hmem b (by simp)) hne with hl | hl
  · exact List.pairwise_iff_forall_sublist.1 h hl
  · exact absurd (List.pair_sublist_mergeSort htrans htotal hback hl) (not_inFront hnodup' hab)

end Stable

/-! ## Ranking -/

namespace Patch

/-- What a patch is ranked by, as the number that it stands for. -/
def score (p : Patch) : ℚ := Number.value p.rankingScore

/-- The confidence and the safety of a patch are shares. -/
structure IsScored (p : Patch) : Prop where
  confidence : 0.0 ≤ p.confidence ∧ p.confidence ≤ 1.0
  safety : 0.0 ≤ p.safetyScore ∧ p.safetyScore ≤ 1.0

theorem IsScored.isFinite {p : Patch} (h : p.IsScored) : Number.isFinite p.rankingScore = true :=
  Number.isFinite_mul h.confidence h.safety

theorem IsScored.lt_iff {p q : Patch} (hp : p.IsScored) (hq : q.IsScored) :
    p.rankingScore < q.rankingScore ↔ p.score < q.score :=
  Number.lt_iff_value hp.isFinite hq.isFinite

/-- A patch with the place where it stands comes before another one: it has the higher score, or
of equal scores the lower number, or of equal numbers the earlier place. -/
def Before (a b : Patch × ℕ) : Prop :=
  b.1.score < a.1.score ∨ a.1.score = b.1.score ∧
    (a.1.generationIndex < b.1.generationIndex ∨
      a.1.generationIndex = b.1.generationIndex ∧ a.2 < b.2)

/-- Patches in the order in which they are ranked, each with the place where it stood. -/
def placed (ps : List Patch) : List (Patch × ℕ) :=
  (ps.zipIdx.mergeSort fun a b => a.1.generationIndex ≤ b.1.generationIndex).mergeSort
    fun a b => b.1.score ≤ a.1.score

variable {ps qs : List Patch}

theorem perm_placed (ps : List Patch) : (placed ps).Perm ps.zipIdx :=
  (List.mergeSort_perm _ _).trans (List.mergeSort_perm _ _)

theorem nodup_zipIdx (ps : List Patch) : ps.zipIdx.Nodup :=
  .of_map Prod.snd (by rw [List.zipIdx_map_snd]; exact List.nodup_range')

theorem pairwise_zipIdx (ps : List Patch) : ps.zipIdx.Pairwise fun a b => a.2 < b.2 := by
  have hplaces : (ps.zipIdx.map Prod.snd).Pairwise (· < ·) := by
    rw [List.zipIdx_map_snd]
    exact List.pairwise_lt_range'
  exact List.pairwise_map.1 hplaces

/-- **Two stable sorts come to one order.** -/
theorem pairwise_placed (ps : List Patch) : (placed ps).Pairwise Before := by
  have hmade := pairwise_mergeSort_stable
    (fun a b : Patch × ℕ => decide (a.1.generationIndex ≤ b.1.generationIndex))
    (fun a b c hab hbc => by simp only [decide_eq_true_eq] at *; omega)
    (fun a b => by simp only [Bool.or_eq_true, decide_eq_true_eq]; omega)
    (nodup_zipIdx ps) (pairwise_zipIdx ps)
  have hranked := pairwise_mergeSort_stable
    (fun a b : Patch × ℕ => decide (b.1.score ≤ a.1.score))
    (fun a b c hab hbc => by simp only [decide_eq_true_eq] at *; exact hbc.trans hab)
    (fun a b => by simpa using le_total _ _)
    ((List.mergeSort_perm _ _).nodup_iff.2 (nodup_zipIdx ps)) hmade
  -- what the second sort does not tell apart has equal scores, and the first one has sorted it
  refine hranked.imp fun {a b} h => ?_
  simp only [decide_eq_true_eq] at h
  obtain ⟨hscore, hequal⟩ := h
  rcases hscore.lt_or_eq with hlt | heq
  · exact .inl hlt
  · obtain ⟨hindex, hplace⟩ := hequal heq.ge
    rcases hindex.lt_or_eq with hlt | heq'
    · exact .inr ⟨heq.symm, .inl hlt⟩
    · exact .inr ⟨heq.symm, .inr ⟨heq', hplace heq'.ge⟩⟩

/-- Without their places they are the ranked patches. -/
theorem map_placed (h : ∀ p ∈ ps, p.IsScored) : (placed ps).map Prod.fst = ranked ps := by
  have hmade : (ps.zipIdx.mergeSort fun a b =>
      decide (a.1.generationIndex ≤ b.1.generationIndex)).map Prod.fst = inOrderMade ps := by
    rw [List.map_mergeSort (s := fun p q : Patch => decide (p.generationIndex ≤ q.generationIndex))
      fun _ _ _ _ => rfl, List.zipIdx_map_fst, inOrderMade]
  rw [placed, ranked, ← hmade]
  refine List.map_mergeSort fun a ha b hb => ?_
  have hscored : ∀ c ∈ ps.zipIdx.mergeSort fun a b =>
      decide (a.1.generationIndex ≤ b.1.generationIndex), c.1.IsScored := fun c hc =>
    h _ (List.fst_mem_of_mem_zipIdx (List.mem_mergeSort.1 hc))
  rw [Bool.eq_iff_iff, decide_eq_true_iff, Bool.not_eq_true', decide_eq_false_iff_not,
    (hscored a ha).lt_iff (hscored b hb), not_lt]

/-- A patch comes before another one without regard to where they stood. -/
def Precedes (p q : Patch) : Prop :=
  q.score < p.score ∨ p.score = q.score ∧ p.generationIndex < q.generationIndex

theorem pairwise_ranked (h : ∀ p ∈ ps, p.IsScored) (hnumbers : (ps.map generationIndex).Nodup) :
    (ranked ps).Pairwise Precedes := by
  have hdistinct : ((placed ps).map fun a => a.1.generationIndex).Nodup := by
    rw [((perm_placed ps).map _).nodup_iff]
    rwa [← List.zipIdx_map_fst 0 ps, List.map_map] at hnumbers
  rw [← map_placed h, List.pairwise_map]
  refine ((pairwise_placed ps).and (List.pairwise_map.1 hdistinct)).imp fun {a b} hab => ?_
  rcases hab.1 with hscore | ⟨hscore, hindex | ⟨hindex, -⟩⟩
  · exact .inl hscore
  · exact .inr ⟨hscore, hindex⟩
  · exact absurd hindex hab.2

/-- **With numbers of their own patches are ranked the same, however they come.** -/
theorem ranked_eq_of_perm (h : ∀ p ∈ ps, p.IsScored) (hnumbers : (ps.map generationIndex).Nodup)
    (hperm : qs.Perm ps) : ranked qs = ranked ps := by
  have hsame : (ranked qs).Pairwise Precedes :=
    pairwise_ranked (fun p hp => h p (hperm.mem_iff.1 hp))
      ((hperm.map generationIndex).nodup_iff.2 hnumbers)
  refine List.Perm.eq_of_pairwise (fun p q _ _ hpq hqp => ?_) hsame (pairwise_ranked h hnumbers)
    ((perm_ranked.trans hperm).trans perm_ranked.symm)
  -- none precedes the other way round too
  rcases hpq with hpq | ⟨hscore, hpq⟩ <;> rcases hqp with hqp | ⟨hscore', hqp⟩
  · exact absurd hpq hqp.not_gt
  · exact absurd hscore' hpq.ne
  · exact absurd hscore hqp.ne
  · exact absurd hpq hqp.not_gt

/-- A patch is at least as good as another one: it has a higher score, or of equal scores no
higher number. -/
def AtLeast (p q : Patch) : Prop :=
  q.score ≤ p.score ∧ (p.score = q.score → p.generationIndex ≤ q.generationIndex)

/-- The patch that is ranked first is at least as good as any. -/
theorem atLeast_head (h : ∀ p ∈ ps, p.IsScored) {w q : Patch} (hw : (ranked ps).head? = some w)
    (hq : q ∈ ps) : w.AtLeast q := by
  have hmem : q ∈ ranked ps := mem_ranked.2 hq
  have hbefore := pairwise_placed ps
  rw [← map_placed h] at hw hmem
  obtain ⟨b, hb, rfl⟩ := List.mem_map.1 hmem
  cases hplaced : placed ps with
  | nil => simp [hplaced] at hw
  | cons a rest =>
    rw [hplaced] at hw hb hbefore
    obtain rfl : a.1 = w := by simpa using hw
    rcases List.mem_cons.1 hb with rfl | hrest
    · exact ⟨le_rfl, fun _ => le_rfl⟩
    · rcases (List.pairwise_cons.1 hbefore).1 _ hrest with hscore | ⟨hscore, hindex⟩
      · exact ⟨hscore.le, fun heq => absurd heq hscore.ne'⟩
      · refine ⟨hscore.ge, fun _ => ?_⟩
        rcases hindex with hindex | ⟨hindex, -⟩
        · exact hindex.le
        · exact hindex.le

end Patch

/-! ## The winner -/

namespace Session

open Patch (ranked Before AtLeast IsScored generationIndex)

/-- There is no winner exactly if no candidate is valid. -/
theorem winner?_eq_none_iff {candidates : List Patch} :
    winner? candidates = none ↔ ∀ p ∈ candidates, p.validationStatus ≠ .valid := by
  rw [winner?, List.head?_eq_none_iff, ← List.length_eq_zero_iff, Patch.perm_ranked.length_eq,
    List.length_eq_zero_iff, List.filter_eq_nil_iff]
  simp

/-- **The winner is the best of the valid candidates.** -/
theorem winner?_best {candidates : List Patch} (h : ∀ p ∈ candidates, p.IsScored) {w : Patch}
    (hw : winner? candidates = some w) :
    w ∈ candidates ∧ w.validationStatus = .valid ∧
      ∀ p ∈ candidates, p.validationStatus = .valid → w.AtLeast p := by
  have hmem := List.mem_filter.1 (Patch.mem_ranked.1 (List.mem_of_head? hw))
  refine ⟨hmem.1, by simpa using hmem.2, fun p hp hvalid => ?_⟩
  exact Patch.atLeast_head (fun q hq => h q (List.mem_filter.1 hq).1) hw
    (List.mem_filter.2 ⟨hp, by simpa using hvalid⟩)

/-- **Ranking is canonical and the winner is the best.** Patches are ranked by their scores, of
equal scores by their numbers, and of equal numbers by where they stood; with numbers of their own
they are ranked the same in whatever order they come. There is a winner unless no candidate is
valid, and it is a valid candidate of the highest score among these, and of the lowest number among
those with that score. -/
theorem ranked_canonical {ps : List Patch} (h : ∀ p ∈ ps, p.IsScored) :
    (ranked ps).Perm ps ∧
      (∃ placed : List (Patch × ℕ), placed.Perm ps.zipIdx ∧ placed.map Prod.fst = ranked ps ∧
        placed.Pairwise Before) ∧
      ((ps.map generationIndex).Nodup → ∀ qs : List Patch, qs.Perm ps → ranked qs = ranked ps) ∧
      (winner? ps = none ↔ ∀ p ∈ ps, p.validationStatus ≠ .valid) ∧
      ∀ w, winner? ps = some w → w ∈ ps ∧ w.validationStatus = .valid ∧
        ∀ p ∈ ps, p.validationStatus = .valid → w.AtLeast p :=
  ⟨Patch.perm_ranked,
    ⟨Patch.placed ps, Patch.perm_placed ps, Patch.map_placed h, Patch.pairwise_placed ps⟩,
    fun hnumbers _ hperm => Patch.ranked_eq_of_perm h hnumbers hperm, winner?_eq_none_iff,
    fun _ hw => winner?_best h hw⟩

/-- A valid candidate that is thought to be right by three quarters. -/
def likely : Patch := { (default : Patch) with
  id := "patch-1", confidence := 0.75, safetyScore := 1.0, validationStatus := .valid }

/-- One that is surer and less safe, and made after it. -/
def bold : Patch := { (default : Patch) with
  id := "patch-2", confidence := 0.9, safetyScore := 0.8, validationStatus := .valid,
  generationIndex := 1 }

theorem ranked_canonical_likely : (∀ p ∈ [likely, bold], p.IsScored) ∧
    ranked [bold, likely] = ranked [likely, bold] ∧
    ∃ w, winner? [likely, bold] = some w ∧ w.AtLeast bold := by
  have hscored : ∀ p ∈ [likely, bold], p.IsScored := by
    intro p hp
    rcases List.mem_pair.1 hp with rfl | rfl
    · exact ⟨by decide +kernel, by decide +kernel⟩
    · exact ⟨by decide +kernel, by decide +kernel⟩
  obtain ⟨-, -, hsame, hnone, hbest⟩ := ranked_canonical hscored
  refine ⟨hscored, hsame (by decide) _ (.swap _ _ _), ?_⟩
  cases hw : winner? [likely, bold] with
  | none => exact absurd rfl (hnone.1 hw likely (by simp))
  | some w => exact ⟨w, rfl, (hbest w hw).2.2 bold (by simp) rfl⟩

end Session

end RepairLoop
