import RepairLoop.Proofs.Number.Order
import RepairLoop.Proposal.Danger
/-!
# Danger — more lines are never safer

Each pattern of a denylist is looked for in every line by itself, so what is found in some
lines is found in any that hold them in their order, whatever else stands in between. With
exact penalties that are not negative more is then taken off, and neither the cut to the
range from zero to one nor the rounding turns that round (`safety_antitone`).
-/

namespace RepairLoop.Proposal

variable {α : Type}

namespace Danger

/-! ## What is found -/

/-- How often a danger is found in a code. -/
def countIn (d : Danger α) (code : String) : ℕ :=
  d.count ((Text.lineBodies code.toList).map List.toArray)

@[simp] theorem count_cons (d : Danger α) (line : Array Char) (lines : List (Array Char)) :
    d.count (line :: lines) = (d.pattern.findAll line).length + d.count lines := rfl

/-- **More lines hold no fewer dangers.** -/
theorem count_le_of_sublist (d : Danger α) {few many : List (Array Char)} (h : few.Sublist many) :
    d.count few ≤ d.count many := by
  induction h with
  | slnil => exact le_rfl
  | cons line _ ih =>
    rw [count_cons]
    omega
  | cons_cons line _ ih =>
    rw [count_cons, count_cons]
    omega

variable {few many : String}

theorem countIn_le_of_sublist (d : Danger α)
    (h : (Text.splitLines few).Sublist (Text.splitLines many)) : d.countIn few ≤ d.countIn many := by
  have hlines : (Text.lineBodies few.toList).Sublist (Text.lineBodies many.toList) := by
    simpa [Text.splitLines] using h.map String.toList
  exact d.count_le_of_sublist (hlines.map List.toArray)

/-- The dangers of a denylist that are found in a code. -/
def found (denylist : List (Danger α)) (code : String) : List (Danger α) :=
  denylist.filter (·.countIn code != 0)

/-- **What is found in a code is found in one with more lines.** -/
theorem found_sublist (denylist : List (Danger α))
    (h : (Text.splitLines few).Sublist (Text.splitLines many)) :
    (found denylist few).Sublist (found denylist many) := by
  refine List.monotone_filter_right denylist fun d hd => ?_
  have hle := d.countIn_le_of_sublist h
  simp only [bne_iff_ne] at hd ⊢
  omega

/-! ## What it costs -/

/-- The penalties of some dangers add up. -/
theorem total_eq (counted : List (Danger ℚ × ℕ)) :
    total counted = (counted.map fun c => c.1.penalty * (c.2 : ℚ)).sum := by
  have hfrom (t : ℚ) : counted.foldl
      (fun t (c : Danger ℚ × ℕ) => if c.2 = 0 then t else t + c.1.penalty * Scale.ofNat c.2) t =
        t + (counted.map fun c => c.1.penalty * (c.2 : ℚ)).sum := by
    induction counted generalizing t with
    | nil => simp
    | cons c counted ih =>
      rw [List.foldl_cons, ih, List.map_cons, List.sum_cons]
      split
      · rename_i hzero
        simp [hzero]
      · exact add_assoc _ _ _
  exact (hfrom 0).trans (zero_add _)

theorem cut_eq (x : ℚ) : cut x = max (min x 1) 0 := by
  have hlow : (if x < 1 then x else 1) = min x 1 := by
    rcases lt_or_ge x 1 with h | h
    · rw [if_pos h, min_eq_left h.le]
    · rw [if_neg h.not_gt, min_eq_right h]
  show (if 0 < (if x < 1 then x else 1) then (if x < 1 then x else 1) else 0) = _
  rw [hlow]
  rcases lt_or_ge 0 (min x 1) with h | h
  · rw [if_pos h, max_eq_left h.le]
  · rw [if_neg h.not_gt, max_eq_right h]

/-- What is left is at least nothing and at most all. -/
theorem remaining_mem (counted : List (Danger ℚ × ℕ)) :
    0 ≤ remaining counted ∧ remaining counted ≤ 1 := by
  show 0 ≤ Number.roundRat 4 (cut _) ∧ Number.roundRat 4 (cut _) ≤ 1
  rw [cut_eq]
  exact Number.roundRat_mem 4 (le_max_right _ _) (max_le (min_le_right _ _) zero_le_one)

/-- **The more is taken off, the less is left.** -/
theorem remaining_antitone {counted counted' : List (Danger ℚ × ℕ)}
    (h : total counted ≤ total counted') : remaining counted' ≤ remaining counted := by
  show Number.roundRat 4 (cut _) ≤ Number.roundRat 4 (cut _)
  rw [cut_eq, cut_eq]
  refine Number.roundRat_mono 4 (le_max_right _ _) ?_
  exact max_le_max_right 0 (min_le_min_right 1 (sub_le_sub_left h _))

end Danger

open Danger (found)

theorem matches_safety [Scale α] [Add α] [Sub α] [Mul α] [LT α] [DecidableLT α]
    (denylist : List (Danger α)) (code : String) :
    (safety denylist code).matches_ =
      (found denylist code).map fun d => s!"{d.name} x{d.countIn code}" := by
  simp only [safety, found, List.filter_map, List.map_map]
  rfl

/-- **More lines are never safer.** In a code that holds the lines of another one in their order
each danger is found as often at least, all that is reported of the other code is reported of it,
and its score, which like the other lies between zero and one, is not the higher one. -/
theorem safety_antitone {denylist : List (Danger ℚ)} {few many : String}
    (hpenalty : ∀ d ∈ denylist, 0 ≤ d.penalty)
    (h : (Text.splitLines few).Sublist (Text.splitLines many)) :
    (∀ d ∈ denylist, d.countIn few ≤ d.countIn many) ∧
      (∀ code, (safety denylist code).matches_ =
        (found denylist code).map fun d => s!"{d.name} x{d.countIn code}") ∧
      (found denylist few).Sublist (found denylist many) ∧
      0 ≤ (safety denylist many).score ∧
      (safety denylist many).score ≤ (safety denylist few).score ∧
      (safety denylist few).score ≤ 1 := by
  refine ⟨fun d _ => d.countIn_le_of_sublist h, matches_safety denylist,
    Danger.found_sublist denylist h, (Danger.remaining_mem _).1, Danger.remaining_antitone ?_,
    (Danger.remaining_mem _).2⟩
  rw [Danger.total_eq, Danger.total_eq, List.map_map, List.map_map]
  refine List.sum_le_sum fun d hd => ?_
  have hcount : (d.countIn few : ℚ) ≤ d.countIn many := by exact_mod_cast d.countIn_le_of_sublist h
  exact mul_le_mul_of_nonneg_left hcount (hpenalty d hd)

/-- Evaluation of a text, at two fifths a time. -/
def evaluation : Danger ℚ := ⟨"evaluation", Pattern.lit .plain "eval(", 2 / 5⟩

theorem safety_antitone_evaluation :
    (safety [evaluation] "eval(a)\n").score = 3 / 5 ∧
      (safety [evaluation] "b\neval(a)\neval(eval(c))").score = 0 ∧
      (safety [evaluation] "b\neval(a)\neval(eval(c))").score ≤
        (safety [evaluation] "eval(a)\n").score :=
  ⟨by decide +kernel, by decide +kernel,
    (safety_antitone (by decide +kernel) (by decide +kernel)).2.2.2.2.1⟩

end RepairLoop.Proposal
