import RepairLoop.Proofs.Sequence.Matching
/-!
# Sequence — a sequence matched with itself

The search prefers the run that is met first, and an item that is too
frequent opens no run, so it is not plain that equal sequences are one
block. They are: a run that leaves the diagonal is never longer than the
run on the diagonal that ends in its row, nor than the one that ends in its
column, and of the two at least one has been met before it
(`improve_diagonal`). The best block therefore starts on the diagonal, and
grown to both sides it is the whole sequence (`blocks_self`).
-/

namespace RepairLoop.Sequence

variable {a : Array Nat} {idx : Array (List Nat)}

/-- How many items in a row, up to the position, are in the index. -/
def streak (a : Array Nat) (idx : Array (List Nat)) : Nat → Nat
  | 0 => 0
  | i + 1 => if (idx.getD (a.getD i 0) []).isEmpty then 0 else streak a idx i + 1

/-- The runs stand in the order of their positions. -/
def Ascending (runs : List (Nat × Nat)) : Prop :=
  runs.Pairwise fun r s => r.1 < s.1

/-! ## Ascending positions -/

theorem positionsFrom_ascending (item i : Nat) (xs : List Nat) :
    (positionsFrom item i xs).Pairwise (· < ·) := by
  induction xs generalizing i with
  | nil => exact List.Pairwise.nil
  | cons x xs ih =>
    rw [positionsFrom]
    split
    · refine List.pairwise_cons.2 ⟨fun j hj => ?_, ih _⟩
      have := (mem_positionsFrom.1 hj).1
      omega
    · exact ih _

theorem extendRuns_ascending {js : List Nat} {runs : List (Nat × Nat)}
    (hjs : js.Pairwise (· < ·)) : Ascending (extendRuns js runs) := by
  induction js generalizing runs with
  | nil => exact List.Pairwise.nil
  | cons i js ih =>
    obtain ⟨hi, hjs⟩ := List.pairwise_cons.1 hjs
    rw [extendRuns]
    refine List.pairwise_cons.2 ⟨?_, ih hjs⟩
    rintro ⟨j, k⟩ hr
    exact hi j (mem_extendRuns hr).1

/-- Runs that are passed over end too early for the position. -/
theorem mem_dropWhile_of_le {runs : List (Nat × Nat)} {i : Nat} {r : Nat × Nat}
    (hr : r ∈ runs) (hi : i ≤ r.1 + 1) : r ∈ runs.dropWhile fun r => r.1 + 1 < i := by
  induction runs with
  | nil => simp at hr
  | cons s runs ih =>
    rw [List.dropWhile_cons]
    split
    · rename_i hs
      simp only [decide_eq_true_eq] at hs
      rcases List.mem_cons.1 hr with rfl | hr
      · omega
      · exact ih hr
    · exact hr

/-- Every position gets a run, which extends the one that ends a position
earlier. -/
theorem exists_mem_extendRuns {js : List Nat} {runs : List (Nat × Nat)} {j : Nat}
    (hjs : js.Pairwise (· < ·)) (hruns : Ascending runs) (hj : j ∈ js) :
    ∃ k, (j, k) ∈ extendRuns js runs ∧
      ∀ p len, (p, len) ∈ runs → p + 1 = j → k = len + 1 := by
  induction js generalizing runs with
  | nil => simp at hj
  | cons i js ih =>
    obtain ⟨hi, hjs⟩ := List.pairwise_cons.1 hjs
    have hdrop : Ascending (runs.dropWhile fun r => r.1 + 1 < i) :=
      hruns.sublist (List.dropWhile_sublist _)
    rw [extendRuns]
    rcases List.mem_cons.1 hj with rfl | hj
    · refine ⟨_, List.mem_cons_self, fun p len hp hpj => ?_⟩
      have hmem := mem_dropWhile_of_le (i := j) hp (by simp only; omega)
      have hhead := List.head?_dropWhile_not (fun r : Nat × Nat => decide (r.1 + 1 < j)) runs
      cases hd : runs.dropWhile fun r => decide (r.1 + 1 < j) with
      | nil => simp [hd] at hmem
      | cons q rest =>
        rw [hd] at hmem hdrop hhead
        obtain ⟨hq, -⟩ := List.pairwise_cons.1 hdrop
        simp only [List.head?_cons, decide_eq_false_iff_not] at hhead
        -- the head ends no later than `(p, len)` and no earlier than needed
        rcases List.mem_cons.1 hmem with rfl | hlater
        · simp [hpj]
        · have := hq _ hlater
          simp only at this
          omega
    · obtain ⟨k, hk, hext⟩ := ih hjs hdrop hj
      refine ⟨k, List.mem_cons_of_mem _ hk, fun p len hp hpj => ?_⟩
      have := hi j hj
      exact hext p len (mem_dropWhile_of_le hp (by simp only; omega)) hpj

/-! ## The best block stays on the diagonal -/

/-- A run in column `j` of row `i` that is no longer than the run on the
diagonal of its row, nor, left of the diagonal, than the best block, never
takes the best block off the diagonal. -/
theorem improve_diagonal {i s : Nat} {best : Block} {runs : List (Nat × Nat)}
    (hasc : Ascending runs) (hbest : best.left = best.right)
    (hrow : ∀ r ∈ runs, r.2 ≤ s) (hbefore : ∀ r ∈ runs, r.1 < i → r.2 ≤ best.size)
    (hs : (i, s) ∈ runs ∨ s ≤ best.size) :
    (improve i best runs).left = (improve i best runs).right ∧
      s ≤ (improve i best runs).size ∧ best.size ≤ (improve i best runs).size := by
  induction runs generalizing best with
  | nil =>
    refine ⟨hbest, ?_, Nat.le_refl _⟩
    rcases hs with hs | hs
    · simp at hs
    · exact hs
  | cons r runs ih =>
    obtain ⟨j, k⟩ := r
    obtain ⟨hlater, hasc⟩ := List.pairwise_cons.1 hasc
    have hk : k ≤ s := hrow (j, k) (by simp)
    have hrow' : ∀ r ∈ runs, r.2 ≤ s := fun r hr => hrow r (by simp [hr])
    rw [improve]
    by_cases hbig : k > best.size
    · rw [if_pos hbig]
      have hji : j = i := by
        rcases Nat.lt_trichotomy j i with hlt | heq | hgt
        · have := hbefore (j, k) (by simp) hlt
          simp only at this
          omega
        · exact heq
        · -- right of the diagonal the run on the diagonal has been met
          rcases hs with hs | hs
          · rcases List.mem_cons.1 hs with heq | hmem
            · exact (Prod.mk.inj heq).1.symm
            · have := hlater _ hmem
              simp only at this
              omega
          · omega
      have hsk : s ≤ k := by
        rcases hs with hs | hs
        · rcases List.mem_cons.1 hs with heq | hmem
          · exact Nat.le_of_eq (Prod.mk.inj heq).2
          · have := hlater _ hmem
            simp only at this
            omega
        · omega
      have hturn : i + 1 - k = j + 1 - k := by omega
      obtain ⟨hdiag, hle, hmono⟩ := @ih ⟨i + 1 - k, j + 1 - k, k⟩ hasc hturn hrow'
        (fun r hr hlt => by have := hlater r hr; simp only at this; omega) (Or.inr hsk)
      simp only at hmono
      exact ⟨hdiag, hle, by omega⟩
    · rw [if_neg hbig]
      refine ih hasc hbest hrow' (fun r hr => hbefore r (by simp [hr])) ?_
      rcases hs with hs | hs
      · rcases List.mem_cons.1 hs with heq | hmem
        · obtain ⟨-, rfl⟩ := Prod.mk.inj heq
          exact Or.inr (by omega)
        · exact Or.inl hmem
      · exact Or.inr hs

/-- What holds before row `i` of a sequence scanned against itself. -/
structure OnDiagonal (a : Array Nat) (idx : Array (List Nat)) (i : Nat)
    (runs : List (Nat × Nat)) (best : Block) : Prop where
  ascending : Ascending runs
  row : ∀ r ∈ runs, r.2 ≤ streak a idx i
  column : ∀ r ∈ runs, r.2 ≤ streak a idx (r.1 + 1)
  own : ∀ i', i = i' + 1 → 0 < streak a idx i → (i', streak a idx i) ∈ runs
  diagonal : best.left = best.right
  longest : ∀ i' ≤ i, streak a idx i' ≤ best.size

/-- The index knows an item with all its positions or not at all. -/
def Whole (idx : Array (List Nat)) (a : Array Nat) : Prop :=
  ∀ item, idx.getD item [] = [] ∨ idx.getD item [] = positions item a.toList

/-- A row whose item is not in the index opens no run. -/
theorem OnDiagonal.step_unknown {i : Nat} {runs : List (Nat × Nat)} {best : Block}
    (hzero : streak a idx (i + 1) = 0) (h : OnDiagonal a idx i runs best) :
    OnDiagonal a idx (i + 1) (extendRuns [] runs) (improve i best (extendRuns [] runs)) := by
  refine ⟨List.Pairwise.nil, by simp [extendRuns], by simp [extendRuns], ?_, h.diagonal, ?_⟩
  · intro i' _ hpos
    omega
  · intro i' hi'
    rcases Nat.lt_or_eq_of_le hi' with hlt | rfl
    · exact h.longest i' (by omega)
    · omega

/-- **A row whose item is in the index extends the run on the diagonal**, and
every other run is no longer than that one or than the one that the diagonal
had in its column. -/
theorem OnDiagonal.step_known {i : Nat} {runs : List (Nat × Nat)} {best : Block} {js : List Nat}
    (hstreak : ∀ j ∈ js, streak a idx (j + 1) = streak a idx j + 1) (hmem : i ∈ js)
    (hasc : js.Pairwise (· < ·)) (h : OnDiagonal a idx i runs best) :
    OnDiagonal a idx (i + 1) (extendRuns js runs) (improve i best (extendRuns js runs)) := by
  have hrow : ∀ r ∈ extendRuns js runs, r.2 ≤ streak a idx (i + 1) := by
    rintro ⟨j, k⟩ hr
    rw [hstreak i hmem]
    rcases (mem_extendRuns hr).2 with rfl | ⟨p, len, hp, -, rfl⟩
    · exact Nat.le_add_left _ _
    · exact Nat.succ_le_succ (h.row _ hp)
  have hcolumn : ∀ r ∈ extendRuns js runs, r.2 ≤ streak a idx (r.1 + 1) := by
    rintro ⟨j, k⟩ hr
    obtain ⟨hj, hk⟩ := mem_extendRuns hr
    rw [hstreak j hj]
    rcases hk with rfl | ⟨p, len, hp, rfl, rfl⟩
    · exact Nat.le_add_left _ _
    · exact Nat.succ_le_succ (h.column _ hp)
  have hown : (i, streak a idx (i + 1)) ∈ extendRuns js runs := by
    obtain ⟨k, hk, hext⟩ := exists_mem_extendRuns hasc h.ascending hmem
    have hle : k ≤ streak a idx (i + 1) := hrow _ hk
    have hge : streak a idx (i + 1) ≤ k := by
      rw [hstreak i hmem]
      rcases Nat.eq_zero_or_pos (streak a idx i) with h0 | hpos
      · rcases (mem_extendRuns hk).2 with rfl | ⟨p, len, -, -, rfl⟩ <;> omega
      · obtain ⟨i', rfl⟩ : ∃ i', i = i' + 1 := by
          cases i with
          | zero => simp [streak] at hpos
          | succ i' => exact ⟨i', rfl⟩
        have := hext _ _ (h.own i' rfl hpos) rfl
        omega
    rwa [show streak a idx (i + 1) = k by omega]
  -- left of the diagonal a run is bounded by what the diagonal had there
  have hbefore : ∀ r ∈ extendRuns js runs, r.1 < i → r.2 ≤ best.size := fun r hr hlt =>
    Nat.le_trans (hcolumn r hr) (h.longest (r.1 + 1) hlt)
  obtain ⟨hdiag, hs, hmono⟩ := improve_diagonal (extendRuns_ascending hasc) h.diagonal
    hrow hbefore (Or.inl hown)
  refine ⟨extendRuns_ascending hasc, hrow, hcolumn, ?_, hdiag, ?_⟩
  · intro i' hi' _
    obtain rfl : i = i' := by omega
    exact hown
  · intro i' hi'
    rcases Nat.lt_or_eq_of_le hi' with hlt | rfl
    · exact Nat.le_trans (h.longest i' (by omega)) hmono
    · exact hs

/-- **One row keeps the best block on the diagonal.** -/
theorem OnDiagonal.step {i : Nat} {runs : List (Nat × Nat)} {best : Block}
    (hidx : Whole idx a) (hi : i < a.size) (h : OnDiagonal a idx i runs best) :
    OnDiagonal a idx (i + 1)
      (extendRuns ((idx.getD (a.getD i 0) []).filter fun j => 0 ≤ j && j < a.size) runs)
      (improve i best
        (extendRuns ((idx.getD (a.getD i 0) []).filter fun j => 0 ≤ j && j < a.size) runs)) := by
  rcases hidx (a.getD i 0) with hnone | hall
  · have hzero : streak a idx (i + 1) = 0 := by
      rw [streak, hnone]
      rfl
    rw [hnone]
    exact h.step_unknown hzero
  have hfilter : (idx.getD (a.getD i 0) []).filter (fun j => 0 ≤ j && j < a.size) =
      positions (a.getD i 0) a.toList := by
    rw [hall, List.filter_eq_self]
    intro j hj
    obtain ⟨hlt, -⟩ := List.getElem?_eq_some_iff.1 (mem_positions.1 hj)
    simpa using hlt
  have hitem : a.toList[i]? = some (a.getD i 0) := by simp [hi]
  -- every column of the row holds an item that is in the index
  have hstreak : ∀ j ∈ positions (a.getD i 0) a.toList,
      streak a idx (j + 1) = streak a idx j + 1 := by
    intro j hj
    have hj' := mem_positions.1 hj
    have hget : a.getD j 0 = a.getD i 0 := by
      simp only [Array.getElem?_toList] at hj'
      rw [Array.getD_eq_getD_getElem?, hj']
      rfl
    rw [streak, hget, hall, if_neg]
    simpa using List.ne_nil_of_mem (mem_positions.2 hitem)
  rw [hfilter]
  exact h.step_known hstreak (mem_positions.2 hitem) (positionsFrom_ascending ..)

theorem scan_diagonal {fuel i : Nat} {runs : List (Nat × Nat)} {best : Block}
    (hidx : Whole idx a) (hi : i + fuel ≤ a.size) (h : OnDiagonal a idx i runs best) :
    (scan a idx 0 a.size fuel i runs best).left = (scan a idx 0 a.size fuel i runs best).right := by
  induction fuel generalizing i runs best with
  | zero => exact h.diagonal
  | succ fuel ih =>
    rw [scan]
    exact ih (by omega) (h.step hidx (by omega))

/-! ## Growth along the diagonal -/

theorem growLeft_diagonal {fuel : Nat} {m : Block} (hm : m.left = m.right)
    (hf : m.left ≤ fuel) : growLeft a a 0 0 fuel m = ⟨0, 0, m.size + m.left⟩ := by
  induction fuel generalizing m with
  | zero =>
    obtain ⟨l, r, s⟩ := m
    simp only at hm hf
    obtain rfl : l = 0 := by omega
    subst hm
    rfl
  | succ fuel ih =>
    rw [growLeft]
    split
    · rename_i hc
      simp only [Bool.and_eq_true, decide_eq_true_eq] at hc
      rw [ih (by simp only; omega) (by simp only; omega)]
      simp only [Block.mk.injEq, true_and]
      omega
    · rename_i hc
      have hzero : m.left = 0 := by
        simp only [hm, Bool.and_eq_true, decide_eq_true_eq, beq_iff_eq, and_true] at hc
        omega
      obtain ⟨l, r, s⟩ := m
      simp only at hm hzero
      subst hzero
      subst hm
      rfl

theorem growRight_diagonal {fuel n s : Nat} (hs : s ≤ n) (hf : n - s ≤ fuel) :
    growRight a a n n fuel ⟨0, 0, s⟩ = ⟨0, 0, n⟩ := by
  induction fuel generalizing s with
  | zero =>
    obtain rfl : s = n := by omega
    rfl
  | succ fuel ih =>
    rw [growRight]
    split
    · rename_i hc
      simp only [Nat.zero_add, Bool.and_eq_true, decide_eq_true_eq] at hc
      exact ih (s := s + 1) (by omega) (by omega)
    · rename_i hc
      obtain rfl : s = n := by
        simp only [Nat.zero_add, Bool.and_eq_true, decide_eq_true_eq, beq_iff_eq, and_true] at hc
        omega
      rfl

/-- **The longest block of a sequence with itself is the whole of it.** -/
theorem longest_self (hidx : Whole idx a) (hmem : Indexes idx a) :
    longest a a idx 0 a.size 0 a.size = ⟨0, 0, a.size⟩ := by
  have hstart : OnDiagonal a idx 0 [] ⟨0, 0, 0⟩ := by
    refine ⟨List.Pairwise.nil, by simp, by simp, by simp [streak], rfl, fun i' hi' => ?_⟩
    obtain rfl : i' = 0 := by omega
    exact Nat.le_refl _
  have hroom : 0 + a.size ≤ a.size := by omega
  have hdiag := scan_diagonal hidx hroom hstart
  have hempty : Fits a a 0 a.size 0 a.size ⟨0, 0, 0⟩ :=
    ⟨Nat.le_refl _, Nat.zero_le _, Nat.le_refl _, Nat.zero_le _,
      fun u v h1 h2 _ => by simp only at h1 h2; omega⟩
  have hnone : ∀ r ∈ ([] : List (Nat × Nat)), Ends a a 0 0 a.size 0 r := by simp
  have hfits := scan_fits hmem (Nat.le_refl _) (Nat.le_refl _) hroom hnone hempty
  have hend := hfits.left_le
  simp only [longest, Nat.sub_zero]
  rw [growLeft_diagonal hdiag (by omega), growRight_diagonal (by omega) (by omega)]

/-- **Equal sequences are one block**, and empty ones are none. -/
theorem blocks_self (xs : List Nat) (count : Nat) :
    blocks xs xs count = if xs = [] then [] else [⟨0, 0, xs.length⟩] := by
  have hwhole : Whole (index xs count) xs.toArray := fun item => index_getD xs count item
  have hlong := longest_self hwhole (index_indexes xs count)
  simp only [List.size_toArray] at hlong
  simp only [blocks, List.size_toArray]
  rw [blocksFrom]
  split
  · rename_i hc
    rw [Bool.and_self, decide_eq_true_eq] at hc
    have hne : xs ≠ [] := List.length_pos_iff.1 hc
    rw [hlong, if_neg hne]
    simp only [beq_iff_eq]
    rw [if_neg (by omega)]
    -- nothing lies before the block, and nothing behind it
    have hbefore : blocksFrom xs.toArray xs.toArray (index xs count) xs.length 0 0 0 0 = [] := by
      cases xs.length <;> simp [blocksFrom]
    have hafter : blocksFrom xs.toArray xs.toArray (index xs count) xs.length
        (0 + xs.length) xs.length (0 + xs.length) xs.length = [] := by
      cases xs.length <;> simp [blocksFrom]
    rw [hbefore, hafter]
    rfl
  · rename_i hc
    have hnil : xs = [] := by
      rw [Bool.and_self, decide_eq_true_eq] at hc
      exact List.length_eq_zero_iff.1 (by omega)
    rw [if_pos hnil]
    rfl

end RepairLoop.Sequence
