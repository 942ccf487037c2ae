import RepairLoop.Sequence.Basic
/-!
# Sequence — the matching blocks match, and stand in order

Whatever the index leaves out, a block that `longest` returns lies within
its bounds and its items agree on both sides (`longest_fits`), so the
blocks of two sequences form a chain (`blocks_chained`): each starts where
the one before it has ended, on both sides. Nothing here says that a block
is as long as it could be; the edits need only that it is a match.
-/

namespace RepairLoop.Sequence

variable {a b : Array Nat} {idx : Array (List Nat)}
variable {alo ahi blo bhi : Nat}

/-! ## Blocks and runs -/

/-- The block lies within the bounds, and its items agree. -/
structure Fits (a b : Array Nat) (alo ahi blo bhi : Nat) (m : Block) : Prop where
  left_ge : alo ≤ m.left
  left_le : m.left + m.size ≤ ahi
  right_ge : blo ≤ m.right
  right_le : m.right + m.size ≤ bhi
  agree : ∀ u v, m.left ≤ u → u < m.left + m.size → u + m.right = v + m.left → a[u]? = b[v]?

/-- A run of `r.2` agreeing items that ends before row `i`, with its last
item at column `r.1`. -/
structure Ends (a b : Array Nat) (alo blo bhi i : Nat) (r : Nat × Nat) : Prop where
  rows : alo + r.2 ≤ i
  columns : blo + r.2 ≤ r.1 + 1
  column_lt : r.1 < bhi
  agree : ∀ u v, u < i → i ≤ u + r.2 → u + (r.1 + 1) = v + i → a[u]? = b[v]?

/-- Wider bounds hold the block as well. -/
theorem Fits.widen {alo' ahi' blo' bhi' : Nat} {m : Block} (h : Fits a b alo ahi blo bhi m)
    (hal : alo' ≤ alo) (hah : ahi ≤ ahi') (hbl : blo' ≤ blo) (hbh : bhi ≤ bhi') :
    Fits a b alo' ahi' blo' bhi' m :=
  ⟨Nat.le_trans hal h.left_ge, Nat.le_trans h.left_le hah, Nat.le_trans hbl h.right_ge,
    Nat.le_trans h.right_le hbh, h.agree⟩

/-- The positions in the index are positions of the item. -/
def Indexes (idx : Array (List Nat)) (b : Array Nat) : Prop :=
  ∀ item, ∀ j ∈ idx.getD item [], b[j]? = some item

theorem mem_positionsFrom {item i j : Nat} {xs : List Nat} :
    j ∈ positionsFrom item i xs ↔ i ≤ j ∧ xs[j - i]? = some item := by
  induction xs generalizing i with
  | nil => simp [positionsFrom]
  | cons x xs ih =>
    have hstep : (i + 1 ≤ j ∧ xs[j - (i + 1)]? = some item) ↔
        (i < j ∧ (x :: xs)[j - i]? = some item) := by
      constructor
      · rintro ⟨hj, hx⟩
        refine ⟨hj, ?_⟩
        rw [show j - i = (j - (i + 1)) + 1 by omega, List.getElem?_cons_succ]
        exact hx
      · rintro ⟨hj, hx⟩
        rw [show j - i = (j - (i + 1)) + 1 by omega, List.getElem?_cons_succ] at hx
        exact ⟨hj, hx⟩
    by_cases hx : x = item
    · rw [positionsFrom, if_pos (by simpa using hx), List.mem_cons, ih, hstep]
      constructor
      · rintro (rfl | ⟨hj, hjx⟩)
        · simp [hx]
        · exact ⟨Nat.le_of_lt hj, hjx⟩
      · rintro ⟨hj, hjx⟩
        rcases Nat.lt_or_eq_of_le hj with hlt | rfl
        · exact Or.inr ⟨hlt, hjx⟩
        · exact Or.inl rfl
    · rw [positionsFrom, if_neg (by simpa using hx), ih, hstep]
      constructor
      · rintro ⟨hj, hjx⟩
        exact ⟨Nat.le_of_lt hj, hjx⟩
      · rintro ⟨hj, hjx⟩
        rcases Nat.lt_or_eq_of_le hj with hlt | rfl
        · exact ⟨hlt, hjx⟩
        · simp [hx] at hjx

theorem mem_positions {item j : Nat} {xs : List Nat} :
    j ∈ positions item xs ↔ xs[j]? = some item := by
  simp [positions, mem_positionsFrom]

/-- An item is in the index with all its positions or not at all. -/
theorem index_getD (xs : List Nat) (count item : Nat) :
    (index xs count).getD item [] = [] ∨
      (index xs count).getD item [] = positions item xs := by
  simp only [index]
  by_cases hi : item < count
  · simp only [Array.getD_eq_getD_getElem?, List.getElem?_toArray, List.getElem?_map,
      List.getElem?_range hi, Option.map_some, Option.getD_some]
    split
    · exact Or.inl rfl
    · exact Or.inr rfl
  · left
    simp [Nat.not_lt.1 hi]

theorem index_indexes (xs : List Nat) (count : Nat) : Indexes (index xs count) xs.toArray := by
  intro item j hj
  rcases index_getD xs count item with h | h
  · simp [h] at hj
  · rw [h, mem_positions] at hj
    simpa using hj

/-! ## Runs -/

/-- A run either starts at its position or extends one that ends a position
earlier. -/
theorem mem_extendRuns {js : List Nat} {runs : List (Nat × Nat)} {j k : Nat}
    (h : (j, k) ∈ extendRuns js runs) :
    j ∈ js ∧ (k = 1 ∨ ∃ p len, (p, len) ∈ runs ∧ p + 1 = j ∧ k = len + 1) := by
  induction js generalizing runs with
  | nil => simp [extendRuns] at h
  | cons i js ih =>
    have hsub : ∀ r ∈ runs.dropWhile (fun r => r.1 + 1 < i), r ∈ runs := fun r hr =>
      (List.dropWhile_sublist _).subset hr
    rw [extendRuns] at h
    rcases List.mem_cons.1 h with heq | h
    · obtain ⟨rfl, rfl⟩ := Prod.mk.inj heq
      refine ⟨by simp, ?_⟩
      split
      · rename_i p len rest hruns
        split
        · rename_i hp
          exact Or.inr ⟨p, len, hsub _ (by rw [hruns]; simp), by simpa using hp, rfl⟩
        · exact Or.inl rfl
      · exact Or.inl rfl
    · obtain ⟨hj, hk⟩ := ih h
      refine ⟨by simp [hj], hk.imp_right ?_⟩
      rintro ⟨p, len, hp, hrest⟩
      exact ⟨p, len, hsub _ hp, hrest⟩

/-- The positions where the item of a row stands extend the runs of the row
before. -/
theorem ends_of_mem_extendRuns {i : Nat} {js : List Nat} {runs : List (Nat × Nat)}
    (hi : alo ≤ i) (hjs : ∀ j ∈ js, (blo ≤ j ∧ j < bhi) ∧ a[i]? = b[j]?)
    (hruns : ∀ r ∈ runs, Ends a b alo blo bhi i r) :
    ∀ r ∈ extendRuns js runs, Ends a b alo blo bhi (i + 1) r := by
  rintro ⟨j, k⟩ hr
  obtain ⟨hj, hk⟩ := mem_extendRuns hr
  obtain ⟨⟨hlo, hhi⟩, hitem⟩ := hjs j hj
  rcases hk with rfl | ⟨p, len, hp, hpj, rfl⟩
  · refine ⟨by simp only; omega, by simp only; omega, hhi, fun u v h1 h2 h3 => ?_⟩
    simp only at h2 h3
    obtain ⟨rfl, rfl⟩ : u = i ∧ v = j := by omega
    exact hitem
  · obtain ⟨hrows, hcols, -, hagree⟩ := hruns _ hp
    simp only at hrows hcols hagree
    refine ⟨by simp only; omega, by simp only; omega, hhi, fun u v h1 h2 h3 => ?_⟩
    simp only at h2 h3
    rcases Nat.lt_or_eq_of_le (Nat.le_of_lt_succ h1) with hlt | rfl
    · exact hagree u v hlt (by omega) (by omega)
    · obtain rfl : v = j := by omega
      exact hitem

theorem improve_fits {i : Nat} {best : Block} {runs : List (Nat × Nat)} (hi : i + 1 ≤ ahi)
    (hruns : ∀ r ∈ runs, Ends a b alo blo bhi (i + 1) r)
    (hbest : Fits a b alo ahi blo bhi best) :
    Fits a b alo ahi blo bhi (improve i best runs) := by
  induction runs generalizing best with
  | nil => exact hbest
  | cons r runs ih =>
    obtain ⟨j, k⟩ := r
    rw [improve]
    refine ih (fun r hr => hruns r (by simp [hr])) ?_
    split
    · obtain ⟨hrows, hcols, hlt, hagree⟩ := hruns (j, k) (by simp)
      simp only at hrows hcols hlt hagree
      refine ⟨by simp only; omega, by simp only; omega, by simp only; omega,
        by simp only; omega, fun u v h1 h2 h3 => ?_⟩
      simp only at h1 h2 h3
      exact hagree u v (by omega) (by omega) (by omega)
    · exact hbest

theorem scan_fits {fuel i : Nat} {runs : List (Nat × Nat)} {best : Block}
    (hidx : Indexes idx b) (ha : ahi ≤ a.size) (hlo : alo ≤ i) (hi : i + fuel ≤ ahi)
    (hruns : ∀ r ∈ runs, Ends a b alo blo bhi i r) (hbest : Fits a b alo ahi blo bhi best) :
    Fits a b alo ahi blo bhi (scan a idx blo bhi fuel i runs best) := by
  induction fuel generalizing i runs best with
  | zero => exact hbest
  | succ fuel ih =>
    rw [scan]
    have hitem : a[i]? = some (a.getD i 0) := by
      have hlt : i < a.size := by omega
      simp [hlt]
    have hcolumns : ∀ j ∈ (idx.getD (a.getD i 0) []).filter (fun j => blo ≤ j && j < bhi),
        (blo ≤ j ∧ j < bhi) ∧ a[i]? = b[j]? := by
      intro j hj
      obtain ⟨hj, hb⟩ := List.mem_filter.1 hj
      simp only [Bool.and_eq_true, decide_eq_true_eq] at hb
      exact ⟨hb, by rw [hitem, hidx _ j hj]⟩
    have hends := ends_of_mem_extendRuns hlo hcolumns hruns
    exact ih (by omega) (by omega) hends (improve_fits (by omega) hends hbest)

/-! ## Growth -/

theorem growLeft_fits {fuel : Nat} {m : Block} (h : Fits a b alo ahi blo bhi m) :
    Fits a b alo ahi blo bhi (growLeft a b alo blo fuel m) := by
  induction fuel generalizing m with
  | zero => exact h
  | succ fuel ih =>
    rw [growLeft]
    split
    · rename_i hc
      simp only [Bool.and_eq_true, decide_eq_true_eq, beq_iff_eq] at hc
      obtain ⟨⟨hl, hr⟩, heq⟩ := hc
      obtain ⟨h1, h2, h3, h4, hagree⟩ := h
      refine ih ⟨by simp only; omega, by simp only; omega, by simp only; omega,
        by simp only; omega, fun u v hu hu' huv => ?_⟩
      simp only at hu hu' huv
      rcases Nat.lt_or_ge u m.left with hlt | hge
      · obtain ⟨rfl, rfl⟩ : u = m.left - 1 ∧ v = m.right - 1 := by omega
        exact heq
      · exact hagree u v hge (by omega) (by omega)
    · exact h

theorem growRight_fits {fuel : Nat} {m : Block} (h : Fits a b alo ahi blo bhi m) :
    Fits a b alo ahi blo bhi (growRight a b ahi bhi fuel m) := by
  induction fuel generalizing m with
  | zero => exact h
  | succ fuel ih =>
    rw [growRight]
    split
    · rename_i hc
      simp only [Bool.and_eq_true, decide_eq_true_eq, beq_iff_eq] at hc
      obtain ⟨⟨hl, hr⟩, heq⟩ := hc
      obtain ⟨h1, h2, h3, h4, hagree⟩ := h
      refine ih ⟨h1, by simp only; omega, h3, by simp only; omega, fun u v hu hu' huv => ?_⟩
      simp only at hu hu' huv
      rcases Nat.lt_or_ge u (m.left + m.size) with hlt | hge
      · exact hagree u v hu hlt huv
      · obtain ⟨rfl, rfl⟩ : u = m.left + m.size ∧ v = m.right + m.size := by omega
        exact heq
    · exact h

/-- **The longest block is a match within the bounds.** -/
theorem longest_fits (hidx : Indexes idx b) (ha : ahi ≤ a.size) (hal : alo ≤ ahi)
    (hbl : blo ≤ bhi) :
    Fits a b alo ahi blo bhi (longest a b idx alo ahi blo bhi) := by
  have hempty : Fits a b alo ahi blo bhi ⟨alo, blo, 0⟩ :=
    ⟨Nat.le_refl _, hal, Nat.le_refl _, hbl, fun u v h1 h2 _ => by simp only at h1 h2; omega⟩
  exact growRight_fits (growLeft_fits
    (scan_fits hidx ha (Nat.le_refl _) (by omega) (by simp) hempty))

/-! ## The chain of blocks -/

/-- Blocks from `(i, j)` up to `(i', j')`, each a match of at least one item
and none reaching into the next. -/
inductive Chained (a b : Array Nat) : Nat → Nat → List Block → Nat → Nat → Prop
  | nil {i j i' j' : Nat} (hi : i ≤ i') (hj : j ≤ j') : Chained a b i j [] i' j'
  | cons {i j i' j' : Nat} {m : Block} {ms : List Block} (hm : Fits a b i i' j j' m)
      (hpos : 0 < m.size)
      (hms : Chained a b (m.left + m.size) (m.right + m.size) ms i' j') :
      Chained a b i j (m :: ms) i' j'

theorem Chained.le {i j i' j' : Nat} {ms : List Block} (h : Chained a b i j ms i' j') :
    i ≤ i' ∧ j ≤ j' := by
  cases h with
  | nil hi hj => exact ⟨hi, hj⟩
  | cons hm _ _ =>
    obtain ⟨h1, h2, h3, h4, -⟩ := hm
    omega

/-- The chain may start earlier. -/
theorem Chained.earlier {i j i' j' k l : Nat} {ms : List Block} (h : Chained a b i j ms i' j')
    (hk : k ≤ i) (hl : l ≤ j) : Chained a b k l ms i' j' := by
  cases h with
  | nil hi hj => exact .nil (Nat.le_trans hk hi) (Nat.le_trans hl hj)
  | cons hm hpos hms =>
    exact .cons (hm.widen hk (Nat.le_refl _) hl (Nat.le_refl _)) hpos hms

/-- Chains in a row are a chain. -/
theorem Chained.append {i j i' j' k l : Nat} {ms ns : List Block}
    (hm : Chained a b i j ms k l) (hn : Chained a b k l ns i' j') :
    Chained a b i j (ms ++ ns) i' j' := by
  induction hm with
  | nil hi hj => exact hn.earlier hi hj
  | cons hfit hpos _ ih =>
    exact .cons (hfit.widen (Nat.le_refl _) hn.le.1 (Nat.le_refl _) hn.le.2) hpos (ih hn)

theorem blocksFrom_chained {fuel : Nat} (hidx : Indexes idx b) (ha : ahi ≤ a.size)
    (hal : alo ≤ ahi) (hbl : blo ≤ bhi) :
    Chained a b alo blo (blocksFrom a b idx fuel alo ahi blo bhi) ahi bhi := by
  induction fuel generalizing alo ahi blo bhi with
  | zero => exact .nil hal hbl
  | succ fuel ih =>
    rw [blocksFrom]
    split
    · have hfit := longest_fits (b := b) hidx ha hal hbl
      generalize longest a b idx alo ahi blo bhi = m at hfit
      simp only
      split
      · exact .nil hal hbl
      · rename_i hne
        have hpos : 0 < m.size := Nat.pos_of_ne_zero (by simpa using hne)
        obtain ⟨h1, h2, h3, h4, hagree⟩ := hfit
        have hleft : Chained a b alo blo (blocksFrom a b idx fuel alo m.left blo m.right)
            m.left m.right := ih (by omega) h1 h3
        have hright : Chained a b (m.left + m.size) (m.right + m.size)
            (blocksFrom a b idx fuel (m.left + m.size) ahi (m.right + m.size) bhi) ahi bhi :=
          ih ha h2 h4
        exact hleft.append (.cons ⟨Nat.le_refl _, h2, Nat.le_refl _, h4, hagree⟩ hpos hright)
    · exact .nil hal hbl

/-- Two blocks that touch on both sides are one match. -/
theorem Fits.join {i j i' j' : Nat} {m n : Block} (hm : Fits a b i i' j j' m)
    (hn : Fits a b (m.left + m.size) i' (m.right + m.size) j' n)
    (hl : m.left + m.size = n.left) (hr : m.right + m.size = n.right) :
    Fits a b i i' j j' ⟨m.left, m.right, m.size + n.size⟩ := by
  obtain ⟨h1, h2, h3, h4, hagree⟩ := hm
  obtain ⟨k1, k2, k3, k4, kagree⟩ := hn
  refine ⟨h1, by simp only; omega, h3, by simp only; omega, fun u v hu hu' huv => ?_⟩
  simp only at hu hu' huv
  rcases Nat.lt_or_ge u (m.left + m.size) with hlt | hge
  · exact hagree u v hu hlt huv
  · exact kagree u v (by omega) (by omega) (by omega)

theorem merge_chained {i j i' j' : Nat} {ms : List Block} (h : Chained a b i j ms i' j') :
    Chained a b i j (merge ms) i' j' := by
  induction h with
  | nil hi hj => exact .nil hi hj
  | @cons i j i' j' m ms hm hpos hms ih =>
    rw [merge]
    split
    · exact .cons hm hpos (.nil hms.le.1 hms.le.2)
    · rename_i n ns hmerge
      rw [hmerge] at ih
      cases ih with
      | cons hn hnpos hns =>
        split
        · rename_i htouch
          simp only [Bool.and_eq_true, beq_iff_eq] at htouch
          refine .cons (hm.join hn htouch.1 htouch.2) (by simp only; omega) ?_
          simp only
          rw [← Nat.add_assoc, ← Nat.add_assoc, htouch.1, htouch.2]
          exact hns
        · exact .cons hm hpos (.cons hn hnpos hns)

/-- **The blocks of two sequences are a chain of matches from their starts
to their ends.** -/
theorem blocks_chained (xs ys : List Nat) (count : Nat) :
    Chained xs.toArray ys.toArray 0 0 (blocks xs ys count) xs.length ys.length := by
  have hsize : xs.length ≤ xs.toArray.size := by simp
  simp only [blocks, List.size_toArray]
  exact merge_chained
    (blocksFrom_chained (index_indexes ys count) hsize (Nat.zero_le _) (Nat.zero_le _))

end RepairLoop.Sequence
