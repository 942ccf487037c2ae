import Mathlib.Data.List.Chain
import RepairLoop.Proofs.Sequence.Diagonal
import RepairLoop.Sequence.Basic
/-!
# Sequence — the edits lead from one sequence to the other

An edit script is a path: each edit starts where the one before it has
ended, and an equal edit joins stretches that agree (`Follows`). The edits
of two sequences are such a path from start to end (`edits_follow`), with
an equal edit between any two that are not (`Alternates`). Cut into groups
the path loses only stretches that agree (`groups_grouped`), so there is a
group where the sequences differ, and none where they are equal
(`groups_self`).
-/

namespace RepairLoop.Sequence

variable {α : Type} {xs ys : List α} {n : Nat}

/-! ## Stretches that agree -/

/-- The items from `i` up to `i'` are the items from `j` up to `j'`. -/
structure Agree (xs ys : List α) (i i' j j' : Nat) : Prop where
  left : i ≤ i'
  right : j ≤ j'
  size : i' + j = j' + i
  items : ∀ u v, i ≤ u → u < i' → u + j = v + i → xs[u]? = ys[v]?

theorem Agree.refl (i j : Nat) : Agree xs ys i i j j :=
  ⟨Nat.le_refl _, Nat.le_refl _, Nat.add_comm _ _, fun u v h1 h2 _ => by omega⟩

theorem Agree.trans {i k i' j l j' : Nat} (h : Agree xs ys i k j l)
    (h' : Agree xs ys k i' l j') : Agree xs ys i i' j j' := by
  obtain ⟨h1, h2, h3, h4⟩ := h
  obtain ⟨k1, k2, k3, k4⟩ := h'
  refine ⟨by omega, by omega, by omega, fun u v hu hu' huv => ?_⟩
  rcases Nat.lt_or_ge u k with hlt | hge
  · exact h4 u v hu hlt huv
  · exact k4 u v hge hu' (by omega)

/-- A part of a stretch agrees with the part at the same place. -/
theorem Agree.part {i i' j j' k k' l l' : Nat} (h : Agree xs ys i i' j j') (hk : i ≤ k)
    (hkk : k ≤ k') (hk' : k' ≤ i') (hl : k + j = l + i) (hl' : k' + j = l' + i) :
    Agree xs ys k k' l l' :=
  ⟨hkk, by omega, by omega, fun u v hu hu' huv => h.items u v (by omega) (by omega) (by omega)⟩

/-! ## Paths of edits -/

/-- What an edit of its kind may be: it lies within both sequences, an equal
one joins stretches that agree, and none is empty. -/
structure Edit.Sound (xs ys : List α) (e : Edit) : Prop where
  left : e.aFrom ≤ e.aTo
  right : e.bFrom ≤ e.bTo
  left_le : e.aTo ≤ xs.length
  right_le : e.bTo ≤ ys.length
  equal : e.change = .equal → e.aFrom < e.aTo ∧ Agree xs ys e.aFrom e.aTo e.bFrom e.bTo
  replace : e.change = .replace → e.aFrom < e.aTo ∧ e.bFrom < e.bTo
  delete : e.change = .delete → e.aFrom < e.aTo ∧ e.bFrom = e.bTo
  insert : e.change = .insert → e.aFrom = e.aTo ∧ e.bFrom < e.bTo

/-- The edits lead from `(i, j)` to `(i', j')`, each from where the one
before it has ended. -/
def Follows (xs ys : List α) : Nat → Nat → List Edit → Nat → Nat → Prop
  | i, j, [], i', j' => i = i' ∧ j = j'
  | i, j, e :: es, i', j' =>
    e.aFrom = i ∧ e.bFrom = j ∧ e.Sound xs ys ∧ Follows xs ys e.aTo e.bTo es i' j'

/-- Of two edits in a row one is equal. -/
def Alternates (es : List Edit) : Prop :=
  (es.map Edit.change).IsChain fun c d => c = .equal ∨ d = .equal

theorem Follows.append {i j k l i' j' : Nat} {es fs : List Edit}
    (he : Follows xs ys i j es k l) (hf : Follows xs ys k l fs i' j') :
    Follows xs ys i j (es ++ fs) i' j' := by
  induction es generalizing i j with
  | nil =>
    obtain ⟨rfl, rfl⟩ := he
    exact hf
  | cons e es ih =>
    obtain ⟨hi, hj, hsound, hes⟩ := he
    exact ⟨hi, hj, hsound, ih hes⟩

theorem Follows.single {e : Edit} (he : e.Sound xs ys) :
    Follows xs ys e.aFrom e.bFrom [e] e.aTo e.bTo :=
  ⟨rfl, rfl, he, rfl, rfl⟩

/-- A path never leads back. -/
theorem Follows.le {i j i' j' : Nat} {es : List Edit} (h : Follows xs ys i j es i' j') :
    i ≤ i' ∧ j ≤ j' := by
  induction es generalizing i j with
  | nil =>
    obtain ⟨rfl, rfl⟩ := h
    exact ⟨Nat.le_refl _, Nat.le_refl _⟩
  | cons e es ih =>
    obtain ⟨rfl, rfl, hsound, hes⟩ := h
    have hrest := ih hes
    exact ⟨Nat.le_trans hsound.left hrest.1, Nat.le_trans hsound.right hrest.2⟩

/-- A path that starts within the sequences stays there. -/
theorem Follows.le_length {i j i' j' : Nat} {es : List Edit} (h : Follows xs ys i j es i' j')
    (hi : i ≤ xs.length) (hj : j ≤ ys.length) : i' ≤ xs.length ∧ j' ≤ ys.length := by
  induction es generalizing i j with
  | nil =>
    obtain ⟨rfl, rfl⟩ := h
    exact ⟨hi, hj⟩
  | cons e es ih =>
    obtain ⟨-, -, hsound, hes⟩ := h
    exact ih hes hsound.left_le hsound.right_le

/-- The first edit starts where the path does. -/
theorem Follows.head {i j i' j' : Nat} {es : List Edit} (h : Follows xs ys i j es i' j')
    (hne : es ≠ []) : (es.headD default).aFrom = i ∧ (es.headD default).bFrom = j := by
  cases es with
  | nil => exact absurd rfl hne
  | cons e es =>
    obtain ⟨hi, hj, -⟩ := h
    exact ⟨hi, hj⟩

/-- The last edit ends where the path does. -/
theorem Follows.last {i j i' j' : Nat} {es : List Edit} (h : Follows xs ys i j es i' j')
    (hne : es ≠ []) : (es.getLastD default).aTo = i' ∧ (es.getLastD default).bTo = j' := by
  induction es generalizing i j with
  | nil => exact absurd rfl hne
  | cons e es ih =>
    obtain ⟨-, -, -, hes⟩ := h
    cases es with
    | nil => exact hes
    | cons f fs => exact ih hes (by simp)

/-! ## The edits of two sequences -/

/-- Equal items of two lists of numbers stand for equal items of the lists
that are compared. -/
def Stands (ns ms : List Nat) (xs ys : List α) : Prop :=
  ns.length = xs.length ∧ ms.length = ys.length ∧
    ∀ u v : Nat, u < ns.length → ns[u]? = ms[v]? → xs[u]? = ys[v]?

/-- At most one edit leads to the next block, and it is not an equal one. -/
theorem gap_follows {i j i' j' : Nat} (hi : i ≤ i') (hj : j ≤ j') (hl : i' ≤ xs.length)
    (hr : j' ≤ ys.length) :
    Follows xs ys i j (gap i j i' j') i' j' ∧
      (gap i j i' j' = [] ∨ ∃ e, gap i j i' j' = [e] ∧ e.change ≠ .equal) := by
  unfold gap
  by_cases hlt : i < i'
  · by_cases hlt' : j < j'
    · have he : Edit.Sound xs ys ⟨.replace, i, i', j, j'⟩ :=
        ⟨hi, hj, hl, hr, by simp, fun _ => ⟨hlt, hlt'⟩, by simp, by simp⟩
      simp only [hlt, hlt', decide_true, Bool.and_self, if_true]
      exact ⟨.single he, Or.inr ⟨_, rfl, by simp⟩⟩
    · obtain rfl : j = j' := by omega
      have he : Edit.Sound xs ys ⟨.delete, i, i', j, j⟩ :=
        ⟨hi, hj, hl, hr, by simp, by simp, fun _ => ⟨hlt, rfl⟩, by simp⟩
      simp only [hlt, Nat.lt_irrefl, decide_true, decide_false, Bool.and_false,
        Bool.false_eq_true, if_true, if_false]
      exact ⟨.single he, Or.inr ⟨_, rfl, by simp⟩⟩
  · obtain rfl : i = i' := by omega
    by_cases hlt' : j < j'
    · have he : Edit.Sound xs ys ⟨.insert, i, i, j, j'⟩ :=
        ⟨hi, hj, hl, hr, by simp, by simp, by simp, fun _ => ⟨rfl, hlt'⟩⟩
      simp only [hlt', Nat.lt_irrefl, decide_true, decide_false, Bool.and_true,
        Bool.false_eq_true, if_true, if_false]
      exact ⟨.single he, Or.inr ⟨_, rfl, by simp⟩⟩
    · obtain rfl : j = j' := by omega
      rw [if_neg (by simp), if_neg (Nat.lt_irrefl _), if_neg (Nat.lt_irrefl _)]
      exact ⟨⟨rfl, rfl⟩, Or.inl rfl⟩

/-- An equal edit may follow a gap, whatever comes after it. -/
theorem alternates_gap_append {gs es : List Edit} {e : Edit} (he : e.change = .equal)
    (hg : gs = [] ∨ ∃ f, gs = [f] ∧ f.change ≠ .equal) (hes : Alternates es) :
    Alternates (gs ++ e :: es) := by
  unfold Alternates at hes ⊢
  have hcons : ((e :: es).map Edit.change).IsChain fun c d => c = .equal ∨ d = .equal := by
    rw [List.map_cons, List.isChain_cons]
    exact ⟨fun _ _ => Or.inl he, hes⟩
  rcases hg with rfl | ⟨f, rfl, -⟩
  · exact hcons
  · rw [List.singleton_append, List.map_cons, List.isChain_cons]
    refine ⟨fun c hc => Or.inr ?_, hcons⟩
    simp only [List.map_cons, List.head?_cons, Option.mem_some_iff] at hc
    rw [← hc, he]

/-- **Between the blocks of a chain the edits are a path**, to the ends of
both sequences. -/
theorem editsFrom_follows {ns ms : List Nat} (hst : Stands ns ms xs ys) {i j : Nat}
    {bs : List Block}
    (h : Chained ns.toArray ms.toArray i j bs ns.length ms.length) :
    Follows xs ys i j (editsFrom ns.length ms.length i j bs) xs.length ys.length ∧
      Alternates (editsFrom ns.length ms.length i j bs) := by
  obtain ⟨hln, hlm, hitems⟩ := hst
  induction bs generalizing i j with
  | nil =>
    rw [editsFrom, hln, hlm]
    obtain ⟨hi, hj⟩ := h.le
    rw [hln] at hi
    rw [hlm] at hj
    obtain ⟨hpath, hshape⟩ := gap_follows hi hj (Nat.le_refl xs.length)
      (Nat.le_refl ys.length)
    refine ⟨hpath, ?_⟩
    rcases hshape with hnil | ⟨e, hsingle, -⟩
    · simp [hnil, Alternates]
    · simp [hsingle, Alternates]
  | cons m bs ih =>
    cases h with
    | cons hm hpos hbs =>
      obtain ⟨h1, h2, h3, h4, hagree⟩ := hm
      obtain ⟨hrest, halt⟩ := ih hbs
      have hl : m.left ≤ xs.length := by omega
      have hr : m.right ≤ ys.length := by omega
      obtain ⟨hpath, hshape⟩ := gap_follows h1 h3 hl hr
      -- equal numbers stand for equal items, so the block is an equal edit
      have hsame : Agree xs ys m.left (m.left + m.size) m.right (m.right + m.size) := by
        refine ⟨by omega, by omega, by omega, fun u v hu hu' huv => ?_⟩
        have hnums := hagree u v hu hu' huv
        rw [List.getElem?_toArray, List.getElem?_toArray] at hnums
        exact hitems u v (by omega) hnums
      have he : Edit.Sound xs ys
          ⟨.equal, m.left, m.left + m.size, m.right, m.right + m.size⟩ :=
        ⟨hsame.left, hsame.right, by simp only; omega, by simp only; omega,
          fun _ => ⟨by simp only; omega, hsame⟩, by simp, by simp, by simp⟩
      rw [editsFrom]
      exact ⟨hpath.append ⟨rfl, rfl, he, hrest⟩, alternates_gap_append rfl hshape halt⟩

/-- **The edits of two sequences lead from start to end, and alternate.** -/
theorem edits_follow {ns ms : List Nat} (hst : Stands ns ms xs ys) (count : Nat) :
    Follows xs ys 0 0 (edits ns ms count) xs.length ys.length ∧
      Alternates (edits ns ms count) :=
  editsFrom_follows hst (blocks_chained ns ms count)

/-! ## Cutting equal stretches short -/

/-- The last items of an equal stretch; what is cut off agrees. -/
theorem Edit.Sound.keepLast {e : Edit} (he : e.Sound xs ys) (hc : e.change = .equal)
    (hn : 0 < n) :
    (e.keepLast n).Sound xs ys ∧
      Agree xs ys e.aFrom (e.keepLast n).aFrom e.bFrom (e.keepLast n).bFrom := by
  obtain ⟨hlt, hagree⟩ := he.equal hc
  have hsize := hagree.size
  have hright := hagree.right
  have hl := he.left_le
  have hr := he.right_le
  refine ⟨⟨?_, ?_, hl, hr, fun _ => ⟨?_, ?_⟩, ?_, ?_, ?_⟩, ?_⟩
  · simp only [Edit.keepLast]; omega
  · simp only [Edit.keepLast]; omega
  · simp only [Edit.keepLast]; omega
  · exact hagree.part (by simp only [Edit.keepLast]; omega) (by simp only [Edit.keepLast]; omega)
      (Nat.le_refl _) (by simp only [Edit.keepLast]; omega) hsize
  · simp [Edit.keepLast, hc]
  · simp [Edit.keepLast, hc]
  · simp [Edit.keepLast, hc]
  · exact hagree.part (Nat.le_refl _) (by simp only [Edit.keepLast]; omega)
      (by simp only [Edit.keepLast]; omega) (Nat.add_comm _ _)
      (by simp only [Edit.keepLast]; omega)

/-- The first items of an equal stretch; what is cut off agrees. -/
theorem Edit.Sound.keepFirst {e : Edit} (he : e.Sound xs ys) (hc : e.change = .equal)
    (hn : 0 < n) :
    (e.keepFirst n).Sound xs ys ∧
      Agree xs ys (e.keepFirst n).aTo e.aTo (e.keepFirst n).bTo e.bTo := by
  obtain ⟨hlt, hagree⟩ := he.equal hc
  have hsize := hagree.size
  have hright := hagree.right
  have hl := he.left_le
  have hr := he.right_le
  refine ⟨⟨?_, ?_, ?_, ?_, fun _ => ⟨?_, ?_⟩, ?_, ?_, ?_⟩, ?_⟩
  · simp only [Edit.keepFirst]; omega
  · simp only [Edit.keepFirst]; omega
  · simp only [Edit.keepFirst]; omega
  · simp only [Edit.keepFirst]; omega
  · simp only [Edit.keepFirst]; omega
  · exact hagree.part (Nat.le_refl _) (by simp only [Edit.keepFirst]; omega)
      (by simp only [Edit.keepFirst]; omega) (Nat.add_comm _ _)
      (by simp only [Edit.keepFirst]; omega)
  · simp [Edit.keepFirst, hc]
  · simp [Edit.keepFirst, hc]
  · simp [Edit.keepFirst, hc]
  · exact hagree.part (by simp only [Edit.keepFirst]; omega)
      (by simp only [Edit.keepFirst]; omega) (Nat.le_refl _)
      (by simp only [Edit.keepFirst]; omega) hsize

@[simp] theorem Edit.keepLast_change (e : Edit) : (e.keepLast n).change = e.change := rfl

@[simp] theorem Edit.keepFirst_change (e : Edit) : (e.keepFirst n).change = e.change := rfl

theorem map_change_trimStart (es : List Edit) :
    (trimStart n es).map Edit.change = es.map Edit.change := by
  cases es with
  | nil => rfl
  | cons e es =>
    rw [trimStart]
    split <;> simp

theorem map_change_trimEnd (es : List Edit) :
    (trimEnd n es).map Edit.change = es.map Edit.change := by
  fun_induction trimEnd n es with
  | case1 => rfl
  | case2 e => split <;> simp
  | case3 e es _ ih => simp [ih]

theorem trimStart_follows {i j i' j' : Nat} {es : List Edit} (hn : 0 < n)
    (h : Follows xs ys i j es i' j') :
    ∃ k l, Agree xs ys i k j l ∧ Follows xs ys k l (trimStart n es) i' j' := by
  cases es with
  | nil => exact ⟨i, j, .refl i j, h⟩
  | cons e es =>
    obtain ⟨rfl, rfl, he, hes⟩ := h
    rw [trimStart]
    split
    · rename_i hc
      obtain ⟨hsound, hagree⟩ := he.keepLast (beq_iff_eq.1 hc) hn
      exact ⟨_, _, hagree, rfl, rfl, hsound, hes⟩
    · exact ⟨_, _, .refl _ _, rfl, rfl, he, hes⟩

theorem trimEnd_follows {i j i' j' : Nat} {es : List Edit} (hn : 0 < n)
    (h : Follows xs ys i j es i' j') :
    ∃ k l, Follows xs ys i j (trimEnd n es) k l ∧ Agree xs ys k i' l j' := by
  induction es generalizing i j with
  | nil => exact ⟨i', j', h, .refl i' j'⟩
  | cons e es ih =>
    obtain ⟨rfl, rfl, he, hes⟩ := h
    cases es with
    | nil =>
      obtain ⟨rfl, rfl⟩ := hes
      rw [trimEnd]
      split
      · rename_i hc
        obtain ⟨hsound, hagree⟩ := he.keepFirst (beq_iff_eq.1 hc) hn
        exact ⟨_, _, .single hsound, hagree⟩
      · exact ⟨_, _, .single he, .refl _ _⟩
    | cons f fs =>
      obtain ⟨k, l, hpath, hagree⟩ := ih hes
      rw [trimEnd]
      · exact ⟨k, l, ⟨rfl, rfl, he, hpath⟩, hagree⟩
      · simp

/-! ## Groups -/

/-- The groups lead from `(i, j)` to the ends of both sequences, each group
a path of its own, and what lies between them agrees. -/
inductive Grouped (xs ys : List α) : Nat → Nat → List (List Edit) → Prop
  | nil {i j : Nat} (h : Agree xs ys i xs.length j ys.length) : Grouped xs ys i j []
  | cons {i j i' j' k l : Nat} {g : List Edit} {gs : List (List Edit)}
      (h : Agree xs ys i i' j j') (hne : g ≠ []) (halt : Alternates g)
      (hg : Follows xs ys i' j' g k l) (hgs : Grouped xs ys k l gs) :
      Grouped xs ys i j (g :: gs)

/-- A group without a change is a stretch that agrees. -/
theorem agree_of_not_changes {i j k l : Nat} {group : List Edit}
    (h : Follows xs ys i j group.reverse k l) (hc : ¬ changes group = true) :
    Agree xs ys i k j l := by
  simp only [changes, Bool.and_eq_true, Bool.not_eq_true', List.isEmpty_eq_false_iff,
    not_and, Bool.not_eq_false] at hc
  rcases eq_or_ne group [] with rfl | hne
  · obtain ⟨rfl, rfl⟩ := h
    exact .refl _ _
  · obtain ⟨hsize, hall⟩ := hc hne
    obtain ⟨e, rfl⟩ := List.length_eq_one_iff.1 (beq_iff_eq.1 hsize)
    rw [List.reverse_singleton] at h
    obtain ⟨rfl, rfl, he, rfl, rfl⟩ := h
    exact (he.equal (by simpa using hall)).2

theorem groupsFrom_grouped {i j i' j' k l p q : Nat} {group es : List Edit} (hn : 0 < n)
    (hopen : Agree xs ys i i' j j') (hg : Follows xs ys i' j' group.reverse k l)
    (hes : Follows xs ys k l es p q) (hend : Agree xs ys p xs.length q ys.length)
    (halt : Alternates (group.reverse ++ es)) :
    Grouped xs ys i j (groupsFrom n group es) := by
  induction es generalizing group i j i' j' k l with
  | nil =>
    obtain ⟨rfl, rfl⟩ := hes
    rw [groupsFrom]
    split
    · rename_i hc
      have hne : group.reverse ≠ [] := by
        rintro hnil
        rw [List.reverse_eq_nil_iff.1 hnil] at hc
        cases hc
      rw [List.append_nil] at halt
      exact .cons hopen hne halt hg (.nil hend)
    · rename_i hc
      exact .nil ((hopen.trans (agree_of_not_changes hg hc)).trans hend)
  | cons e es ih =>
    obtain ⟨rfl, rfl, he, hes⟩ := hes
    rw [groupsFrom]
    split
    · -- a long equal stretch: its first items close the group, its last ones open the next
      rename_i hlong
      simp only [Bool.and_eq_true, beq_iff_eq, decide_eq_true_eq] at hlong
      obtain ⟨hc, hsize⟩ := hlong
      obtain ⟨hfirst, -⟩ := he.keepFirst hc hn
      obtain ⟨hlast, -⟩ := he.keepLast hc hn
      have hagree := (he.equal hc).2
      have hsizes := hagree.size
      have hclosed : Follows xs ys i' j' (e.keepFirst n :: group).reverse
          (e.keepFirst n).aTo (e.keepFirst n).bTo := by
        rw [List.reverse_cons]
        exact hg.append (.single hfirst)
      have hskipped : Agree xs ys (e.keepFirst n).aTo (e.keepLast n).aFrom
          (e.keepFirst n).bTo (e.keepLast n).bFrom := by
        refine hagree.part ?_ ?_ ?_ ?_ ?_ <;>
          simp only [Edit.keepFirst, Edit.keepLast] <;> omega
      unfold Alternates at halt
      rw [List.map_append, List.map_cons, List.isChain_split] at halt
      refine .cons hopen (by simp) ?_ hclosed
        (@ih _ _ _ _ _ _ [e.keepLast n] hskipped (Follows.single hlast) hes ?_)
      · simpa [Alternates] using halt.1
      · simpa [Alternates] using halt.2
    -- any other edit joins the open group
    · have hsnoc : Follows xs ys i' j' (e :: group).reverse e.aTo e.bTo := by
        rw [List.reverse_cons]
        exact hg.append (.single he)
      exact ih hopen hsnoc hes (by simpa using halt)

/-- **The groups of a path lose only stretches that agree.** -/
theorem groups_grouped {es : List Edit} (hn : 0 < n)
    (h : Follows xs ys 0 0 es xs.length ys.length) (halt : Alternates es) :
    Grouped xs ys 0 0 (groups n es) := by
  obtain ⟨k, l, hstart, hpath⟩ := trimStart_follows hn h
  obtain ⟨p, q, hpath, hend⟩ := trimEnd_follows hn hpath
  refine groupsFrom_grouped hn hstart ⟨rfl, rfl⟩ hpath hend ?_
  unfold Alternates at halt ⊢
  rw [List.reverse_nil, List.nil_append, map_change_trimEnd, map_change_trimStart]
  exact halt

/-- **Equal sequences have no group.** -/
theorem groups_self (ns : List Nat) (count : Nat) : groups 3 (edits ns ns count) = [] := by
  rw [edits, blocks_self]
  split
  · rename_i hnil
    subst hnil
    rfl
  · have hgap : ∀ k, gap k k k k = [] := fun k => by simp [gap]
    simp only [editsFrom, Nat.zero_add, hgap, List.nil_append, groups, trimStart, trimEnd,
      beq_self_eq_true, if_true, Edit.keepLast_change]
    rw [groupsFrom, if_neg, groupsFrom, if_neg]
    · simp [changes]
    · rintro hlong
      have hsize := (Bool.and_eq_true_iff.1 hlong).2
      simp only [Edit.keepFirst, Edit.keepLast, gt_iff_lt, decide_eq_true_eq] at hsize
      omega

end RepairLoop.Sequence
