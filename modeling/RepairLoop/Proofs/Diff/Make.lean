import RepairLoop.Proofs.Diff.Rewrites
import RepairLoop.Proofs.Sequence.Edit
/-!
# Diff — what the diff between two texts says

The lines of both texts are numbered, the numbers compared, and each group
of edits becomes a hunk (`groupHunk`). The hunks lead from the lines of the
one text to the lines of the other (`lineHunks_bridge`), the text of the
diff is their lines with a line feed after each (`makeChars_eq`), and there
is none exactly where the texts are equal (`makeChars_eq_nil_iff`).
-/

namespace RepairLoop.Diff

open Sequence (Edit Agree Follows Grouped Alternates Stands)

/-! ## Numbered lines -/

/-- **A number stands for one line**: the numbers look up the lines in what
has been seen, which only grows and holds no line twice. -/
theorem numberLines_spec {seen : List (List Char)} (ls : List (List Char))
    (hnd : seen.Nodup) :
    (numberLines seen ls).1.map ((numberLines seen ls).2[·]?) = ls.map some ∧
      seen <+: (numberLines seen ls).2 ∧ (numberLines seen ls).2.Nodup := by
  induction ls generalizing seen with
  | nil => exact ⟨rfl, List.prefix_refl _, hnd⟩
  | cons l ls ih =>
    rw [numberLines]
    split
    · rename_i i hi
      obtain ⟨hmap, hpre, hnodup⟩ := ih hnd
      refine ⟨?_, hpre, hnodup⟩
      simp only [List.map_cons, hmap, List.cons.injEq, and_true]
      obtain ⟨hlt, hget, -⟩ := List.idxOf?_eq_some_iff.1 hi
      obtain ⟨rest, hrest⟩ := hpre
      rw [← hrest, List.getElem?_append_left hlt, List.getElem?_eq_getElem hlt]
      exact congrArg some (by simpa using hget)
    · rename_i hnone
      have hnot : l ∉ seen := List.idxOf?_eq_none_iff.1 hnone
      -- a line that is new gets the next number
      have hnd' : (seen ++ [l]).Nodup := by
        rw [List.nodup_append]
        refine ⟨hnd, by simp, fun m hm m' hm' => ?_⟩
        rw [List.mem_singleton.1 hm']
        exact fun heq => hnot (heq ▸ hm)
      obtain ⟨hmap, hpre, hnodup⟩ := ih hnd'
      refine ⟨?_, (List.prefix_append _ _).trans hpre, hnodup⟩
      simp only [List.map_cons, hmap, List.cons.injEq, and_true]
      obtain ⟨rest, hrest⟩ := hpre
      rw [← hrest]
      simp

/-- What a list of numbers looks up, position by position. -/
theorem lookup_getElem? {ns : List Nat} {seen ls : List (List Char)}
    (h : ns.map (seen[·]?) = ls.map some) {u k : Nat} (hk : ns[u]? = some k) :
    ls[u]? = seen[k]? := by
  have hu : (ns.map (seen[·]?))[u]? = (ls.map some)[u]? := by rw [h]
  rw [List.getElem?_map, List.getElem?_map, hk] at hu
  cases hl : ls[u]? with
  | none => simp [hl] at hu
  | some l =>
    rw [hl] at hu
    simpa using hu.symm

/-- The numbers of two files stand for their lines. -/
theorem numberLines_stands (a b : List (List Char)) :
    Stands (numberLines [] a).1 (numberLines (numberLines [] a).2 b).1 a b := by
  obtain ⟨hmap, -, hnd⟩ := numberLines_spec a List.nodup_nil
  obtain ⟨hmap', hpre, -⟩ := numberLines_spec b hnd
  refine ⟨by simpa using congrArg List.length hmap, by simpa using congrArg List.length hmap',
    fun u v hu huv => ?_⟩
  have hk := List.getElem?_eq_getElem hu
  rw [lookup_getElem? hmap hk, lookup_getElem? hmap' (huv ▸ hk)]
  obtain ⟨rest, hrest⟩ := hpre
  have hlt : (numberLines [] a).1[u] < (numberLines [] a).2.length := by
    by_contra hge
    have hnone := lookup_getElem? hmap hk
    rw [List.getElem?_eq_none (Nat.le_of_not_lt hge)] at hnone
    have hlen : (numberLines [] a).1.length = a.length := by
      simpa using congrArg List.length hmap
    exact absurd (List.getElem?_eq_none_iff.1 hnone) (by omega)
  rw [← hrest, List.getElem?_append_left hlt]

/-- Equal files have equal numbers. -/
theorem numberLines_self (a : List (List Char)) :
    (numberLines (numberLines [] a).2 a).1 = (numberLines [] a).1 := by
  obtain ⟨hmap, -, hnd⟩ := numberLines_spec a List.nodup_nil
  obtain ⟨hmap', hpre, hnd'⟩ := numberLines_spec a hnd
  obtain ⟨hlen, hlen', -⟩ := numberLines_stands a a
  refine List.ext_getElem (by omega) fun u hu hu' => ?_
  have hk := lookup_getElem? hmap (List.getElem?_eq_getElem hu')
  have hk' := lookup_getElem? hmap' (List.getElem?_eq_getElem hu)
  have hlt : u < a.length := by omega
  have ha : a[u]? = some a[u] := List.getElem?_eq_getElem hlt
  obtain ⟨rest, hrest⟩ := hpre
  rw [ha] at hk hk'
  obtain ⟨hnum, -⟩ := List.getElem?_eq_some_iff.1 hk.symm
  obtain ⟨hnum', -⟩ := List.getElem?_eq_some_iff.1 hk'.symm
  -- one line at two places of a list without repetition
  have hsame : (numberLines (numberLines [] a).2 a).2[(numberLines [] a).1[u]]? =
      some a[u] := by
    rw [← hrest, List.getElem?_append_left hnum, ← hk]
  exact (List.getElem?_inj hnum' hnd').1 (hk'.symm.trans hsame.symm)

/-- **The groups of two files lead from the lines of the one to the lines of
the other.** -/
theorem lineGroups_grouped (a b : List (List Char)) : Grouped a b 0 0 (lineGroups a b) := by
  obtain ⟨hpath, halt⟩ := Sequence.edits_follow (numberLines_stands a b)
    (numberLines (numberLines [] a).2 b).2.length
  exact Sequence.groups_grouped (by decide) hpath halt

theorem lineGroups_self (a : List (List Char)) : lineGroups a a = [] := by
  have h := Sequence.groups_self (numberLines [] a).1 (numberLines (numberLines [] a).2 a).2.length
  rw [lineGroups]
  simp only
  rw [numberLines_self]
  exact h

/-! ## Slices -/

theorem slice_append {α : Type} {xs : List α} {i k i' : Nat} (hk : i ≤ k) (hk' : k ≤ i') :
    slice xs i i' = slice xs i k ++ slice xs k i' := by
  unfold slice
  rw [show i' - i = (k - i) + (i' - k) by omega, List.take_add, List.drop_drop,
    show i + (k - i) = k by omega]

theorem slice_append_drop {α : Type} {xs : List α} {i i' : Nat} (hi : i ≤ i') :
    slice xs i i' ++ xs.drop i' = xs.drop i := by
  unfold slice
  have hback : xs.drop i' = (xs.drop i).drop (i' - i) := by
    rw [List.drop_drop]
    congr 1
    omega
  rw [hback, List.take_append_drop]

theorem length_slice {α : Type} {xs : List α} {i i' : Nat} (hi' : i' ≤ xs.length) :
    (slice xs i i').length = i' - i := by
  rw [slice, List.length_take, List.length_drop]
  omega

theorem mem_of_mem_slice {α : Type} {xs : List α} {i i' : Nat} {x : α}
    (h : x ∈ slice xs i i') : x ∈ xs :=
  List.mem_of_mem_drop (List.mem_of_mem_take h)

theorem slice_eq_of_agree {α : Type} {xs ys : List α} {i i' j j' : Nat}
    (h : Agree xs ys i i' j j') : slice xs i i' = slice ys j j' := by
  obtain ⟨hi, hj, hsize, hitems⟩ := h
  refine List.ext_getElem? fun n => ?_
  rw [slice, slice, List.getElem?_take, List.getElem?_take, show j' - j = i' - i by omega]
  split
  · rw [List.getElem?_drop, List.getElem?_drop]
    exact hitems _ _ (by omega) (by omega) (by omega)
  · rfl

theorem drop_eq_of_agree {α : Type} {xs ys : List α} {i j : Nat}
    (h : Agree xs ys i xs.length j ys.length) : xs.drop i = ys.drop j := by
  have hx : slice xs i xs.length ++ _ = _ := slice_append_drop h.left
  have hy : slice ys j ys.length ++ _ = _ := slice_append_drop h.right
  rw [List.drop_length, List.append_nil] at hx hy
  rw [← hx, ← hy, slice_eq_of_agree h]

/-! ## Groups as hunks -/

/-- The entries that an edit gives a hunk. -/
def editEntries (a b : List (List Char)) (e : Edit) : List Entry :=
  match e.change with
  | .equal => (slice a e.aFrom e.aTo).flatMap (lineEntries .context)
  | .delete => (slice a e.aFrom e.aTo).flatMap (lineEntries .removed)
  | .insert => (slice b e.bFrom e.bTo).flatMap (lineEntries .added)
  | .replace => (slice a e.aFrom e.aTo).flatMap (lineEntries .removed) ++
      (slice b e.bFrom e.bTo).flatMap (lineEntries .added)

/-- The hunk of a group: it goes from the start of its first edit to the end
of its last. -/
def groupHunk (a b : List (List Char)) (g : List Edit) : Hunk where
  oldStart := startOf (g.headD default).aFrom ((g.getLastD default).aTo - (g.headD default).aFrom)
  oldCount := (g.getLastD default).aTo - (g.headD default).aFrom
  newStart := startOf (g.headD default).bFrom ((g.getLastD default).bTo - (g.headD default).bFrom)
  newCount := (g.getLastD default).bTo - (g.headD default).bFrom
  entries := g.flatMap (editEntries a b)
  section_ := []

/-- The hunks of the diff between two files. -/
def lineHunks (a b : List (List Char)) : List Hunk :=
  (lineGroups a b).map (groupHunk a b)

/-- An edit turns its stretch of the one file into its stretch of the
other. -/
theorem editEntries_rewrites {a b : List (List Char)} {e : Edit} (he : e.Sound a b) :
    Rewrites (editEntries a b e) (slice a e.aFrom e.aTo) (slice b e.bFrom e.bTo) := by
  have hempty : ∀ (xs : List (List Char)) (i : Nat), slice xs i i = [] := fun xs i => by
    simp [slice]
  unfold editEntries
  split
  · rename_i hc
    rw [← slice_eq_of_agree (he.equal hc).2]
    exact .ofContext _
  · rename_i hc
    rw [(he.delete hc).2, hempty]
    exact .ofRemoved _
  · rename_i hc
    rw [(he.insert hc).1, hempty]
    exact .ofAdded _
  · have h := (Rewrites.ofRemoved (slice a e.aFrom e.aTo)).append
      (Rewrites.ofAdded (slice b e.bFrom e.bTo))
    simpa using h

/-- And a path of edits does so from its start to its end. -/
theorem Follows.rewrites {a b : List (List Char)} {i j i' j' : Nat} {es : List Edit}
    (h : Follows a b i j es i' j') :
    Rewrites (es.flatMap (editEntries a b)) (slice a i i') (slice b j j') := by
  induction es generalizing i j with
  | nil =>
    obtain ⟨rfl, rfl⟩ := h
    simpa [slice] using Rewrites.nil
  | cons e es ih =>
    have hle := Sequence.Follows.le h
    obtain ⟨rfl, rfl, he, hes⟩ := h
    have hrest := Sequence.Follows.le hes
    rw [List.flatMap_cons, slice_append he.left hrest.1, slice_append he.right hrest.2]
    exact (editEntries_rewrites he).append (ih hes)

/-- **The hunks of groups lead to the ends of both files.** -/
theorem Grouped.bridges {a b : List (List Char)} {i j : Nat} {gs : List (List Edit)}
    (h : Grouped a b i j gs) (hi : i ≤ a.length) (hj : j ≤ b.length) :
    Bridges i j (gs.map (groupHunk a b)) (a.drop i) (b.drop j) := by
  induction h with
  | nil hagree =>
    rw [drop_eq_of_agree hagree]
    exact .done _ _ _
  | @cons i j i' j' k l g gs hagree hne _ hg _ ih =>
    obtain ⟨hfa, hfb⟩ := Sequence.Follows.head hg hne
    obtain ⟨hla, hlb⟩ := Sequence.Follows.last hg hne
    have hle := Sequence.Follows.le hg
    have hi' : i' ≤ a.length := by
      cases g with
      | nil => exact absurd rfl hne
      | cons e es =>
        obtain ⟨rfl, -, he, -⟩ := hg
        exact Nat.le_trans he.left he.left_le
    have hj' : j' ≤ b.length := by
      cases g with
      | nil => exact absurd rfl hne
      | cons e es =>
        obtain ⟨-, rfl, he, -⟩ := hg
        exact Nat.le_trans he.right he.right_le
    obtain ⟨hk, hl⟩ := Sequence.Follows.le_length hg hi' hj'
    have hih := ih hk hl
    -- the stretch before the group is as long on both sides
    have hsame : (slice a i i').length = i' - i := length_slice hi'
    have hsize := hagree.size
    have hleft := hagree.left
    have hright := hagree.right
    have hat : i + (slice a i i').length = i' := by omega
    have hbt : j + (slice a i i').length = j' := by omega
    rw [← slice_append_drop hagree.left, ← slice_append_drop hle.1,
      ← slice_append_drop hagree.right, ← slice_append_drop hle.2, ← slice_eq_of_agree hagree,
      List.map_cons]
    refine .hunk _ (Follows.rewrites hg) ?_ ?_ ?_ ?_ ?_
    · simp only [groupHunk, hfa, hla, hat, length_slice hk]
    · simp only [groupHunk, hfa, hla, length_slice hk]
    · simp only [groupHunk, hfb, hlb, hbt, length_slice hl]
    · simp only [groupHunk, hfb, hlb, length_slice hl]
    · rw [hat, hbt, length_slice hk, length_slice hl, show i' + (k - i') = k by omega,
        show j' + (l - j') = l by omega]
      exact hih

/-- **The hunks of a diff lead from the one file to the other.** -/
theorem lineHunks_bridge (a b : List (List Char)) : Bridges 0 0 (lineHunks a b) a b := by
  have h := Grouped.bridges (lineGroups_grouped a b) (Nat.zero_le _) (Nat.zero_le _)
  rwa [List.drop_zero, List.drop_zero] at h

/-- There is no hunk exactly where the files are equal. -/
theorem lineHunks_eq_nil_iff (a b : List (List Char)) : lineHunks a b = [] ↔ a = b := by
  constructor
  · intro h
    have hbridge := lineHunks_bridge a b
    rw [h] at hbridge
    cases hbridge
    rfl
  · rintro rfl
    rw [lineHunks, lineGroups_self, List.map_nil]

/-! ## The text of the diff -/

theorem terminated_append (xs ys : List (List Char)) :
    terminated (xs ++ ys) = terminated xs ++ terminated ys := by
  simp [terminated]

theorem terminated_cons (l : List Char) (ls : List (List Char)) :
    terminated (l :: ls) = l ++ '\n' :: terminated ls := by
  simp [terminated]

theorem terminated_flatMap {α : Type} (f : α → List (List Char)) (xs : List α) :
    terminated (xs.flatMap f) = xs.flatMap fun x => terminated (f x) := by
  induction xs with
  | nil => rfl
  | cons x xs ih => rw [List.flatMap_cons, terminated_append, ih, List.flatMap_cons]

theorem flatMap_written (tag : Tag) (ls : List (List Char)) :
    ls.flatMap (written tag) = terminated ((ls.flatMap (lineEntries tag)).map Entry.line) := by
  rw [List.map_flatMap, terminated_flatMap]
  exact List.flatMap_congr fun l _ => written_eq tag l

theorem editLines_eq (a b : List (List Char)) (e : Edit) :
    editLines a b e = terminated ((editEntries a b e).map Entry.line) := by
  unfold editLines editEntries
  cases e.change <;>
    simp only [flatMap_written, List.map_append, terminated_append]

/-- The line that opens the hunk of a group. -/
def groupHeader (g : List Edit) : List Char :=
  s!"@@ -{rangeText (g.headD default).aFrom (g.getLastD default).aTo} +{rangeText
    (g.headD default).bFrom (g.getLastD default).bTo} @@".toList

theorem groupText_eq (a b : List (List Char)) (g : List Edit) :
    groupText a b g =
      terminated (groupHeader g :: (groupHunk a b g).entries.map Entry.line) := by
  have hentries : g.flatMap (editLines a b) =
      terminated ((groupHunk a b g).entries.map Entry.line) := by
    rw [groupHunk, List.map_flatMap, terminated_flatMap]
    exact List.flatMap_congr fun e _ => editLines_eq a b e
  rw [groupText, terminated_cons, ← hentries, groupHeader]
  simp [ToString.toString]

/-- The lines in front of the hunks. -/
def fileHeader (path : String) : List (List Char) :=
  [s!"diff --git a/{path} b/{path}".toList, s!"--- a/{path}".toList, s!"+++ b/{path}".toList]

/-- The lines of the diff between two files that are not equal. -/
def diffLines (a b : List (List Char)) (path : String) : List (List Char) :=
  fileHeader path ++ (lineGroups a b).flatMap fun g =>
    groupHeader g :: (groupHunk a b g).entries.map Entry.line

/-- **The diff between two texts is its lines with a line feed after
each.** -/
theorem makeChars_eq {original updated : List Char} (path : String)
    (hne : Text.fullLines original ≠ Text.fullLines updated) :
    makeChars original updated path =
      terminated (diffLines (Text.fullLines original) (Text.fullLines updated) path) := by
  have hgs : lineGroups (Text.fullLines original) (Text.fullLines updated) ≠ [] := fun h =>
    hne ((lineHunks_eq_nil_iff _ _).1 (by rw [lineHunks, h, List.map_nil]))
  rw [diffLines, terminated_append, terminated_flatMap]
  have hbody : (lineGroups (Text.fullLines original) (Text.fullLines updated)).flatMap
      (groupText (Text.fullLines original) (Text.fullLines updated)) = _ :=
    List.flatMap_congr fun g _ => groupText_eq _ _ g
  rw [← hbody, makeChars]
  simp only
  simp [fileHeader, terminated, ToString.toString]

/-- **There is no diff exactly where the texts are equal.** -/
theorem makeChars_eq_nil_iff (original updated : List Char) (path : String) :
    makeChars original updated path = [] ↔ original = updated := by
  constructor
  · intro h
    by_contra hne
    have hlines : Text.fullLines original ≠ Text.fullLines updated := fun heq =>
      hne (by rw [← Text.join_lines original, heq, Text.join_lines])
    rw [makeChars_eq path hlines, diffLines, fileHeader] at h
    simp [terminated] at h
  · rintro rfl
    rw [makeChars]
    simp only [lineGroups_self]

end RepairLoop.Diff
