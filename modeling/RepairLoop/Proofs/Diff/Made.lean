import RepairLoop.Proofs.Diff.Make
import RepairLoop.Proofs.Diff.Rendered
/-!
# Diff — the hunks of a diff that is made

The hunks of a diff between two texts have the counts that their headers
state (`states_groupHeader`, `groupHunk_whole`), and in a hunk no removed
line stands directly behind an added one (`groupHunk_settled`), since the
edits of a group alternate. Turned around, such a hunk has nothing in it
that looks like a file header (`clear_flip`).
-/

namespace RepairLoop.Diff

open Sequence (Edit Agree Follows Grouped Alternates)

/-! ## Headers -/

/-- The count in a range, which a single line lacks. -/
def rangeCount (size : Nat) : Option (List Char) :=
  if size = 1 then none else some (Nat.toDigits 10 size)

theorem rangeText_eq (start stop : Nat) :
    (rangeText start stop).toList =
      Nat.toDigits 10 (startOf start (stop - start)) ++ countText (rangeCount (stop - start)) := by
  unfold rangeText startOf rangeCount
  simp only [beq_iff_eq]
  split
  · rename_i h
    simp [h, countText, ToString.toString]
  · rename_i h
    split
    · rename_i h0
      simp [h0, countText, ToString.toString, Nat.toDigits_zero]
    · simp [countText, ToString.toString]

theorem countOrOne_rangeCount {size : Nat} (h : Countable size) :
    countOrOne (rangeCount size) = .ok size := by
  unfold rangeCount
  split
  · rename_i h1
    rw [h1]
    rfl
  · exact number_toDigits h

theorem digits_rangeCount {size : Nat} : ∀ ds ∈ rangeCount size, Digits ds := by
  intro ds hds
  unfold rangeCount at hds
  split at hds
  · cases hds
  · rw [← Option.mem_some.1 hds]
    exact digits_toDigits _

theorem groupHeader_eq (a b : List (List Char)) (g : List Edit) :
    groupHeader g = headerText ⟨Nat.toDigits 10 (groupHunk a b g).oldStart,
      rangeCount (groupHunk a b g).oldCount, Nat.toDigits 10 (groupHunk a b g).newStart,
      rangeCount (groupHunk a b g).newCount, []⟩ := by
  simp only [groupHeader, String.toList_append, ToString.toString, rangeText_eq, groupHunk,
    headerText, List.append_assoc, List.append_nil]

/-- The header of a group states its hunk. -/
theorem states_groupHeader {a b : List (List Char)} {g : List Edit}
    (hc : (groupHunk a b g).Countable) : States (groupHeader g) (groupHunk a b g) := by
  have hraw := rawHeader?_headerText ⟨Nat.toDigits 10 (groupHunk a b g).oldStart,
    rangeCount (groupHunk a b g).oldCount, Nat.toDigits 10 (groupHunk a b g).newStart,
    rangeCount (groupHunk a b g).newCount, []⟩ (digits_toDigits _) digits_rangeCount
    (digits_toDigits _) digits_rangeCount
  rw [← groupHeader_eq] at hraw
  exact ⟨_, hraw, number_toDigits hc.oldStart, countOrOne_rangeCount hc.oldCount,
    number_toDigits hc.newStart, countOrOne_rangeCount hc.newCount, rfl⟩

/-! ## Hunks -/

/-- The edits of a group lead somewhere, and there are some. -/
structure IsGroup (a b : List (List Char)) (g : List Edit) : Prop where
  ne_nil : g ≠ []
  alternates : Alternates g
  follows : ∃ i j k l, Follows a b i j g k l

theorem Grouped.isGroup {a b : List (List Char)} {i j : Nat} {gs : List (List Edit)}
    (h : Grouped a b i j gs) : ∀ g ∈ gs, IsGroup a b g := by
  induction h with
  | nil => simp
  | cons _ hne halt hg _ ih =>
    intro g hg'
    rcases List.mem_cons.1 hg' with rfl | hg'
    · exact ⟨hne, halt, _, _, _, _, hg⟩
    · exact ih g hg'

theorem isGroup_of_mem {a b : List (List Char)} {g : List Edit} (h : g ∈ lineGroups a b) :
    IsGroup a b g :=
  Grouped.isGroup (lineGroups_grouped a b) g h

theorem groupHunk_rewrites {a b : List (List Char)} {g : List Edit} (h : IsGroup a b g) :
    ∃ old new, Rewrites (groupHunk a b g).entries old new ∧
      (groupHunk a b g).oldCount = old.length ∧ (groupHunk a b g).newCount = new.length ∧
      (groupHunk a b g).oldStart ≤ a.length ∧ (groupHunk a b g).newStart ≤ b.length ∧
      old.length ≤ a.length ∧ new.length ≤ b.length := by
  obtain ⟨hne, -, i, j, k, l, hg⟩ := h
  obtain ⟨hfa, hfb⟩ := Sequence.Follows.head hg hne
  obtain ⟨hla, hlb⟩ := Sequence.Follows.last hg hne
  obtain ⟨hik, hjl⟩ := Sequence.Follows.le hg
  obtain ⟨hk, hl⟩ : k ≤ a.length ∧ l ≤ b.length := by
    cases g with
    | nil => exact absurd rfl hne
    | cons e es =>
      obtain ⟨-, -, he, hes⟩ := hg
      exact Sequence.Follows.le_length hes he.left_le he.right_le
  refine ⟨_, _, Follows.rewrites hg, ?_, ?_, ?_, ?_, ?_, ?_⟩
  · simp only [groupHunk, hfa, hla, length_slice hk]
  · simp only [groupHunk, hfb, hlb, length_slice hl]
  · simp only [groupHunk, hfa, hla, startOf]
    split <;> omega
  · simp only [groupHunk, hfb, hlb, startOf]
    split <;> omega
  · rw [length_slice hk]
    omega
  · rw [length_slice hl]
    omega

/-- Numbers of lines that can be read make hunks that can be read. -/
theorem groupHunk_countable {a b : List (List Char)} {g : List Edit} (h : IsGroup a b g)
    (ha : Countable a.length) (hb : Countable b.length) : (groupHunk a b g).Countable := by
  obtain ⟨old, new, -, hoc, hnc, hos, hns, hold, hnew⟩ := groupHunk_rewrites h
  unfold Countable at ha hb
  exact ⟨Nat.lt_of_le_of_lt hos ha, Nat.lt_of_le_of_lt (hoc ▸ hold) ha,
    Nat.lt_of_le_of_lt hns hb, Nat.lt_of_le_of_lt (hnc ▸ hnew) hb⟩

/-- An edit shows a line of one of the files. -/
theorem exists_line_of_sound {a b : List (List Char)} {e : Edit} (he : e.Sound a b) :
    ∃ x ∈ editEntries a b e, x.tag ≠ .marker := by
  have hold : e.aFrom < e.aTo → ∀ tag : Tag, tag ≠ .marker →
      ∃ x ∈ (slice a e.aFrom e.aTo).flatMap (lineEntries tag), x.tag ≠ .marker := by
    intro hlt tag htag
    have hne : 0 < (slice a e.aFrom e.aTo).length := by
      rw [length_slice he.left_le]
      omega
    obtain ⟨l, ls, hl⟩ := List.exists_cons_of_length_pos hne
    obtain ⟨body, es, hes⟩ := lineEntries_eq_cons tag l
    exact ⟨⟨tag, body⟩, by rw [hl, List.flatMap_cons, hes]; simp, htag⟩
  have hnew : e.bFrom < e.bTo → ∃ x ∈ (slice b e.bFrom e.bTo).flatMap (lineEntries .added),
      x.tag ≠ .marker := by
    intro hlt
    have hne : 0 < (slice b e.bFrom e.bTo).length := by
      rw [length_slice he.right_le]
      omega
    obtain ⟨l, ls, hl⟩ := List.exists_cons_of_length_pos hne
    obtain ⟨body, es, hes⟩ := lineEntries_eq_cons .added l
    exact ⟨⟨.added, body⟩, by rw [hl, List.flatMap_cons, hes]; simp, by simp⟩
  unfold editEntries
  split
  · rename_i hc
    exact hold (he.equal hc).1 _ (by decide)
  · rename_i hc
    exact hold (he.delete hc).1 _ (by decide)
  · rename_i hc
    exact hnew (he.insert hc).2
  · rename_i hc
    obtain ⟨x, hx, htag⟩ := hold (he.replace hc).1 .removed (by decide)
    exact ⟨x, List.mem_append_left _ hx, htag⟩

theorem groupHunk_whole {a b : List (List Char)} {g : List Edit} (h : IsGroup a b g) :
    (groupHunk a b g).Whole := by
  obtain ⟨old, new, hr, hoc, hnc, -⟩ := groupHunk_rewrites h
  refine ⟨hoc.trans hr.oldSize_eq.symm, hnc.trans hr.newSize_eq.symm, ?_⟩
  obtain ⟨hne, -, i, j, k, l, hg⟩ := h
  cases g with
  | nil => exact absurd rfl hne
  | cons e es =>
    obtain ⟨-, -, he, -⟩ := hg
    obtain ⟨x, hx, htag⟩ := exists_line_of_sound he
    exact ⟨x, by simp [groupHunk, hx], htag⟩

/-! ## The order of the lines -/

/-- No removed line directly behind an added one. -/
def Settled (es : List Entry) : Prop :=
  es.IsChain fun e f => e.tag = .added → f.tag ≠ .removed

/-- The entries of a line have its tag, but for a marker. -/
theorem tag_of_mem_lineEntries {tag : Tag} {l : List Char} {e : Entry}
    (h : e ∈ lineEntries tag l) : e.tag = tag ∨ e.tag = .marker := by
  unfold lineEntries at h
  split at h
  · rw [List.mem_singleton.1 h]
    exact Or.inl rfl
  · simp only [List.mem_cons, List.not_mem_nil, or_false] at h
    rcases h with rfl | rfl
    · exact Or.inl rfl
    · exact Or.inr rfl

theorem tag_of_mem_flatMap {tag : Tag} {ls : List (List Char)} {e : Entry}
    (h : e ∈ ls.flatMap (lineEntries tag)) : e.tag = tag ∨ e.tag = .marker := by
  obtain ⟨l, -, he⟩ := List.mem_flatMap.1 h
  exact tag_of_mem_lineEntries he

theorem settled_flatMap (tag : Tag) (ls : List (List Char)) :
    Settled (ls.flatMap (lineEntries tag)) := by
  refine List.Pairwise.isChain (List.Pairwise.imp_of_mem ?_ (List.pairwise_of_forall
    fun _ _ => trivial : (ls.flatMap (lineEntries tag)).Pairwise fun _ _ => True))
  intro e f he hf _ hadd hrem
  have h1 := tag_of_mem_flatMap he
  have h2 := tag_of_mem_flatMap hf
  rw [hadd] at h1
  rw [hrem] at h2
  rcases h1 with h1 | h1
  · rw [← h1] at h2
    rcases h2 with h2 | h2 <;> cases h2
  · cases h1

theorem editEntries_settled (a b : List (List Char)) (e : Edit) :
    Settled (editEntries a b e) := by
  unfold editEntries
  split
  · exact settled_flatMap _ _
  · exact settled_flatMap _ _
  · exact settled_flatMap _ _
  · refine (settled_flatMap _ _).append (settled_flatMap _ _) fun x hx y _ hadd => ?_
    have h := tag_of_mem_flatMap (List.mem_of_getLast? hx)
    rw [hadd] at h
    rcases h with h | h <;> cases h

/-- **In a hunk removed lines stand before the added ones they make room
for**, and context comes between two changes. -/
theorem groupHunk_settled {a b : List (List Char)} {g : List Edit} (h : IsGroup a b g) :
    Settled (groupHunk a b g).entries := by
  obtain ⟨-, halt, i, j, k, l, hg⟩ := h
  simp only [groupHunk]
  induction g generalizing i j with
  | nil => exact List.IsChain.nil
  | cons e es ih =>
    obtain ⟨-, -, he, hes⟩ := hg
    unfold Alternates at halt ih
    rw [List.map_cons, List.isChain_cons] at halt
    rw [List.flatMap_cons]
    refine (editEntries_settled a b e).append (ih halt.2 _ _ hes) fun x hx y hy hadd => ?_
    by_cases hc : e.change = .equal
    · -- behind a stretch of context
      have hx' := List.mem_of_getLast? hx
      rw [editEntries, hc] at hx'
      rcases tag_of_mem_flatMap hx' with h | h <;> (rw [h] at hadd; cases hadd)
    · -- in front of one, which is not empty
      cases es with
      | nil => simp at hy
      | cons f fs =>
        have hf : f.change = .equal := (halt.1 f.change (by simp)).resolve_left hc
        obtain ⟨-, -, hfs, -⟩ := hes
        have hpos : 0 < (slice a f.aFrom f.aTo).length := by
          have := (hfs.equal hf).1
          rw [length_slice hfs.left_le]
          omega
        obtain ⟨m, ms, hm⟩ := List.exists_cons_of_length_pos hpos
        obtain ⟨body, rest, hrest⟩ := lineEntries_eq_cons .context m
        rw [List.flatMap_cons, editEntries, hf] at hy
        simp only [hm, List.flatMap_cons, hrest, List.cons_append, List.head?_cons,
          Option.mem_some_iff] at hy
        rw [← hy]
        simp

/-- An entry whose line opens like the first line of a file header removes a
line that opens with two dashes. -/
theorem removed_of_opens {e : Entry} (h : opens "--- " e.line = true) :
    e.tag = .removed ∧ opens "-- " e.body = true := by
  obtain ⟨tag, body⟩ := e
  obtain ⟨rest, hrest⟩ := opens_iff.1 h
  have htag : '-' = tag.char := (List.cons.inj hrest).1
  refine ⟨?_, opens_iff.2 ⟨rest, (List.cons.inj hrest).2⟩⟩
  cases tag with
  | removed => rfl
  | context | added | marker => exact absurd htag (by decide)

theorem added_of_opens {e : Entry} (h : opens "+++ " e.line = true) :
    e.tag = .added ∧ opens "++ " e.body = true := by
  obtain ⟨tag, body⟩ := e
  obtain ⟨rest, hrest⟩ := opens_iff.1 h
  have htag : '+' = tag.char := (List.cons.inj hrest).1
  refine ⟨?_, opens_iff.2 ⟨rest, (List.cons.inj hrest).2⟩⟩
  cases tag with
  | added => rfl
  | context | removed | marker => exact absurd htag (by decide)

/-- **Turned around, a settled hunk has nothing that looks like a file
header.** -/
theorem clear_flip {es : List Entry} (h : Settled es) : Clear (es.map Entry.flip) := by
  unfold Clear
  rw [List.isChain_map]
  refine h.imp fun e f hef hboth => ?_
  have he := (removed_of_opens hboth.1).1
  have hf := (added_of_opens hboth.2).1
  refine hef ?_ ?_
  · rw [← Tag.flip_flip e.tag, show e.tag.flip = .removed from he]
    rfl
  · rw [← Tag.flip_flip f.tag, show f.tag.flip = .added from hf]
    rfl

/-! ## Where the entries come from -/

/-- **An entry shows a line**: of the other file if the line is added, and
of the one if it is not. -/
theorem exists_line_of_entry {a b : List (List Char)} {g : List Edit} {x : Entry}
    (h : x ∈ (groupHunk a b g).entries) :
    ∃ tag l, x ∈ lineEntries tag l ∧ ((tag ≠ .added ∧ l ∈ a) ∨ (tag = .added ∧ l ∈ b)) := by
  obtain ⟨e, -, hx⟩ := List.mem_flatMap.1 h
  have hold : ∀ (tag : Tag) (i i' : Nat), tag ≠ .added →
      x ∈ (slice a i i').flatMap (lineEntries tag) →
      ∃ tag l, x ∈ lineEntries tag l ∧ ((tag ≠ .added ∧ l ∈ a) ∨ (tag = .added ∧ l ∈ b)) := by
    intro tag i i' htag hmem
    obtain ⟨l, hl, hxl⟩ := List.mem_flatMap.1 hmem
    exact ⟨tag, l, hxl, Or.inl ⟨htag, mem_of_mem_slice hl⟩⟩
  have hnew : ∀ i i' : Nat, x ∈ (slice b i i').flatMap (lineEntries .added) →
      ∃ tag l, x ∈ lineEntries tag l ∧ ((tag ≠ .added ∧ l ∈ a) ∨ (tag = .added ∧ l ∈ b)) := by
    intro i i' hmem
    obtain ⟨l, hl, hxl⟩ := List.mem_flatMap.1 hmem
    exact ⟨.added, l, hxl, Or.inr ⟨rfl, mem_of_mem_slice hl⟩⟩
  unfold editEntries at hx
  split at hx
  · exact hold _ _ _ (by decide) hx
  · exact hold _ _ _ (by decide) hx
  · exact hnew _ _ hx
  · rcases List.mem_append.1 hx with hx | hx
    · exact hold _ _ _ (by decide) hx
    · exact hnew _ _ hx

end RepairLoop.Diff
