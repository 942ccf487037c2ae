import RepairLoop.Diff.Make
import RepairLoop.Diff.Parser
import RepairLoop.Proofs.Diff.Apply
import RepairLoop.Proofs.Text.Character
/-!
# Diff — hunks that lead from one list of lines to another

`Rewrites` says that the entries of a hunk turn some lines into others, and
`Bridges` that the hunks of a section do so for a whole file, each standing
where its header says. Both are the same read from the other side
(`Rewrites.flip`, `Bridges.flip`), so what is proved of a change holds of
its reversal. `applyChars_of_bridges` is the point of them: where the lines
are those of plain texts, applying the section yields the other text.
-/

namespace RepairLoop.Diff

/-! ## Lines as entries -/

/-- The entry that stands behind a line without a line feed. -/
def bareMarker : Entry :=
  ⟨.marker, " No newline at end of file".toList⟩

/-- A line of a file as entries of a hunk. -/
def lineEntries (tag : Tag) (l : List Char) : List Entry :=
  if l.getLast? = some '\n' then [⟨tag, l.dropLast⟩] else [⟨tag, l⟩, bareMarker]

theorem lineEntries_fed (tag : Tag) (b : List Char) :
    lineEntries tag (b ++ ['\n']) = [⟨tag, b⟩] := by
  simp [lineEntries]

theorem lineEntries_bare (tag : Tag) {l : List Char} (h : Text.Unbroken l) :
    lineEntries tag l = [⟨tag, l⟩, bareMarker] := by
  have hlast : l.getLast? ≠ some '\n' := fun hl => by
    have := h '\n' (List.mem_of_getLast? hl)
    exact absurd this (by decide)
  simp [lineEntries, hlast]

/-- What a diff shows of a line are its entries. -/
theorem written_eq (tag : Tag) (l : List Char) :
    written tag l = terminated ((lineEntries tag l).map Entry.line) := by
  by_cases h : l.getLast? = some '\n'
  · have hl : l = l.dropLast ++ ['\n'] := by
      have hne : l ≠ [] := by
        rintro rfl
        simp at h
      rw [List.getLast?_eq_some_getLast hne, Option.some.injEq] at h
      rw [← h, List.dropLast_concat_getLast]
    rw [hl, lineEntries_fed]
    simp [written, terminated, Entry.line]
  · simp [written, lineEntries, h, terminated, Entry.line, bareMarker, Tag.char]

theorem lineEntries_flip (tag : Tag) (l : List Char) :
    (lineEntries tag l).map Entry.flip = lineEntries tag.flip l := by
  unfold lineEntries
  split <;> simp [Entry.flip, bareMarker, Tag.flip]

/-- Every line has a first entry, and it has the tag of the line. -/
theorem lineEntries_eq_cons (tag : Tag) (l : List Char) :
    ∃ b es, lineEntries tag l = ⟨tag, b⟩ :: es := by
  unfold lineEntries
  split
  · exact ⟨_, _, rfl⟩
  · exact ⟨_, _, rfl⟩

/-! ## Hunks -/

/-- The entries copy, remove and add lines so that the first list of lines
becomes the second. -/
inductive Rewrites : List Entry → List (List Char) → List (List Char) → Prop
  | nil : Rewrites [] [] []
  | context {es : List Entry} {old new : List (List Char)} (l : List Char)
      (h : Rewrites es old new) :
      Rewrites (lineEntries .context l ++ es) (l :: old) (l :: new)
  | removed {es : List Entry} {old new : List (List Char)} (l : List Char)
      (h : Rewrites es old new) : Rewrites (lineEntries .removed l ++ es) (l :: old) new
  | added {es : List Entry} {old new : List (List Char)} (l : List Char)
      (h : Rewrites es old new) : Rewrites (lineEntries .added l ++ es) old (l :: new)

namespace Rewrites

variable {es fs : List Entry} {old new old' new' : List (List Char)}

theorem append (h : Rewrites es old new) (h' : Rewrites fs old' new') :
    Rewrites (es ++ fs) (old ++ old') (new ++ new') := by
  induction h with
  | nil => exact h'
  | context l _ ih =>
    rw [List.append_assoc]
    exact .context l ih
  | removed l _ ih =>
    rw [List.append_assoc]
    exact .removed l ih
  | added l _ ih =>
    rw [List.append_assoc]
    exact .added l ih

theorem ofContext (ls : List (List Char)) :
    Rewrites (ls.flatMap (lineEntries .context)) ls ls := by
  induction ls with
  | nil => exact .nil
  | cons l ls ih => exact .context l ih

theorem ofRemoved (ls : List (List Char)) :
    Rewrites (ls.flatMap (lineEntries .removed)) ls [] := by
  induction ls with
  | nil => exact .nil
  | cons l ls ih => exact .removed l ih

theorem ofAdded (ls : List (List Char)) :
    Rewrites (ls.flatMap (lineEntries .added)) [] ls := by
  induction ls with
  | nil => exact .nil
  | cons l ls ih => exact .added l ih

/-- **Turned around, the entries lead back.** -/
theorem flip (h : Rewrites es old new) : Rewrites (es.map Entry.flip) new old := by
  induction h with
  | nil => exact .nil
  | context l _ ih =>
    rw [List.map_append, lineEntries_flip]
    exact .context l ih
  | removed l _ ih =>
    rw [List.map_append, lineEntries_flip]
    exact .added l ih
  | added l _ ih =>
    rw [List.map_append, lineEntries_flip]
    exact .removed l ih

/-- No marker stands in front. -/
theorem head_ne_marker (h : Rewrites es old new) : ∀ e ∈ es.head?, e.tag ≠ .marker := by
  intro e he
  cases h with
  | nil => simp at he
  | context l _ | removed l _ | added l _ =>
    obtain ⟨b, rest, hl⟩ := lineEntries_eq_cons _ l
    rw [hl, List.cons_append, List.head?_cons, Option.mem_some_iff] at he
    simp [← he]

theorem oldSize_lineEntries (tag : Tag) (l : List Char) (es : List Entry) :
    oldSize (lineEntries tag l ++ es) = (if tag.isOld then 1 else 0) + oldSize es := by
  have hm : bareMarker.tag.isOld = false := rfl
  unfold lineEntries oldSize
  split <;> simp [List.countP_cons, hm, Nat.add_comm]

/-- The old side of the entries has as many lines as there are old lines. -/
theorem oldSize_eq (h : Rewrites es old new) : oldSize es = old.length := by
  induction h with
  | nil => rfl
  | context l _ ih => rw [oldSize_lineEntries, ih]; simp [Tag.isOld, Nat.add_comm]
  | removed l _ ih => rw [oldSize_lineEntries, ih]; simp [Tag.isOld, Nat.add_comm]
  | added l _ ih => rw [oldSize_lineEntries, ih]; simp [Tag.isOld]

theorem newSize_flip (es : List Entry) : newSize (es.map Entry.flip) = oldSize es := by
  unfold newSize oldSize
  rw [List.countP_map]
  congr 1
  funext e
  obtain ⟨t, b⟩ := e
  cases t <;> rfl

/-- And the new side as many as there are new ones. -/
theorem newSize_eq (h : Rewrites es old new) : newSize es = new.length := by
  have hflip : (es.map Entry.flip).map Entry.flip = es := by
    simp [Function.comp_def]
  rw [← h.flip.oldSize_eq, ← newSize_flip, hflip]

end Rewrites

/-! ## Running a hunk -/

/-- The text of a line without its line feed. -/
theorem content_of_unbroken {tag : Tag} {b : List Char} (h : Text.Unbroken b) :
    (⟨tag, b⟩ : Entry).content = b := by
  refine Text.dropTrailing_of_none fun c hc => ?_
  rcases eq_or_ne c '\r' with rfl | hne
  · exact absurd (h _ hc) (by decide)
  · simpa using hne

theorem dropTrailing_ends_of_unbroken {b : List Char} (h : Text.Unbroken b) :
    Text.dropTrailing (fun c => c == '\r' || c == '\n') b = b := by
  refine Text.dropTrailing_of_none fun c hc => ?_
  have hb := h c hc
  rw [Bool.or_eq_false_iff, beq_eq_false_iff_ne, beq_eq_false_iff_ne]
  constructor
  · rintro rfl
    exact absurd hb (by decide)
  · rintro rfl
    exact absurd hb (by decide)

/-- The old side that a plain line gives a hunk is the line itself, up to
its line feed. -/
theorem oldLines_lineEntries (tag : Tag) (ht : tag.isOld = true) {l : List Char}
    (hl : Text.PlainLine l) :
    ∃ b, ((lineEntries tag l).filter (·.tag.isOld)).map Entry.content = [b] ∧
      lineMatches false l b = true := by
  have hm : bareMarker.tag.isOld = false := rfl
  rcases hl with ⟨b, hb, rfl⟩ | ⟨hb, -⟩
  · refine ⟨b, ?_, ?_⟩
    · simp [lineEntries_fed, ht, content_of_unbroken hb]
    · rw [lineMatches, Text.dropTrailing_append_of_all _ _ _ (by decide),
        dropTrailing_ends_of_unbroken hb]
      simp
  · refine ⟨l, ?_, ?_⟩
    · simp [lineEntries_bare tag hb, ht, hm, content_of_unbroken hb]
    · rw [lineMatches, dropTrailing_ends_of_unbroken hb]
      simp

theorem oldLines_lineEntries_added (l : List Char) :
    (lineEntries .added l).filter (·.tag.isOld) = [] := by
  unfold lineEntries
  split <;> rfl

/-- The block of a hunk matches the lines it was made of. -/
theorem Rewrites.matches {es : List Entry} {old new rest : List (List Char)}
    (h : Rewrites es old new) (hold : ∀ l ∈ old, Text.PlainLine l) :
    blockMatches false (old ++ rest) ((es.filter (·.tag.isOld)).map Entry.content) = true := by
  induction h with
  | nil => cases rest <;> rfl
  | context l _ ih =>
    obtain ⟨b, hb, hmatch⟩ := oldLines_lineEntries .context rfl (hold l (by simp))
    rw [List.filter_append, List.map_append, hb, List.singleton_append, List.cons_append,
      blockMatches, hmatch, ih fun m hm => hold m (by simp [hm])]
    rfl
  | removed l _ ih =>
    obtain ⟨b, hb, hmatch⟩ := oldLines_lineEntries .removed rfl (hold l (by simp))
    rw [List.filter_append, List.map_append, hb, List.singleton_append, List.cons_append,
      blockMatches, hmatch, ih fun m hm => hold m (by simp [hm])]
    rfl
  | added l _ ih =>
    rw [List.filter_append, oldLines_lineEntries_added, List.nil_append]
    exact ih hold

/-- **The entries turn the old lines into the new ones** and leave what
follows. -/
theorem Rewrites.runEntries_eq {es : List Entry} {old new : List (List Char)}
    (h : Rewrites es old new) (hnew : ∀ l ∈ new, Text.PlainLine l) (rest : List (List Char)) :
    runEntries ['\n'] es (old ++ rest) = (new, rest) := by
  induction h with
  | nil => rfl
  | @context es old new l h ih =>
    have hih := ih fun m hm => hnew m (by simp [hm])
    unfold lineEntries
    split
    · simp [runEntries, hih]
    · simp [runEntries, bareMarker, hih]
  | @removed es old new l h ih =>
    have hih := ih hnew
    unfold lineEntries
    split
    · simp [runEntries, hih]
    · simp [runEntries, bareMarker, hih]
  | @added es old new l h ih =>
    have hih := ih fun m hm => hnew m (by simp [hm])
    rcases hnew l (by simp) with ⟨b, hb, rfl⟩ | ⟨hb, -⟩
    · -- what follows an added line with its line feed is no marker
      rw [lineEntries_fed, List.singleton_append]
      have hhead := h.head_ne_marker
      cases es with
      | nil =>
        rw [runEntries] at hih
        rw [runEntries]
        simp [hih, runEntries, content_of_unbroken hb]
      | cons e es =>
        have he : ¬ e.tag = .marker := hhead e rfl
        rw [runEntries]
        simp [hih, he, content_of_unbroken hb]
    · rw [lineEntries_bare _ hb]
      simp [runEntries, bareMarker, hih, content_of_unbroken hb]

/-! ## Sections -/

/-- The number a header gives the first line of a side: the line after the
position, or the position itself if the side has no line. -/
def startOf (position size : Nat) : Nat :=
  if size = 0 then position else position + 1

/-- From line `i` of the one file and line `j` of the other on, the hunks
lead from the lines of the first to the lines of the second. -/
inductive Bridges : Nat → Nat → List Hunk → List (List Char) → List (List Char) → Prop
  | done (i j : Nat) (rest : List (List Char)) : Bridges i j [] rest rest
  | hunk {i j : Nat} {h : Hunk} {hs : List Hunk} {old new xs ys : List (List Char)}
      (same : List (List Char)) (hr : Rewrites h.entries old new)
      (hos : h.oldStart = startOf (i + same.length) old.length)
      (hoc : h.oldCount = old.length)
      (hns : h.newStart = startOf (j + same.length) new.length)
      (hnc : h.newCount = new.length)
      (hrest : Bridges (i + same.length + old.length) (j + same.length + new.length) hs xs ys) :
      Bridges i j (h :: hs) (same ++ (old ++ xs)) (same ++ (new ++ ys))

/-- **Turned around, the hunks lead back.** -/
theorem Bridges.flip {i j : Nat} {hs : List Hunk} {xs ys : List (List Char)}
    (h : Bridges i j hs xs ys) : Bridges j i (hs.map Hunk.reverse) ys xs := by
  induction h with
  | done i j rest => exact .done j i rest
  | hunk same hr hos hoc hns hnc _ ih => exact .hunk same hr.flip hns hnc hos hoc ih

/-- The position that a header states for the old side. -/
theorem declared_eq {position size : Nat} :
    (if (size != 0) = true then ((startOf position size : Nat) : Int) - 1
      else startOf position size) = position := by
  unfold startOf
  split
  · rename_i h
    have hne : size ≠ 0 := by simpa using h
    rw [if_neg hne]
    omega
  · rename_i h
    have hz : size = 0 := by simpa using h
    rw [if_pos hz]

/-- **The hunks find their places and lead to the other lines.** -/
theorem Bridges.runHunks_eq {path : String} {lines : List (List Char)} {i j n : Nat}
    {hs : List Hunk} {xs ys : List (List Char)} (h : Bridges i j hs xs ys)
    (hi : i ≤ lines.length) (hxs : lines.drop i = xs)
    (hlines : ∀ l ∈ lines, Text.PlainLine l) (hys : ∀ l ∈ ys, Text.PlainLine l) :
    runHunks path ['\n'] lines n i hs = .ok ys := by
  induction h generalizing n with
  | done i j rest => rw [runHunks, hxs]
  | @hunk i j h hs old new xs ys same hr hos hoc hns hnc _ ih =>
    have hlen : lines.length - i = same.length + (old.length + xs.length) := by
      rw [← List.length_drop, hxs]
      simp
    have hat : lines.drop (i + same.length) = old ++ xs := by
      rw [← List.drop_drop, hxs, List.drop_left]
    have hafter : lines.drop (i + same.length + old.length) = xs := by
      rw [← List.drop_drop, hat, List.drop_left]
    have hplain : ∀ l ∈ old, Text.PlainLine l := fun l hl =>
      hlines l (List.mem_of_mem_drop (i := i) (by rw [hxs]; simp [hl]))
    -- the lines stand where the header says, so the search ends at once
    have hfound : locate lines h.oldLines ((i + same.length : Nat) : Int) i =
        some (i + same.length) := by
      refine locate_of_matches (Nat.le_add_right _ _) ?_ ?_
      · rw [Hunk.oldLines, List.length_map, ← List.countP_eq_length_filter]
        have := hr.oldSize_eq
        unfold oldSize at this
        omega
      · rw [matchesAt, hat]
        exact hr.matches hplain
    rw [runHunks]
    simp only [hos, hoc, declared_eq, hfound]
    rw [hat, hr.runEntries_eq (fun l hl => hys l (by simp [hl])) xs]
    have hnext : lines.length - xs.length = i + same.length + old.length := by omega
    simp only [hnext]
    rw [ih (by omega) hafter (fun l hl => hys l (by simp [hl])), hxs,
      show i + same.length - i = same.length by omega, List.take_left]
    simp

/-- A plain text has the line feed as its line end. -/
theorem newlineOf_plain {ls : List (List Char)} (h : ∀ l ∈ ls, Text.PlainLine l) :
    newlineOf ls = ['\n'] := by
  cases ls with
  | nil => rfl
  | cons l ls =>
    -- the last two characters of a plain line are no carriage return and line feed
    have hcr : ∀ b : List Char, Text.Unbroken b → b.getLast? ≠ some '\r' := fun b hb hl =>
      absurd (hb '\r' (List.mem_of_getLast? hl)) (by decide)
    rw [newlineOf, if_neg]
    rcases h l (by simp) with ⟨b, hb, rfl⟩ | ⟨hb, hne⟩
    · have := hcr b hb
      rw [← List.head?_reverse] at this
      rw [List.reverse_append]
      cases hrev : b.reverse with
      | nil => simp
      | cons c cs =>
        rw [hrev] at this
        simpa [List.isPrefixOf] using fun h => this (by rw [← h]; rfl)
    · have hnl : l.getLast? ≠ some '\n' := fun hl =>
        absurd (hb '\n' (List.mem_of_getLast? hl)) (by decide)
      rw [← List.head?_reverse] at hnl
      cases hrev : l.reverse with
      | nil => simp
      | cons c cs =>
        rw [hrev] at hnl
        simp only [List.isPrefixOf, Bool.and_eq_true, beq_iff_eq]
        rintro ⟨rfl, -⟩
        exact hnl rfl

/-- **A section whose hunks lead from one plain text to another yields the
other when it is applied.** -/
theorem applyChars_of_bridges {original updated : List Char} {p : FilePatch}
    (hold : p.isNew = false) (hkept : p.isDeleted = false) (ho : Text.Plain original)
    (hu : Text.Plain updated)
    (h : Bridges 0 0 p.hunks (Text.fullLines original) (Text.fullLines updated)) :
    applyChars original p = .ok updated := by
  have hol := Text.plainLines_fullLines ho
  have hul := Text.plainLines_fullLines hu
  unfold applyChars
  simp only [hold, hkept, Bool.false_eq_true, if_false, newlineOf_plain hol.plain]
  rw [h.runHunks_eq (Nat.zero_le _) List.drop_zero hol.plain hul.plain]
  have hclosed : ∀ l ∈ (Text.fullLines updated).dropLast, Closed l := fun l hl => by
    obtain ⟨b, -, rfl⟩ := hul.inner l hl
    exact Or.inl (by simp)
  simp only [closeLines_eq_self hclosed, Text.join_lines]

end RepairLoop.Diff
