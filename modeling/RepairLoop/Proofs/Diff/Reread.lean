import RepairLoop.Proofs.Diff.Made
/-!
# Diff — a diff that is made is read back

The diff between two texts is read line by line, and a line of it may have
ended with another boundary than a line feed in its file. Behind such a
boundary an empty line of context is read (`Entry.readLines`), for which the
header has no room, so a hunk is not always read as it was made. What is
read is `reread`, unless two lines in a row look like a file header
(`parseChars_makeChars`). Between plain texts it is what was made
(`parseChars_makeChars_plain`), and turned around that always is
(`readable_reverse`).
-/

namespace RepairLoop.Diff

open Sequence (Edit)

/-! ## Lines -/

/-- The lines that are read where the line of an entry was written. -/
def Entry.readLines (e : Entry) : List (List Char) :=
  Text.lineBodies (e.line ++ ['\n'])

theorem readLines_of_unbroken {e : Entry} (h : Text.Unbroken e.body) : e.readLines = [e.line] :=
  Text.lineBodies_of_unbroken (unbroken_line h)

/-- **A line is read with its tag**, and behind a boundary that stays in
front of the line feed an empty line is read, too. -/
theorem readLines_cases {e : Entry} (h : Text.Unbroken e.body.dropLast) :
    ∃ b, e.readLines = [Entry.line ⟨e.tag, b⟩] ∨ e.readLines = [Entry.line ⟨e.tag, b⟩, []] := by
  obtain ⟨tag, body⟩ := e
  rcases List.eq_nil_or_concat' body with rfl | ⟨b, c, rfl⟩
  · exact ⟨[], Or.inl (readLines_of_unbroken Text.unbroken_nil)⟩
  simp only [List.dropLast_concat] at h
  rcases Bool.eq_false_or_eq_true (Text.isLineBoundary c) with hc | hc
  · refine ⟨b, ?_⟩
    have hline : Text.Unbroken (Entry.line ⟨tag, b⟩) := unbroken_line h
    by_cases hr : c = '\r'
    · subst hr
      exact Or.inl (Text.lineBodies_of_return hline)
    · exact Or.inr (Text.lineBodies_of_boundary hline hc hr)
  · refine ⟨b ++ [c], Or.inl (readLines_of_unbroken ?_)⟩
    exact Text.unbroken_append.2 ⟨h, Text.unbroken_cons.2 ⟨hc, Text.unbroken_nil⟩⟩

/-- Lines that are read can stand in a hunk. -/
theorem held_of_mem_readLines {e : Entry} (h : Text.Unbroken e.body.dropLast) :
    ∀ l ∈ e.readLines, Held l := by
  intro l hl
  obtain ⟨b, hb | hb⟩ := readLines_cases h
  · rw [hb, List.mem_singleton] at hl
    exact Or.inr ⟨_, hl⟩
  · rw [hb, List.mem_cons, List.mem_singleton] at hl
    rcases hl with hl | hl
    · exact Or.inr ⟨_, hl⟩
    · exact Or.inl hl

theorem entries_readLines {e : Entry} (h : Text.Unbroken e.body.dropLast) :
    ∃ b rest, e.readLines.map entryOf = ⟨e.tag, b⟩ :: rest := by
  obtain ⟨b, hb | hb⟩ := readLines_cases h
  · exact ⟨b, [], by rw [hb, List.map_singleton, entryOf_line]⟩
  · exact ⟨b, [⟨.context, []⟩], by rw [hb, List.map_cons, entryOf_line]; rfl⟩

/-- An entry of a line holds at most one boundary, at its end. -/
theorem dropLast_of_mem_lineEntries {cs l : List Char} {tag : Tag} {x : Entry}
    (hl : l ∈ Text.fullLines cs) (hx : x ∈ lineEntries tag l) :
    Text.Unbroken x.body.dropLast := by
  unfold lineEntries at hx
  split at hx
  · rw [List.mem_singleton.1 hx]
    rcases Text.dropLast_of_mem_fullLines hl with h | ⟨b, hb, rfl⟩
    · exact h.of_subset (List.dropLast_subset _)
    · simpa [List.dropLast_append_of_ne_nil] using hb
  · rename_i hlast
    simp only [List.mem_cons, List.not_mem_nil, or_false] at hx
    rcases hx with rfl | rfl
    · rcases Text.dropLast_of_mem_fullLines hl with h | ⟨b, -, rfl⟩
      · exact h
      · exact absurd (by simp) hlast
    · decide

theorem dropLast_of_mem_groupHunk {original updated : List Char} {g : List Edit} {x : Entry}
    (hx : x ∈ (groupHunk (Text.fullLines original) (Text.fullLines updated) g).entries) :
    Text.Unbroken x.body.dropLast := by
  obtain ⟨tag, l, hx, ⟨-, hl⟩ | ⟨-, hl⟩⟩ := exists_line_of_entry hx
  · exact dropLast_of_mem_lineEntries hl hx
  · exact dropLast_of_mem_lineEntries hl hx

/-! ## Hunks -/

/-- The lines that are read where a hunk was written. -/
def rereadLines (a b : List (List Char)) (g : List Edit) : List (List Char) :=
  (groupHunk a b g).entries.flatMap Entry.readLines

/-- The hunk that is read where a hunk was written. -/
def rereadHunk (a b : List (List Char)) (g : List Edit) : Hunk :=
  readHunk (groupHunk a b g) (rereadLines a b g)

theorem le_oldSize_dropSurplus {count : Nat} {es : List Entry} (h : count ≤ oldSize es) :
    count ≤ oldSize (dropSurplus count es) := by
  induction es with
  | nil => exact h
  | cons e es ih =>
    rw [dropSurplus]
    split
    · rename_i hdrop
      rw [Bool.and_eq_true, beq_iff_eq, decide_eq_true_eq] at hdrop
      obtain ⟨rfl, hlt⟩ := hdrop
      refine ih (Nat.le_of_lt_succ ?_)
      simpa [oldSize, Tag.isOld] using hlt
    · exact h

/-- Only empty lines of context are dropped. -/
theorem mem_dropSurplus {count : Nat} {e : Entry} {es : List Entry} (he : e ∈ es)
    (hne : e ≠ ⟨.context, []⟩) : e ∈ dropSurplus count es := by
  induction es with
  | nil => cases he
  | cons d es ih =>
    rw [dropSurplus]
    split
    · rename_i hdrop
      rw [Bool.and_eq_true, beq_iff_eq] at hdrop
      rcases List.mem_cons.1 he with rfl | he
      · exact absurd hdrop.1 hne
      · exact ih he
    · exact he

theorem oldSize_le_flatMap {f : Entry → List Entry} {es : List Entry}
    (h : ∀ e ∈ es, ∃ b rest, f e = ⟨e.tag, b⟩ :: rest) : oldSize es ≤ oldSize (es.flatMap f) := by
  induction es with
  | nil => exact Nat.le_refl _
  | cons e es ih =>
    have hih := ih fun d hd => h d (by simp [hd])
    obtain ⟨b, rest, hf⟩ := h e (by simp)
    unfold oldSize at hih ⊢
    simp only [List.flatMap_cons, hf, List.countP_append, List.countP_cons]
    omega

/-- **A hunk that is read again has a line of a file.** -/
theorem exists_line_of_rereadHunk {a b : List (List Char)} {g : List Edit} (hg : IsGroup a b g)
    (hends : ∀ e ∈ (groupHunk a b g).entries, Text.Unbroken e.body.dropLast) :
    ∃ e ∈ (rereadHunk a b g).entries, e.tag ≠ .marker := by
  have hentries : (rereadLines a b g).map entryOf =
      (groupHunk a b g).entries.flatMap fun e => e.readLines.map entryOf := List.map_flatMap
  have hwhole := groupHunk_whole hg
  obtain ⟨e, he, htag⟩ := hwhole.line
  rcases Bool.eq_false_or_eq_true e.tag.isOld with hold | hold
  · -- what the header has room for is not dropped
    have hroom : (groupHunk a b g).oldCount ≤ oldSize ((rereadLines a b g).map entryOf).reverse := by
      rw [oldSize, List.countP_reverse, ← oldSize, hentries, hwhole.oldCount]
      exact oldSize_le_flatMap fun e he => entries_readLines (hends e he)
    have hpos : 0 < (groupHunk a b g).oldCount := by
      rw [hwhole.oldCount, oldSize, List.countP_pos_iff]
      exact ⟨e, he, hold⟩
    have hkept := Nat.lt_of_lt_of_le hpos (le_oldSize_dropSurplus hroom)
    rw [oldSize, List.countP_pos_iff] at hkept
    obtain ⟨d, hd, hdold⟩ := hkept
    refine ⟨d, List.mem_reverse.2 hd, fun hmarker => ?_⟩
    rw [hmarker] at hdold
    cases hdold
  · -- what is added is never dropped
    obtain ⟨body, rest, hread⟩ := entries_readLines (hends e he)
    refine ⟨⟨e.tag, body⟩, List.mem_reverse.2 (mem_dropSurplus ?_ ?_), htag⟩
    · rw [List.mem_reverse, hentries, List.mem_flatMap]
      exact ⟨e, he, by rw [hread]; simp⟩
    · intro heq
      rw [(Entry.mk.inj heq).1] at hold
      cases hold

/-- Where no entry holds a boundary, a hunk is read as it was made. -/
theorem rereadLines_of_unbroken {a b : List (List Char)} {g : List Edit}
    (h : ∀ e ∈ (groupHunk a b g).entries, Text.Unbroken e.body) :
    rereadLines a b g = (groupHunk a b g).entries.map Entry.line := by
  rw [rereadLines, List.flatMap_congr fun e he => readLines_of_unbroken (h e he)]
  exact List.map_eq_flatMap.symm

/-! ## The lines of the diff -/

/-- The lines that are read of the diff between two files that are not
equal. -/
def rereadDiff (a b : List (List Char)) (path : String) : List (List Char) :=
  fileHeader path ++ hunkLines groupHeader (rereadLines a b) (lineGroups a b)

/-- The notes that are made of it. -/
def rereadNotes (a b : List (List Char)) : List String :=
  (lineGroups a b).flatMap fun g => (readNote (groupHunk a b g) (rereadLines a b g)).toList

/-- The section that is read of the diff between two texts. -/
def reread (original updated : List Char) (path : String) : FilePatch :=
  ⟨some path, some path, (lineGroups (Text.fullLines original) (Text.fullLines updated)).map
    (rereadHunk (Text.fullLines original) (Text.fullLines updated))⟩

variable {original updated : List Char} {path : String}

theorem fullLines_ne (hne : original ≠ updated) :
    Text.fullLines original ≠ Text.fullLines updated := fun heq =>
  hne (by rw [← Text.join_lines original, heq, Text.join_lines])

theorem fileHeader_unbroken (hp : Text.Unbroken path.toList) :
    ∀ l ∈ fileHeader path, Text.Unbroken l := by
  intro l hl
  simp only [fileHeader, List.mem_cons, List.not_mem_nil, or_false] at hl
  rcases hl with rfl | rfl | rfl
  · simp only [String.toList_append, Text.unbroken_append]
    exact ⟨⟨⟨by decide, hp⟩, by decide⟩, hp⟩
  · rw [String.toList_append]
    exact Text.unbroken_append.2 ⟨by decide, hp⟩
  · rw [String.toList_append]
    exact Text.unbroken_append.2 ⟨by decide, hp⟩

theorem groupHeader_unbroken (g : List Edit) : Text.Unbroken (groupHeader g) := by
  have hcount : ∀ n, Text.Unbroken (countText (rangeCount n)) := fun n => by
    unfold rangeCount
    split
    · exact Text.unbroken_nil
    · exact Text.unbroken_cons.2 ⟨by decide, unbroken_toDigits n⟩
  rw [groupHeader_eq [] [], headerText]
  simp only [Text.unbroken_append]
  exact ⟨by decide, unbroken_toDigits _, hcount _, by decide, unbroken_toDigits _, hcount _,
    by decide, Text.unbroken_nil⟩

/-- **The text of the diff is read as these lines.** -/
theorem lineBodies_makeChars (hp : Text.Unbroken path.toList) (hne : original ≠ updated) :
    Text.lineBodies (makeChars original updated path) =
      rereadDiff (Text.fullLines original) (Text.fullLines updated) path := by
  rw [makeChars_eq path (fullLines_ne hne), terminated, Text.lineBodies_fed, diffLines,
    List.flatMap_append, rereadDiff]
  congr 1
  · rw [List.flatMap_congr fun l hl => Text.lineBodies_of_unbroken (fileHeader_unbroken hp l hl)]
    exact List.flatMap_singleton' _
  · rw [List.flatMap_assoc, hunkLines]
    refine List.flatMap_congr fun g _ => ?_
    rw [List.flatMap_cons, Text.lineBodies_of_unbroken (groupHeader_unbroken g), List.flatMap_map]
    rfl

/-! ## The diff as one section -/

/-- The hunk of a group is read from its header and its lines. -/
theorem shown_groupHeader {a b : List (List Char)} {g : List Edit} (hg : IsGroup a b g)
    (ha : Countable a.length) (hb : Countable b.length)
    (hends : ∀ e ∈ (groupHunk a b g).entries, Text.Unbroken e.body.dropLast)
    (hclear : Clear ((rereadLines a b g).map entryOf)) :
    Shown groupHeader (rereadLines a b) (rereadHunk a b)
      (fun g => readNote (groupHunk a b g) (rereadLines a b g)) g := by
  refine ⟨?_, fun after hafter => ?_⟩
  · rw [groupHeader_eq a b]
    exact startsHunk_headerText _
  · refine parseHunk_eq (states_groupHeader (groupHunk_countable hg ha hb)) (fun l hl => ?_)
      hclear (exists_line_of_rereadHunk hg hends) hafter.halts
    obtain ⟨e, he, hl⟩ := List.mem_flatMap.1 hl
    exact held_of_mem_readLines (hends e he) l hl

theorem rereadDiff_eq (a b : List (List Char)) (path : String) :
    rereadDiff a b path = [s!"diff --git a/{path} b/{path}".toList] ++
      ("--- ".toList ++ ("a/".toList ++ path.toList)) ::
      ("+++ ".toList ++ ("b/".toList ++ path.toList)) ::
      (hunkLines groupHeader (rereadLines a b) (lineGroups a b) ++ []) := by
  have hleft : s!"--- a/{path}".toList = "--- ".toList ++ ("a/".toList ++ path.toList) :=
    leftLine_eq (some path)
  have hright : s!"+++ b/{path}".toList = "+++ ".toList ++ ("b/".toList ++ path.toList) :=
    rightLine_eq (some path)
  rw [rereadDiff, fileHeader, hleft, hright, List.append_nil]
  rfl

theorem passed_gitLine (left right : String) :
    Passed s!"diff --git a/{left} b/{right}".toList :=
  passed_of_isExtendedHeader (isExtendedHeader_gitLine left right)

/-- **The diff between two texts is read as one section**, unless two lines
of a hunk look like a file header. -/
theorem parseChars_makeChars (hp : Named path) (hne : original ≠ updated)
    (ho : Countable (Text.fullLines original).length)
    (hu : Countable (Text.fullLines updated).length)
    (hclear : ∀ g ∈ lineGroups (Text.fullLines original) (Text.fullLines updated),
      Clear ((rereadLines (Text.fullLines original) (Text.fullLines updated) g).map entryOf)) :
    parseChars (makeChars original updated path) = .ok ([reread original updated path],
      rereadNotes (Text.fullLines original) (Text.fullLines updated)) := by
  have hgs : lineGroups (Text.fullLines original) (Text.fullLines updated) ≠ [] := fun hnil =>
    fullLines_ne hne ((lineHunks_eq_nil_iff _ _).1 (by rw [lineHunks, hnil, List.map_nil]))
  have hprelude : ∀ l ∈ [s!"diff --git a/{path} b/{path}".toList], Passed l := by
    intro l hl
    rw [List.mem_singleton.1 hl]
    exact passed_gitLine path path
  have hends : Ends ([] : List (List Char)) := fun l hl => by cases hl
  have hread : ∀ fuel, parseSections (fuel + 1 + 1)
      (rereadDiff (Text.fullLines original) (Text.fullLines updated) path) =
        .ok ([reread original updated path],
          rereadNotes (Text.fullLines original) (Text.fullLines updated)) := by
    intro fuel
    have hsection : parseSections (fuel + 1 + [s!"diff --git a/{path} b/{path}".toList].length)
        _ = _ :=
      parseSections_section hprelude hp.left hp.right (Or.inl (by simp)) hp.safe hp.safe hgs
        (fun g hg => shown_groupHeader (isGroup_of_mem hg) ho hu
          (fun e he => dropLast_of_mem_groupHunk he) (hclear g hg)) hends
    rw [List.length_singleton] at hsection
    rw [rereadDiff_eq, hsection]
    cases fuel <;> simp [parseSections, Except.map, reread, rereadNotes]
  obtain ⟨fuel, hfuel⟩ : ∃ n, (rereadDiff (Text.fullLines original) (Text.fullLines updated)
      path).length = n + 1 := ⟨_, by rw [rereadDiff, fileHeader]; rfl⟩
  rw [parseChars]
  simp only [lineBodies_makeChars hp.unbroken hne, hfuel, hread, bind, Except.bind]
  rfl

/-! ## Plain texts -/

/-- The section of the diff between two texts. -/
def madeSection (original updated : List Char) (path : String) : FilePatch :=
  ⟨some path, some path, lineHunks (Text.fullLines original) (Text.fullLines updated)⟩

/-- Two plain texts with numbers of lines that can be read. -/
structure Comparable (original updated : List Char) : Prop where
  plainOriginal : Text.Plain original
  plainUpdated : Text.Plain updated
  originalLines : Countable (Text.fullLines original).length
  updatedLines : Countable (Text.fullLines updated).length

/-- **Applied to the one text, the section yields the other.** -/
theorem applyChars_madeSection (h : Comparable original updated) :
    applyChars original (madeSection original updated path) = .ok updated :=
  applyChars_of_bridges rfl rfl h.plainOriginal h.plainUpdated (lineHunks_bridge _ _)

/-- **And turned around it leads back.** -/
theorem applyChars_madeSection_reverse (h : Comparable original updated) :
    applyChars updated (madeSection original updated path).reverse = .ok original :=
  applyChars_of_bridges rfl rfl h.plainUpdated h.plainOriginal (lineHunks_bridge _ _).flip

/-- The lines of plain texts hold no boundary in the hunks. -/
theorem groupHunk_bodies (h : Comparable original updated) {g : List Edit} :
    ∀ e ∈ (groupHunk (Text.fullLines original) (Text.fullLines updated) g).entries,
      Text.Unbroken e.body := by
  intro e he
  obtain ⟨tag, l, hl, hside⟩ := exists_line_of_entry he
  have hplain : Text.PlainLine l := by
    rcases hside with ⟨-, hmem⟩ | ⟨-, hmem⟩
    · exact (Text.plainLines_fullLines h.plainOriginal).plain l hmem
    · exact (Text.plainLines_fullLines h.plainUpdated).plain l hmem
  rcases hplain with ⟨body, hb, rfl⟩ | ⟨hb, -⟩
  · rw [lineEntries_fed, List.mem_singleton] at hl
    rw [hl]
    exact hb
  · rw [lineEntries_bare tag hb] at hl
    simp only [List.mem_cons, List.not_mem_nil, or_false] at hl
    rcases hl with rfl | rfl
    · exact hb
    · decide

/-- **Between plain texts each hunk is read as it was made**, and without a
note. -/
theorem reread_plain (h : Comparable original updated) :
    reread original updated path = madeSection original updated path ∧
      rereadNotes (Text.fullLines original) (Text.fullLines updated) = [] := by
  have hlines : ∀ g, rereadLines (Text.fullLines original) (Text.fullLines updated) g =
      (groupHunk (Text.fullLines original) (Text.fullLines updated) g).entries.map Entry.line :=
    fun g => rereadLines_of_unbroken (groupHunk_bodies h)
  constructor
  · rw [reread, madeSection, lineHunks]
    congr 1
    refine List.map_congr_left fun g hg => ?_
    rw [rereadHunk, hlines, readHunk_lines (groupHunk_whole (isGroup_of_mem hg))]
  · refine List.flatMap_eq_nil_iff.2 fun g hg => ?_
    rw [hlines, readNote_lines (groupHunk_whole (isGroup_of_mem hg))]
    rfl

/-- **The diff between two plain texts is read back as one section, without a
note**, unless two of its lines look like a file header. -/
theorem parseChars_makeChars_plain (h : Comparable original updated) (hp : Named path)
    (hne : original ≠ updated)
    (hclear : ∀ k ∈ (madeSection original updated path).hunks, Clear k.entries) :
    parseChars (makeChars original updated path) =
      .ok ([madeSection original updated path], []) := by
  obtain ⟨hsection, hnotes⟩ : reread original updated path = _ ∧ _ := reread_plain h
  have hread := parseChars_makeChars hp hne h.originalLines h.updatedLines fun g hg => by
    rw [rereadLines_of_unbroken (groupHunk_bodies h), map_entryOf_line]
    exact hclear _ (List.mem_map_of_mem hg)
  rwa [hsection, hnotes] at hread

/-- Turned around, the section is read back from what is rendered of it. -/
theorem readable_reverse (h : Comparable original updated) (hp : Named path)
    (hne : original ≠ updated) : (madeSection original updated path).reverse.Readable := by
  have hhunks : lineHunks (Text.fullLines original) (Text.fullLines updated) ≠ [] := fun hnil =>
    fullLines_ne hne ((lineHunks_eq_nil_iff _ _).1 hnil)
  have hnamed : ∀ q ∈ some path, Named q := fun q hq => by
    rw [← Option.mem_some.1 hq]
    exact hp
  refine ⟨hnamed, hnamed, Or.inl (by simp [madeSection, FilePatch.reverse]),
    by simpa [madeSection, FilePatch.reverse] using hhunks, fun k hk => ?_⟩
  obtain ⟨made, hmade, rfl⟩ := List.mem_map.1 hk
  obtain ⟨g, hg, rfl⟩ := List.mem_map.1 hmade
  have hgroup := isGroup_of_mem hg
  obtain ⟨old, new, hr, hoc, hnc, -⟩ := groupHunk_rewrites hgroup
  have hcount := groupHunk_countable hgroup h.originalLines h.updatedLines
  refine ⟨⟨hnc.trans hr.flip.oldSize_eq.symm, hoc.trans hr.flip.newSize_eq.symm, ?_⟩,
    clear_flip (groupHunk_settled hgroup),
    ⟨hcount.newStart, hcount.newCount, hcount.oldStart, hcount.oldCount⟩, ?_, Text.unbroken_nil⟩
  · obtain ⟨e, he, htag⟩ := (groupHunk_whole hgroup).line
    refine ⟨e.flip, List.mem_map_of_mem he, ?_⟩
    intro hflip
    exact htag (by rw [← Tag.flip_flip e.tag, show e.tag.flip = .marker from hflip]; rfl)
  · intro e he
    obtain ⟨x, hx, rfl⟩ := List.mem_map.1 he
    exact groupHunk_bodies h x hx

end RepairLoop.Diff

/-!
## Diff — the round trip of a diff between two texts

`make_roundTrip` puts the parts together: the diff between two texts is
empty exactly where they are equal, and between plain texts that differ it
is read back as one section, which leads from the one text to the other and,
turned around, back again. The one thing to be ruled out is a removed line
that opens with two dashes and a blank in front of an added one that opens
with two plus signs and a blank, for together they are a file header.
-/

namespace RepairLoop.Diff

open Sequence (Edit)

/-- A line of a file, as a hunk shows it, is the line up to its line feed. -/
theorem body_front {tag : Tag} {l : List Char} {x : Entry} (h : x ∈ lineEntries tag l)
    (ht : x.tag ≠ .marker) : x.body <+: l := by
  unfold lineEntries at h
  split at h
  · rw [List.mem_singleton.1 h]
    exact List.dropLast_prefix l
  · simp only [List.mem_cons, List.not_mem_nil, or_false] at h
    rcases h with rfl | rfl
    · exact List.prefix_refl _
    · exact absurd rfl ht

/-- **No file header appears where one of its lines cannot be there.** -/
theorem groupHunk_clear {a b : List (List Char)} {g : List Edit}
    (h : (∀ l ∈ a, opens "-- " l = false) ∨ ∀ l ∈ b, opens "++ " l = false) :
    Clear (groupHunk a b g).entries := by
  refine List.Pairwise.isChain (List.Pairwise.imp_of_mem ?_ (List.pairwise_of_forall
    fun _ _ => trivial : (groupHunk a b g).entries.Pairwise fun _ _ => True))
  rintro e f he hf - ⟨hminus, hplus⟩
  obtain ⟨htag, hbody⟩ := removed_of_opens hminus
  obtain ⟨htag', hbody'⟩ := added_of_opens hplus
  -- on the one side no such line is removed, or on the other none is added
  rcases h with h | h
  · obtain ⟨tag, l, hx, hside⟩ := exists_line_of_entry he
    obtain rfl : tag = .removed := by
      rcases tag_of_mem_lineEntries hx with heq | heq
      · exact heq.symm.trans htag
      · rw [htag] at heq
        cases heq
    obtain ⟨-, hl⟩ := hside.resolve_right fun hadd => by cases hadd.1
    have hline := opens_iff.2 ((opens_iff.1 hbody).trans (body_front hx (by rw [htag]; decide)))
    rw [h l hl] at hline
    cases hline
  · obtain ⟨tag, l, hx, hside⟩ := exists_line_of_entry hf
    obtain rfl : tag = .added := by
      rcases tag_of_mem_lineEntries hx with heq | heq
      · exact heq.symm.trans htag'
      · rw [htag'] at heq
        cases heq
    obtain ⟨-, hl⟩ := hside.resolve_left fun hold => hold.1 rfl
    have hline := opens_iff.2 ((opens_iff.1 hbody').trans (body_front hx (by rw [htag']; decide)))
    rw [h l hl] at hline
    cases hline

theorem named_fTxt : Named "f.txt" := by
  refine ⟨by decide, by decide, ?_, by decide⟩
  have h : (checkPath (some "f.txt")).toOption = some () := by decide +kernel
  cases hc : checkPath (some "f.txt") with
  | ok _ => rfl
  | error e =>
    rw [hc] at h
    cases h

/-- **The diff between two texts is empty exactly where they are equal.
Between plain texts it is one section without a note, which applied to the
one yields the other; and its reversal, applied to the other, the one.** The
texts may differ in every line but must not have a line that looks like the
first line of a file header on the one side and one that looks like its
second line on the other. Their lines must be few enough for the numbers in
the headers to be read (`Countable`). -/
theorem make_roundTrip (original updated : String) :
    (make original updated "f.txt" = "" ↔ original = updated) ∧
      (original ≠ updated → Comparable original.toList updated.toList →
        ((∀ l ∈ Text.fullLines original.toList, opens "-- " l = false) ∨
          ∀ l ∈ Text.fullLines updated.toList, opens "++ " l = false) →
        ∃ p back q notes,
          parse (make original updated "f.txt") = .ok ([p], []) ∧
            apply original p = .ok updated ∧
            reverse (make original updated "f.txt") = .ok back ∧
            parse back = .ok ([q], notes) ∧ apply updated q = .ok original) := by
  constructor
  · rw [make, ← String.toList_inj, String.toList_ofList, String.toList_empty,
      makeChars_eq_nil_iff, String.toList_inj]
  · intro hne hcomp hheader
    have hne' : original.toList ≠ updated.toList := fun h => hne (String.toList_inj.1 h)
    have hclear : ∀ k ∈ (madeSection original.toList updated.toList "f.txt").hunks,
        Clear k.entries := by
      intro k hk
      obtain ⟨g, -, rfl⟩ := List.mem_map.1 hk
      exact groupHunk_clear hheader
    have hparse : parse (make original updated "f.txt") =
        .ok ([madeSection original.toList updated.toList "f.txt"], []) := by
      rw [parse, make, String.toList_ofList]
      exact parseChars_makeChars_plain hcomp named_fTxt hne' hclear
    have hback : parseChars
        (renderChars [(madeSection original.toList updated.toList "f.txt").reverse]) =
          .ok ([(madeSection original.toList updated.toList "f.txt").reverse], []) := by
      refine parseChars_render (by simp) fun p hp => ?_
      rw [List.mem_singleton.1 hp]
      exact readable_reverse hcomp named_fTxt hne'
    refine ⟨madeSection original.toList updated.toList "f.txt",
      render [(madeSection original.toList updated.toList "f.txt").reverse],
      (madeSection original.toList updated.toList "f.txt").reverse, [], hparse, ?_, ?_, ?_, ?_⟩
    · rw [apply, applyChars_madeSection hcomp]
      simp [Except.map]
    · rw [reverse, hparse]
      rfl
    · rw [parse, render, String.toList_ofList]
      exact hback
    · rw [apply, applyChars_madeSection_reverse hcomp]
      simp [Except.map]

/-- The line feed at the end is lost, two lines are changed, and the first
starts with two dashes: the diff leads there and back. -/
theorem make_roundTrip_dashes :
    ∃ p back q notes,
      parse (make "-- a\nb\n" "c\n-- a" "f.txt") = .ok ([p], []) ∧
        apply "-- a\nb\n" p = .ok "c\n-- a" ∧
        reverse (make "-- a\nb\n" "c\n-- a" "f.txt") = .ok back ∧
        parse back = .ok ([q], notes) ∧ apply "c\n-- a" q = .ok "-- a\nb\n" :=
  (make_roundTrip "-- a\nb\n" "c\n-- a").2 (by decide)
    ⟨by decide, by decide, countable_of_lt (k := 1) (by decide) (by decide),
      countable_of_lt (k := 1) (by decide) (by decide)⟩
    (Or.inr (by decide))

end RepairLoop.Diff
