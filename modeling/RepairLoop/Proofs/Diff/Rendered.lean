import RepairLoop.Diff.Extract
import RepairLoop.Proofs.Diff.Parser
/-!
# Diff — what is rendered is read back

A readable section is rendered as lines of which the section is read again. This
holds of sections in a row (`parseSections_render`), of their text
(`parseChars_render`), and of sections that other lines trail behind: empty lines
look like context to the last hunk, and are dropped since its counts are right;
what follows them holds no header and opens no hunk, so it is passed over
(`Trails`).
-/

namespace RepairLoop.Diff

/-! ## Rendered sections -/

/-- A path that a file header can name. -/
structure Named (q : String) : Prop where
  left : headerPath ("a/".toList ++ q.toList) = some q
  right : headerPath ("b/".toList ++ q.toList) = some q
  safe : checkPath (some q) = .ok ()
  unbroken : Text.Unbroken q.toList

/-- A hunk that is read back from what is rendered of it. -/
structure Hunk.Readable (h : Hunk) : Prop where
  whole : h.Whole
  clear : Clear h.entries
  countable : h.Countable
  bodies : ∀ e ∈ h.entries, Text.Unbroken e.body
  section_ : Text.Unbroken h.section_

/-- A section that is read back from what is rendered of it. -/
structure FilePatch.Readable (p : FilePatch) : Prop where
  old : ∀ q ∈ p.oldPath, Named q
  new : ∀ q ∈ p.newPath, Named q
  file : p.oldPath ≠ none ∨ p.newPath ≠ none
  hunks_ne_nil : p.hunks ≠ []
  hunks : ∀ h ∈ p.hunks, h.Readable

theorem startsHunk_header (h : Hunk) : startsHunk h.header = true := by
  rw [header_eq]
  exact startsHunk_headerText _

/-- **A rendered hunk is read back, without the empty lines behind it.** -/
theorem Hunk.Readable.read {h : Hunk} (hr : h.Readable) (k : Nat) {rest : List (List Char)}
    (hrest : Halts rest) :
    parseHunk h.header (h.entries.map Entry.line ++ (List.replicate k [] ++ rest)) =
      .ok (h, none, rest) := by
  have hls : ∀ l ∈ h.entries.map Entry.line ++ List.replicate k [], Held l := fun l hl => by
    rcases List.mem_append.1 hl with hl | hl
    · obtain ⟨e, -, rfl⟩ := List.mem_map.1 hl
      exact Or.inr ⟨e, rfl⟩
    · exact Or.inl (List.eq_of_mem_replicate hl)
  have hclear : Clear ((h.entries.map Entry.line ++ List.replicate k []).map entryOf) := by
    rw [List.map_append, map_entryOf_line, map_entryOf_blanks]
    exact hr.clear.blanks k
  have hread := parseHunk_eq (states_header hr.countable) hls hclear
    (by rw [readHunk_blanks hr.whole]; exact hr.whole.line) hrest
  rwa [readHunk_blanks hr.whole, readNote_blanks hr.whole, List.append_assoc] at hread

theorem Hunk.Readable.shown {h : Hunk} (hr : h.Readable) :
    Shown Hunk.header (·.entries.map Entry.line) id (fun _ => none) h :=
  ⟨startsHunk_header h, fun _ hafter => hr.read 0 hafter.halts⟩

/-- The path behind a line that opens a side of a file header. -/
def sideText (mark : String) : Option String → List Char
  | some q => mark.toList ++ q.toList
  | none => "/dev/null".toList

/-- The lines in front of the file header of a section. -/
def prelude (p : FilePatch) : List (List Char) :=
  let left := (p.oldPath.orElse fun _ => p.newPath).getD "None"
  let right := (p.newPath.orElse fun _ => p.oldPath).getD "None"
  [s!"diff --git a/{left} b/{right}".toList]
    ++ (if p.isNew then ["new file mode 100644".toList] else [])
    ++ (if p.isDeleted then ["deleted file mode 100644".toList] else [])

theorem leftLine_eq (o : Option String) :
    (match o with
      | some q => s!"--- a/{q}".toList
      | none => "--- /dev/null".toList) = "--- ".toList ++ sideText "a/" o := by
  cases o with
  | none => rfl
  | some q =>
    simp only
    rw [String.toList_append]
    rfl

theorem rightLine_eq (o : Option String) :
    (match o with
      | some q => s!"+++ b/{q}".toList
      | none => "+++ /dev/null".toList) = "+++ ".toList ++ sideText "b/" o := by
  cases o with
  | none => rfl
  | some q =>
    simp only
    rw [String.toList_append]
    rfl

theorem sectionLines_eq (p : FilePatch) :
    sectionLines p = prelude p ++ ("--- ".toList ++ sideText "a/" p.oldPath) ::
      ("+++ ".toList ++ sideText "b/" p.newPath) ::
        hunkLines Hunk.header (·.entries.map Entry.line) p.hunks := by
  rw [← leftLine_eq, ← rightLine_eq, sectionLines, prelude]
  simp only [List.append_assoc, List.cons_append, List.nil_append]
  rfl

theorem gitLine_eq (left right : String) :
    s!"diff --git a/{left} b/{right}".toList =
      "diff --git ".toList ++ ("a/".toList ++ left.toList ++ " b/".toList ++ right.toList) := by
  simp only [String.toList_append, List.append_assoc]
  rfl

theorem headerPath_sideText {mark : String} {o : Option String}
    (h : ∀ q ∈ o, headerPath (mark.toList ++ q.toList) = some q) :
    headerPath (sideText mark o) = o := by
  cases o with
  | none =>
    change headerPath "/dev/null".toList = none
    decide
  | some q => exact h q rfl

theorem checkPath_eq_ok {o : Option String} (h : ∀ q ∈ o, Named q) : checkPath o = .ok () := by
  cases o with
  | none => rfl
  | some q => exact (h q rfl).safe

/-- A line that may stand in front of a file header is passed over. -/
theorem passed_of_isExtendedHeader {l : List Char} (h : isExtendedHeader l = true) :
    Passed l := by
  obtain ⟨start, hstart, hopens⟩ := List.any_eq_true.1 h
  obtain ⟨rest, rfl⟩ := opens_iff.1 hopens
  have hhead : ∀ s ∈ extendedHeaders,
      s.toList ≠ [] ∧ s.toList.head? ≠ some '-' ∧ s.toList.head? ≠ some '@' := by decide
  obtain ⟨hne, hminus, hat⟩ := hhead start hstart
  have hfirst : (start.toList ++ rest).head? = start.toList.head? :=
    List.head?_append_of_ne_nil _ hne
  exact ⟨opens_eq_false (c := '-') rfl (hfirst ▸ hminus),
    opens_eq_false (c := '@') rfl (hfirst ▸ hat)⟩

theorem isExtendedHeader_gitLine (left right : String) :
    isExtendedHeader s!"diff --git a/{left} b/{right}".toList = true := by
  rw [gitLine_eq]
  exact List.any_eq_true.2 ⟨"diff --git ", by decide, opens_append _ _⟩

/-- The lines in front of a file header say which file it is and, where it comes
or goes, that it does. -/
theorem mem_prelude {p : FilePatch} {l : List Char} (h : l ∈ prelude p) :
    let left := (p.oldPath.orElse fun _ => p.newPath).getD "None"
    let right := (p.newPath.orElse fun _ => p.oldPath).getD "None"
    l = s!"diff --git a/{left} b/{right}".toList ∨
      l = "new file mode 100644".toList ∨ l = "deleted file mode 100644".toList := by
  simp only [prelude, List.mem_append, List.mem_singleton] at h
  rcases h with (rfl | h) | h
  · exact Or.inl rfl
  · split at h
    · exact Or.inr (Or.inl (List.mem_singleton.1 h))
    · cases h
  · split at h
    · exact Or.inr (Or.inr (List.mem_singleton.1 h))
    · cases h

theorem isExtendedHeader_prelude (p : FilePatch) :
    ∀ l ∈ prelude p, isExtendedHeader l = true := by
  intro l hl
  rcases mem_prelude hl with rfl | rfl | rfl
  · exact isExtendedHeader_gitLine _ _
  · decide
  · decide

theorem passed_prelude (p : FilePatch) : ∀ l ∈ prelude p, Passed l :=
  fun l hl => passed_of_isExtendedHeader (isExtendedHeader_prelude p l hl)

/-- Sections go on with the first line of one. -/
theorem ends_sections {files : List FilePatch} (hne : files ≠ []) (tail : List (List Char)) :
    Ends (files.flatMap sectionLines ++ tail) := by
  obtain ⟨p, files, rfl⟩ := List.exists_cons_of_ne_nil hne
  intro l hl
  rw [List.flatMap_cons, sectionLines_eq, prelude] at hl
  simp only [List.cons_append, List.head?_cons, Option.mem_some_iff] at hl
  rw [← hl, gitLine_eq]
  exact opens_append _ _

/-! ## What trails behind sections -/

/-- No two lines in a row look like a file header. -/
def Headless (ls : List (List Char)) : Prop :=
  ls.IsChain fun l m => ¬ (opens "--- " l = true ∧ opens "+++ " m = true)

instance (ls : List (List Char)) : Decidable (Headless ls) :=
  inferInstanceAs (Decidable (ls.IsChain _))

/-- What trails behind sections without being taken for a part of them: empty
lines and then, if anything, a line that starts as no line of a hunk does; and
neither a line that opens a hunk nor a file header. -/
structure Trails (ls : List (List Char)) : Prop where
  first : ∀ l ∈ ls.find? (· ≠ []), ∀ c ∈ l.head?, c ∉ [' ', '+', '-', '\\', '@']
  hunks : ∀ l ∈ ls, startsHunk l = false
  headers : Headless ls

theorem trails_nil : Trails [] :=
  ⟨by simp, by simp, .nil⟩

/-- What trails are empty lines and lines that end a hunk. -/
theorem Trails.split {ls : List (List Char)} (h : Trails ls) :
    ∃ k rest, ls = List.replicate k [] ++ rest ∧ Halts rest := by
  obtain ⟨hfirst, -, -⟩ := h
  induction ls with
  | nil => exact ⟨0, [], rfl, by simp [Halts]⟩
  | cons l ls ih =>
    cases l with
    | nil =>
      obtain ⟨k, rest, rfl, hrest⟩ := ih (by simpa using hfirst)
      exact ⟨k + 1, rest, rfl, hrest⟩
    | cons c cs =>
      refine ⟨0, (c :: cs) :: ls, rfl, fun l hl => ⟨c, ?_, ?_⟩⟩
      · rw [← Option.some.inj hl]
        rfl
      · have hc := hfirst (c :: cs) (by simp) c rfl
        simp only [List.mem_cons, List.not_mem_nil, or_false, not_or] at hc
        simp [Tag.ofChar?, hc]

theorem not_startsFile_of_headless {l : List Char} {ls : List (List Char)}
    (h : Headless (l :: ls)) : startsFile (l :: ls) = false :=
  startsFile_eq_false (List.isChain_cons.1 h).1

/-- Lines without a header that open no hunk are passed over. -/
theorem parseSections_headless {ls : List (List Char)} (hls : Headless ls)
    (hhunks : ∀ l ∈ ls, startsHunk l = false) (fuel : Nat) :
    parseSections fuel ls = .ok ([], []) := by
  induction fuel generalizing ls with
  | zero => rfl
  | succ fuel ih =>
    cases ls with
    | nil => rfl
    | cons l ls =>
      rw [parseSections]
      simp only [not_startsFile_of_headless hls, hhunks l (by simp), Bool.false_eq_true, if_false]
      exact ih (List.isChain_cons.1 hls).2 fun m hm => hhunks m (by simp [hm])

/-- **Rendered sections are read back, without a note**, whatever trails behind
them. -/
theorem parseSections_trailed {files : List FilePatch} {tail : List (List Char)} {fuel : Nat}
    (h : ∀ p ∈ files, p.Readable) (ht : Trails tail)
    (hfuel : (files.flatMap sectionLines).length ≤ fuel) :
    parseSections fuel (files.flatMap sectionLines ++ tail) = .ok (files, []) := by
  induction files generalizing fuel with
  | nil => exact parseSections_headless ht.headers ht.hunks fuel
  | cons p files ih =>
    obtain ⟨hold, hnew, hfile, hne, hhunks⟩ := h p (by simp)
    have hroom : (files.flatMap sectionLines).length + 1 + (prelude p).length ≤ fuel := by
      rw [List.flatMap_cons, List.length_append, sectionLines_eq, List.length_append,
        List.length_cons] at hfuel
      generalize (prelude p).length = k at hfuel ⊢
      omega
    -- the fuel that the section does not need goes to what is behind it
    obtain ⟨more, rfl⟩ := Nat.exists_eq_add_of_le' hroom
    rw [← Nat.add_assoc, ← Nat.add_assoc]
    have hih := ih (fun q hq => h q (by simp [hq]))
      (Nat.le_add_left (files.flatMap sectionLines).length more)
    have hleft := headerPath_sideText fun q hq => (hold q hq).left
    have hright := headerPath_sideText fun q hq => (hnew q hq).right
    rw [List.flatMap_cons, sectionLines_eq, List.append_assoc, List.append_assoc,
      List.cons_append, List.cons_append]
    rcases eq_or_ne files [] with rfl | hmore
    · -- the last hunk takes the empty lines, and leaves what is behind them
      obtain ⟨k, rest, hsplit, hhalts⟩ := ht.split
      have hsub : ∀ l ∈ rest, startsHunk l = false := fun l hl =>
        ht.hunks l (by rw [hsplit]; simp [hl])
      have hheadless : Headless rest := by
        have hall := ht.headers
        rw [hsplit] at hall
        exact hall.right_of_append
      have hlast : ∀ k' ∈ p.hunks, parseHunk k'.header (k'.entries.map Entry.line ++ tail) =
          .ok (id k', none, rest) := fun k' hk' => by
        rw [hsplit]
        exact (hhunks k' hk').read k hhalts
      rw [List.flatMap_nil, List.nil_append, parseSections_section_of_last (passed_prelude p)
        hleft hright hfile (checkPath_eq_ok hold) (checkPath_eq_ok hnew) hne
        (fun k hk => (hhunks k hk).shown) hlast fun l hl => hsub l (List.mem_of_mem_head? hl),
        parseSections_headless hheadless hsub]
      simp [Except.map]
    · rw [parseSections_section (passed_prelude p) hleft hright hfile (checkPath_eq_ok hold)
        (checkPath_eq_ok hnew) hne (fun k hk => (hhunks k hk).shown) (ends_sections hmore tail),
        hih]
      simp [Except.map]

theorem parseSections_render {files : List FilePatch} {fuel : Nat}
    (h : ∀ p ∈ files, p.Readable) (hfuel : (files.flatMap sectionLines).length ≤ fuel) :
    parseSections fuel (files.flatMap sectionLines) = .ok (files, []) := by
  simpa using parseSections_trailed h trails_nil hfuel

/-! ## Rendered text -/

theorem unbroken_toDigits (n : Nat) : Text.Unbroken (Nat.toDigits 10 n) := by
  intro c hc
  have hdigit := Char.isDigit_iff_toNat.1 (Nat.isDigit_of_mem_toDigits (by decide) (by decide) hc)
  have hlo : 48 ≤ c.toNat := hdigit.1
  have hhi : c.toNat ≤ 57 := hdigit.2
  simp only [Text.isLineBoundary, Bool.or_eq_false_iff, Bool.and_eq_false_iff,
    decide_eq_false_iff_not, beq_eq_false_iff_ne]
  omega

theorem Hunk.Readable.unbroken_header {h : Hunk} (hr : h.Readable) : Text.Unbroken h.header := by
  have hcount : ∀ n, Text.Unbroken (countText (some (Nat.toDigits 10 n))) := fun n =>
    Text.unbroken_cons.2 ⟨by decide, unbroken_toDigits n⟩
  rw [header_eq, headerText]
  simp only [Text.unbroken_append]
  exact ⟨by decide, unbroken_toDigits _, hcount _, by decide, unbroken_toDigits _, hcount _,
    by decide, hr.section_⟩

theorem unbroken_line {e : Entry} (h : Text.Unbroken e.body) : Text.Unbroken e.line := by
  refine Text.unbroken_cons.2 ⟨?_, h⟩
  cases e.tag <;> decide

theorem unbroken_sideText {mark : String} (hm : Text.Unbroken mark.toList) {o : Option String}
    (h : ∀ q ∈ o, Named q) : Text.Unbroken (sideText mark o) := by
  cases o with
  | none =>
    change Text.Unbroken "/dev/null".toList
    decide
  | some q => exact Text.unbroken_append.2 ⟨hm, (h q rfl).unbroken⟩

/-- No line of a readable section is broken. -/
theorem FilePatch.Readable.unbroken {p : FilePatch} (hr : p.Readable) :
    ∀ l ∈ sectionLines p, Text.Unbroken l := by
  have hname : ∀ o o' : Option String, (∀ q ∈ o, Named q) → (∀ q ∈ o', Named q) →
      Text.Unbroken ((o.orElse fun _ => o').getD "None").toList := by
    intro o o' ho ho'
    cases o with
    | some q => exact (ho q rfl).unbroken
    | none =>
      cases o' with
      | some q => exact (ho' q rfl).unbroken
      | none => decide
  intro l hl
  rw [sectionLines_eq, List.mem_append, List.mem_cons, List.mem_cons] at hl
  rcases hl with hl | rfl | rfl | hl
  · rcases mem_prelude hl with rfl | rfl | rfl
    · rw [gitLine_eq]
      simp only [Text.unbroken_append]
      exact ⟨by decide, ⟨⟨by decide, hname _ _ hr.old hr.new⟩, by decide⟩,
        hname _ _ hr.new hr.old⟩
    · decide
    · decide
  · exact Text.unbroken_append.2 ⟨by decide, unbroken_sideText (by decide) hr.old⟩
  · exact Text.unbroken_append.2 ⟨by decide, unbroken_sideText (by decide) hr.new⟩
  · simp only [hunkLines, List.mem_flatMap, List.mem_cons, List.mem_map] at hl
    obtain ⟨h, hh, hl | ⟨e, he, hl⟩⟩ := hl
    · rw [hl]
      exact (hr.hunks h hh).unbroken_header
    · rw [← hl]
      exact unbroken_line ((hr.hunks h hh).bodies e he)

/-- Unbroken lines that are put together are cut apart again, and what follows them
is cut on its own. -/
theorem lineBodies_terminated {ls : List (List Char)} (h : ∀ l ∈ ls, Text.Unbroken l)
    (cs : List Char) : Text.lineBodies (terminated ls ++ cs) = ls ++ Text.lineBodies cs := by
  induction ls with
  | nil => rfl
  | cons l ls ih =>
    have hcons : terminated (l :: ls) ++ cs = l ++ '\n' :: (terminated ls ++ cs) := by
      simp [terminated]
    have hrest := ih fun m hm => h m (by simp [hm])
    rw [hcons, Text.lineBodies, Text.lines_append_feed (h l (by simp)), List.map_cons,
      ← Text.lineBodies, hrest]
    rfl

/-- No line of readable sections is broken. -/
theorem unbroken_sections {files : List FilePatch} (h : ∀ p ∈ files, p.Readable) :
    ∀ l ∈ files.flatMap sectionLines, Text.Unbroken l := by
  intro l hl
  obtain ⟨p, hp, hl⟩ := List.mem_flatMap.1 hl
  exact (h p hp).unbroken l hl

/-- **Readable sections are read back from what is rendered of them.** -/
theorem parseChars_render {files : List FilePatch} (hne : files ≠ [])
    (h : ∀ p ∈ files, p.Readable) : parseChars (renderChars files) = .ok (files, []) := by
  have hlines : Text.lineBodies (renderChars files) = files.flatMap sectionLines := by
    have hcut := lineBodies_terminated (unbroken_sections h) []
    rw [List.append_nil] at hcut
    exact hcut.trans (List.append_nil _)
  have hempty : ¬ files.isEmpty = true := by simpa using hne
  rw [parseChars]
  simp only [hlines, parseSections_render h (Nat.le_succ _), bind, Except.bind, if_neg hempty]

end RepairLoop.Diff
