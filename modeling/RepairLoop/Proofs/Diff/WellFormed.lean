import RepairLoop.Proofs.Diff.Apply
import RepairLoop.Proofs.Diff.Parsed
/-!
# Diff — a diff that is read is well formed and stays inside the tree

`parse_wellFormed` says what holds of a diff of which nothing is known but that
it was read: it has a section, each section a file and a hunk, each hunk the
counts of its lines, and no path of it leads out of the tree or into the
repository's own directory (`Confined`). Every line of the text that opens a
hunk heads one of the hunks, in order, and a note is made exactly of a hunk whose
counts are not those that its line states (`Heads`).
-/

namespace RepairLoop.Diff

/-! ## Paths -/

/-- The path starts nowhere else than in the tree, climbs nowhere, and its first
component, single dots aside, is not the repository's own directory. -/
structure Confined (q : String) : Prop where
  relative : q.toList.head? ≠ some '/'
  inside : ".." ∉ Path.pieces q
  apart : (Path.components q).head? ≠ some ".git"

theorem isAbsolute_of_slash {q : String} (h : q.toList.head? = some '/') :
    (Path.ofString q).isAbsolute = true := by
  obtain ⟨cs, hcs⟩ : ∃ cs, q.toList = '/' :: cs := by
    cases hq : q.toList with
    | nil => rw [hq] at h; cases h
    | cons c cs => rw [hq] at h; exact ⟨cs, by rw [Option.some.inj h]⟩
  rw [Path.ofString, Path.isAbsolute, hcs, Path.anchorOf.eq_def]
  split <;> simp_all

/-- **A path that is let through stays inside the tree.** -/
theorem confined_of_checkPath {q : String} (h : checkPath (some q) = .ok ()) : Confined q := by
  unfold checkPath at h
  simp only at h
  split at h
  · cases h
  rename_i habs
  split at h
  · cases h
  rename_i hclimb
  split at h
  · cases h
  rename_i hgit
  have hparts : (Path.ofString q).parts = Path.components q := rfl
  rw [hparts] at hclimb hgit
  refine ⟨fun hslash => habs (isAbsolute_of_slash hslash), fun hmem => hclimb ?_,
    by simpa using hgit⟩
  rw [List.contains_iff_mem, Path.components, List.mem_filter]
  exact ⟨hmem, by decide⟩

/-! ## Hunks and sections -/

/-- The hunk has a line of a file, its lines start with what they are, and its
counts are those of its two sides. -/
structure Hunk.WellFormed (h : Hunk) : Prop where
  changes : ∃ l ∈ h.entries.map Entry.line, ∃ c ∈ l.head?, c ∈ [' ', '+', '-']
  tagged : ∀ l ∈ h.entries.map Entry.line, ∃ c ∈ l.head?, c ∈ [' ', '+', '-', '\\']
  oldCount : h.oldCount = h.oldLines.length
  newCount : h.newCount = h.newLines.length

theorem length_newLines (h : Hunk) : h.newLines.length = newSize h.entries := by
  rw [Hunk.newLines, List.length_map, newSize, List.countP_eq_length_filter]

theorem Hunk.Whole.wellFormed {h : Hunk} (hw : h.Whole) : h.WellFormed := by
  refine ⟨?_, fun l hl => ?_, by rw [hw.oldCount, length_oldLines],
    by rw [hw.newCount, length_newLines]⟩
  · obtain ⟨e, he, htag⟩ := hw.line
    refine ⟨e.line, List.mem_map_of_mem he, e.tag.char, e.head?_line, ?_⟩
    cases hc : e.tag with
    | marker => exact absurd hc htag
    | context | removed | added => decide
  · obtain ⟨e, -, rfl⟩ := List.mem_map.1 hl
    refine ⟨e.tag.char, e.head?_line, ?_⟩
    cases e.tag <;> decide

/-- The section has a hunk and a file on one side at least, its hunks are well
formed and its paths confined. -/
structure FilePatch.WellFormed (p : FilePatch) : Prop where
  hunks_ne_nil : p.hunks ≠ []
  file : p.oldPath ≠ none ∨ p.newPath ≠ none
  old : ∀ q ∈ p.oldPath, Confined q
  new : ∀ q ∈ p.newPath, Confined q
  hunks : ∀ h ∈ p.hunks, h.WellFormed

theorem FilePatch.Legible.wellFormed {p : FilePatch} (h : p.Legible) : p.WellFormed :=
  ⟨h.hunks_ne_nil, h.file, fun q hq => confined_of_checkPath (h.old q hq).safe,
    fun q hq => confined_of_checkPath (h.new q hq).safe,
    fun k hk => (h.hunks k hk).whole.wellFormed⟩

/-! ## Counts that are stated -/

/-- The line heads the hunk: it states where the hunk starts and its section, and
some counts. -/
def Opens (line : List Char) (h : Hunk) : Prop :=
  ∃ oldCount newCount, States line { h with oldCount, newCount }

theorem States.opens {line : List Char} {h : Hunk} (hs : States line h) : Opens line h :=
  ⟨h.oldCount, h.newCount, hs⟩

/-- A line states one pair of counts at most. -/
theorem States.unique {line : List Char} {h k : Hunk} (hh : States line h) (hk : States line k) :
    h.oldCount = k.oldCount ∧ h.newCount = k.newCount := by
  obtain ⟨raw, hraw, -, hold, -, hnew, -⟩ := hh
  obtain ⟨raw', hraw', -, hold', -, hnew', -⟩ := hk
  obtain rfl := Option.some.inj (hraw.symm.trans hraw')
  exact ⟨Except.ok.inj (hold.symm.trans hold'), Except.ok.inj (hnew.symm.trans hnew')⟩

/-- The lines head the hunks, and the notes are those of the hunks whose line
states other counts. -/
inductive Heads : List (List Char) → List Hunk → List String → Prop
  | nil : Heads [] [] []
  | stated {line : List Char} {h : Hunk} {ls : List (List Char)} {hs : List Hunk}
      {notes : List String} (hline : States line h) (rest : Heads ls hs notes) :
      Heads (line :: ls) (h :: hs) notes
  | recounted {line : List Char} {h : Hunk} {ls : List (List Char)} {hs : List Hunk}
      {notes : List String} (hline : Opens line h) (hne : ¬ States line h) (note : String)
      (rest : Heads ls hs notes) : Heads (line :: ls) (h :: hs) (note :: notes)

namespace Heads

variable {ls ls' : List (List Char)} {hs hs' : List Hunk} {notes notes' : List String}

theorem append (h : Heads ls hs notes) (h' : Heads ls' hs' notes') :
    Heads (ls ++ ls') (hs ++ hs') (notes ++ notes') := by
  induction h with
  | nil => exact h'
  | stated hline _ ih => exact .stated hline ih
  | recounted hline hne note _ ih => exact .recounted hline hne note ih

theorem opens (h : Heads ls hs notes) : List.Forall₂ Opens ls hs := by
  induction h with
  | nil => exact .nil
  | stated hline _ ih => exact .cons hline.opens ih
  | recounted hline _ _ _ ih => exact .cons hline ih

/-- **There is no note exactly where every line states its hunk.** -/
theorem notes_eq_nil_iff (h : Heads ls hs notes) : notes = [] ↔ List.Forall₂ States ls hs := by
  induction h with
  | nil => exact iff_of_true rfl .nil
  | stated hline _ ih =>
    rw [ih]
    exact ⟨.cons hline, fun hall => (List.forall₂_cons.1 hall).2⟩
  | recounted _ hne _ _ _ =>
    exact iff_of_false (List.cons_ne_nil _ _) fun hall => hne (List.forall₂_cons.1 hall).1

end Heads

/-- No line of a hunk opens another one. -/
theorem Held.not_startsHunk {l : List Char} (h : Held l) : startsHunk l = false := by
  rcases h with rfl | ⟨e, rfl⟩
  · rfl
  · exact startsHunk_line e

/-- The lines that open a hunk. -/
def hunkHeads (ls : List (List Char)) : List (List Char) :=
  ls.filter startsHunk

theorem hunkHeads_cons_of_not {l : List Char} (h : startsHunk l = false) (ls : List (List Char)) :
    hunkHeads (l :: ls) = hunkHeads ls :=
  List.filter_cons_of_neg (by simp [h])

/-- Behind a hunk just as many lines open a hunk as behind its header. -/
theorem hunkHeads_hunkBody (ls : List (List Char)) : hunkHeads (hunkBody ls).2 = hunkHeads ls := by
  obtain ⟨taken, hls, -, hheld, -⟩ := hunkBody_spec ls
  have hnone : hunkHeads taken = [] :=
    List.filter_eq_nil_iff.2 fun l hl => by simp [(hheld l hl).not_startsHunk]
  conv_rhs => rw [hls, hunkHeads, List.filter_append, ← hunkHeads, ← hunkHeads, hnone]
  rfl

/-- **A hunk is headed by its line**, with a note if its counts are others. -/
theorem parseHunk_heads {line : List Char} {ls rest : List (List Char)} {h : Hunk}
    {note : Option String} (hread : parseHunk line ls = .ok (h, note, rest)) :
    Heads [line] [h] note.toList ∧ hunkHeads rest = hunkHeads ls := by
  unfold parseHunk at hread
  split at hread
  · cases hread
  rename_i raw hraw
  obtain ⟨oldStart, hos, hread⟩ := ok_of_bind hread
  obtain ⟨oldCount, hoc, hread⟩ := ok_of_bind hread
  obtain ⟨newStart, hns, hread⟩ := ok_of_bind hread
  obtain ⟨newCount, hnc, hread⟩ := ok_of_bind hread
  simp only at hread
  split at hread
  · simp only [Except.ok.injEq, Prod.mk.injEq] at hread
    obtain ⟨rfl, rfl, rfl⟩ := hread
    refine ⟨?_, hunkHeads_hunkBody ls⟩
    -- the line states what is read of it, whatever the lines behind it count
    have hstates : ∀ es : List Entry,
        States line ⟨oldStart, oldCount, newStart, newCount, es, raw.section_⟩ := fun es =>
      ⟨raw, hraw, hos, hoc, hns, hnc, rfl⟩
    split
    · rename_i hcounts
      rw [Bool.and_eq_true, beq_iff_eq, beq_iff_eq] at hcounts
      rw [hcounts.1, hcounts.2]
      exact .stated (hstates _) .nil
    · rename_i hcounts
      refine .recounted ⟨oldCount, newCount, hstates _⟩ (fun hs => hcounts ?_) _ .nil
      obtain ⟨hold, hnew⟩ := hs.unique (hstates [])
      rw [Bool.and_eq_true, beq_iff_eq, beq_iff_eq]
      exact ⟨hold, hnew⟩
  · cases hread

theorem parseHunks_heads {fuel : Nat} {ls rest : List (List Char)} {hs : List Hunk}
    {notes : List String} (hread : parseHunks fuel ls = .ok (hs, notes, rest)) :
    ∃ heads, Heads heads hs notes ∧ hunkHeads ls = heads ++ hunkHeads rest := by
  induction fuel generalizing ls hs notes with
  | zero =>
    simp only [parseHunks, Except.ok.injEq, Prod.mk.injEq] at hread
    obtain ⟨rfl, rfl, rfl⟩ := hread
    exact ⟨[], .nil, rfl⟩
  | succ fuel ih =>
    cases ls with
    | nil =>
      simp only [parseHunks, Except.ok.injEq, Prod.mk.injEq] at hread
      obtain ⟨rfl, rfl, rfl⟩ := hread
      exact ⟨[], .nil, rfl⟩
    | cons line ls =>
      rw [parseHunks] at hread
      split at hread
      · rename_i hhunk
        obtain ⟨⟨h, note, after⟩, hone, hread⟩ := ok_of_bind hread
        obtain ⟨⟨hs', notes', rest'⟩, hmore, hread⟩ := ok_of_bind hread
        simp only [Except.ok.injEq, Prod.mk.injEq] at hread
        obtain ⟨rfl, rfl, rfl⟩ := hread
        obtain ⟨hheads, hbehind⟩ := parseHunk_heads hone
        obtain ⟨heads, hall, hlines⟩ := ih hmore
        refine ⟨line :: heads, hheads.append hall, ?_⟩
        rw [hunkHeads, List.filter_cons_of_pos hhunk, ← hunkHeads, ← hbehind, hlines]
        rfl
      · simp only [Except.ok.injEq, Prod.mk.injEq] at hread
        obtain ⟨rfl, rfl, rfl⟩ := hread
        exact ⟨[], .nil, rfl⟩

/-- Neither line of a file header opens a hunk. -/
theorem hunkHeads_of_startsFile {a b : List Char} {ls : List (List Char)}
    (h : startsFile (a :: b :: ls) = true) : hunkHeads (a :: b :: ls) = hunkHeads ls := by
  rw [startsFile, Bool.and_eq_true] at h
  obtain ⟨rest, hrest⟩ := opens_iff.1 h.1
  obtain ⟨rest', hrest'⟩ := opens_iff.1 h.2
  rw [hunkHeads_cons_of_not, hunkHeads_cons_of_not]
  · exact opens_eq_false (c := '@') rfl (by rw [← hrest']; simp)
  · exact opens_eq_false (c := '@') rfl (by rw [← hrest]; simp)

/-- **Every line that opens a hunk heads one**, in a text that is read. -/
theorem parseSections_heads {fuel : Nat} {ls : List (List Char)} {files : List FilePatch}
    {notes : List String} (hls : ∀ l ∈ ls, Text.Unbroken l) (hfuel : ls.length < fuel)
    (hread : parseSections fuel ls = .ok (files, notes)) :
    Heads (hunkHeads ls) (files.flatMap (·.hunks)) notes := by
  induction fuel generalizing ls files notes with
  | zero => omega
  | succ fuel ih =>
    cases ls with
    | nil =>
      simp only [parseSections, Except.ok.injEq, Prod.mk.injEq] at hread
      obtain ⟨rfl, rfl⟩ := hread
      exact .nil
    | cons line ls =>
      rw [parseSections] at hread
      simp only at hread
      split at hread
      · rename_i hfile
        cases ls with
        | nil => cases hfile
        | cons second ls =>
          split at hread
          · cases hread
          obtain ⟨_, -, hread⟩ := ok_of_bind hread
          obtain ⟨_, -, hread⟩ := ok_of_bind hread
          obtain ⟨⟨hs, hnotes, after⟩, hhunks, hread⟩ := ok_of_bind hread
          simp only at hread
          split at hread
          · cases hread
          obtain ⟨⟨more, moreNotes⟩, hmore, hread⟩ := ok_of_bind hread
          simp only [Except.ok.injEq, Prod.mk.injEq] at hread
          obtain ⟨rfl, rfl⟩ := hread
          rw [List.tail_cons] at hhunks
          obtain ⟨heads, hheads, hlines⟩ := parseHunks_heads hhunks
          obtain ⟨-, -, hsuffix⟩ := parseHunks_legible (fun l hl => hls l (by simp [hl])) hhunks
          have hafter : after.length ≤ ls.length := hsuffix.length_le
          simp only [List.length_cons] at hfuel
          rw [hunkHeads_of_startsFile hfile, hlines]
          exact hheads.append
            (ih (fun l hl => hls l (by simp [hsuffix.subset hl])) (by omega) hmore)
      · split at hread
        · cases hread
        · rename_i hhunk
          rw [hunkHeads_cons_of_not (by simpa using hhunk)]
          rw [List.length_cons] at hfuel
          exact ih (fun l hl => hls l (by simp [hl])) (by omega) hread

/-- **Every diff that is read is well formed and confined.** It has a section, and
each is well formed. The lines of the text that open a hunk head the hunks of the
sections, in order, and there is no note exactly where each of them states the
counts of its hunk. -/
theorem parse_wellFormed {text : String} {files : List FilePatch} {notes : List String}
    (h : parse text = .ok (files, notes)) :
    files ≠ [] ∧ (∀ p ∈ files, p.WellFormed) ∧
      List.Forall₂ Opens (hunkHeads (Text.lineBodies text.toList)) (files.flatMap (·.hunks)) ∧
      (notes = [] ↔
        List.Forall₂ States (hunkHeads (Text.lineBodies text.toList))
          (files.flatMap (·.hunks))) := by
  obtain ⟨hread, hne⟩ := parseSections_of_parseChars h
  have hheads := parseSections_heads (fun _ hl => Text.unbroken_of_mem_lineBodies hl)
    (Nat.lt_succ_self _) hread
  exact ⟨hne, fun p hp => ((parseChars_legible h).1 p hp).wellFormed, hheads.opens,
    hheads.notes_eq_nil_iff⟩

/-- A file that is removed and another that is changed, where the second hunk
states a count that is not that of its lines. -/
def miscounted : String :=
  "--- a/./x/f.txt\n+++ /dev/null\n@@ -1 +0,0 @@\n-a\n" ++
    "--- a/g\n+++ b/g\n@@ -1,2 +1 @@\n-b\n+c\n"

theorem parse_wellFormed_miscounted :
    ∃ files notes, parse miscounted = .ok (files, notes) ∧ files ≠ [] ∧
      (∀ p ∈ files, p.WellFormed) ∧
      ¬ List.Forall₂ States (hunkHeads (Text.lineBodies miscounted.toList))
        (files.flatMap (·.hunks)) := by
  have hread : parse miscounted = .ok ([⟨some "./x/f.txt", none,
      [⟨1, 1, 0, 0, [⟨.removed, ['a']⟩], []⟩]⟩, ⟨some "g", some "g",
      [⟨1, 1, 1, 1, [⟨.removed, ['b']⟩, ⟨.added, ['c']⟩], []⟩]⟩],
      ["hunk -1,2 +1,1 recounted as -1,1 +1,1"]) := by decide +kernel
  obtain ⟨hne, hwell, -, hnotes⟩ := parse_wellFormed hread
  exact ⟨_, _, hread, hne, hwell, fun hall => List.cons_ne_nil _ _ (hnotes.2 hall)⟩

end RepairLoop.Diff
