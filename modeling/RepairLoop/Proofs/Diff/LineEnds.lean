import RepairLoop.Proofs.Diff.Parsed
import RepairLoop.Proofs.Diff.Rewrites
import RepairLoop.Proofs.Text.Character
import RepairLoop.Proofs.Text.Lines
/-!
# Diff — line ends do not matter to a section

A plain text and the same text with carriage returns have the same lines up to
their boundaries. Lines are compared without these, so hunks are found at the
same places (`locate_withReturns`), and what is written there has the line end
of the file (`runEntries_withReturns`, `closeLines_withReturns`). So applying a
section commutes with putting in the carriage returns (`apply_returned`).
-/

/-!
## Diff — a plain text stays plain

A section that was read writes lines without a boundary in them and ends
them with the line end of the file. Applied to a plain text it therefore
yields a plain text (`applyChars_plain`), wherever its hunks are found.
-/

namespace RepairLoop.Diff

open Text (Plain plain_append)

theorem plain_flatten {ls : List (List Char)} : Plain ls.flatten ↔ ∀ l ∈ ls, Plain l := by
  induction ls with
  | nil => simp [Plain]
  | cons l ls ih => simp [plain_append, ih]

theorem closeLines_plain {newline : List Char} {ls : List (List Char)} (hn : Plain newline)
    (h : ∀ l ∈ ls, Plain l) : ∀ l ∈ closeLines newline ls, Plain l := by
  induction ls with
  | nil => simp [closeLines]
  | cons l ls ih =>
    have hls := ih fun m hm => h m (by simp [hm])
    rcases eq_or_ne ls [] with rfl | hne
    · exact h
    · rw [closeLines_cons hne]
      intro m hm
      rcases List.mem_cons.1 hm with rfl | hm
      · split
        · exact h l (by simp)
        · exact plain_append.2 ⟨h l (by simp), hn⟩
      · exact hls m hm

theorem content_plain {e : Entry} (h : Text.Unbroken e.body) : Plain e.content :=
  (h.of_subset (Text.dropTrailing_front _ _).subset).plain

/-- What a hunk writes is copied from the file or added by it. -/
theorem runEntries_plain {newline : List Char} {es : List Entry} {lines : List (List Char)}
    (hn : Plain newline) (hes : ∀ e ∈ es, Text.Unbroken e.body) (h : ∀ l ∈ lines, Plain l) :
    ∀ l ∈ (runEntries newline es lines).1, Plain l := by
  induction es generalizing lines with
  | nil => simp [runEntries]
  | cons e es ih =>
    have hes' : ∀ e ∈ es, Text.Unbroken e.body := fun x hx => hes x (by simp [hx])
    have htail : ∀ l ∈ lines.tail, Plain l := fun l hl => h l (List.mem_of_mem_tail hl)
    rw [runEntries.eq_def]
    simp only
    split
    · intro l hl
      rcases List.mem_cons.1 hl with rfl | hl
      · cases lines with
        | nil => simp [Plain]
        | cons l ls => exact h l (by simp)
      · exact ih hes' htail l hl
    · exact ih hes' htail
    · intro l hl
      have hcontent := content_plain (hes e (by simp))
      have hline : ∀ bare : Bool, Plain (if bare then e.content else e.content ++ newline) := by
        rintro (_ | _)
        · exact plain_append.2 ⟨hcontent, hn⟩
        · exact hcontent
      simp only [List.mem_cons] at hl
      rcases hl with hl | hl
      · rw [hl]
        exact hline _
      · exact ih hes' h l hl
    · exact ih hes' h

theorem runHunks_plain {path : String} {newline : List Char} {lines out : List (List Char)}
    {hs : List Hunk} {n cursor : Nat} (hn : Plain newline) (h : ∀ l ∈ lines, Plain l)
    (hhs : ∀ k ∈ hs, ∀ e ∈ k.entries, Text.Unbroken e.body)
    (hrun : runHunks path newline lines n cursor hs = .ok out) : ∀ l ∈ out, Plain l := by
  induction hs generalizing n cursor out with
  | nil =>
    rw [runHunks] at hrun
    rw [← Except.ok.inj hrun]
    exact fun l hl => h l (List.mem_of_mem_drop hl)
  | cons k hs ih =>
    rw [runHunks] at hrun
    simp only at hrun
    split at hrun
    · cases hrun
    split at hrun
    · cases hrun
    rename_i hafter
    rw [← Except.ok.inj hrun]
    intro l hl
    rcases List.mem_append.1 hl with hl | hl
    · rcases List.mem_append.1 hl with hl | hl
      · exact h l (List.mem_of_mem_drop (List.mem_of_mem_take hl))
      · exact runEntries_plain hn (hhs k (by simp))
          (fun m hm => h m (List.mem_of_mem_drop hm)) l hl
    · exact ih (fun m hm => hhs m (by simp [hm])) hafter l hl

/-- **Applied to a plain text, a section that was read yields a plain text.** -/
theorem applyChars_plain {original t : List Char} {p : FilePatch} (ho : Plain original)
    (hp : p.Legible) (h : applyChars original p = .ok t) : Plain t := by
  have hsource : Plain (if p.isNew = true then [] else original) := by
    split
    · simp [Plain]
    · exact ho
  unfold applyChars at h
  simp only at h
  generalize (if p.isNew = true then [] else original) = source at hsource h
  have hlines := (Text.plainLines_fullLines hsource).plain
  rw [newlineOf_plain hlines] at h
  split at h
  · cases h
  rename_i out hout
  have hfeed : Plain ['\n'] := by decide
  have hplain : ∀ l ∈ Text.fullLines source, Plain l := by
    rw [← plain_flatten, Text.join_lines]
    exact hsource
  have hall := runHunks_plain hfeed hplain (fun k hk => (hp.hunks k hk).bodies) hout
  rw [← Except.ok.inj h]
  split
  · simp [Plain]
  · exact plain_flatten.2 (closeLines_plain hfeed hall)

end RepairLoop.Diff

/-!
## Text — the same lines with carriage returns

`withReturns` puts a carriage return in front of every line feed. In a plain
text the two are one line boundary then, so the text is cut where it was cut
before and every line gets its own carriage return (`fullLines_withReturns`).
What stands in front of the boundary stays (`dropTrailing_withReturns`).
-/

namespace RepairLoop.Text

/-- The text with a carriage return in front of every line feed. -/
def withReturns (cs : List Char) : List Char :=
  cs.flatMap fun c => if c = '\n' then ['\r', '\n'] else [c]

/-- The text with a carriage return in front of every line feed. -/
def returned (s : String) : String :=
  String.ofList (withReturns s.toList)

@[simp] theorem withReturns_nil : withReturns [] = [] := rfl

@[simp] theorem withReturns_feed (cs : List Char) :
    withReturns ('\n' :: cs) = '\r' :: '\n' :: withReturns cs := rfl

theorem withReturns_cons {c : Char} (hc : c ≠ '\n') (cs : List Char) :
    withReturns (c :: cs) = c :: withReturns cs := by
  rw [withReturns, List.flatMap_cons, if_neg hc]
  rfl

theorem withReturns_append (cs ds : List Char) :
    withReturns (cs ++ ds) = withReturns cs ++ withReturns ds :=
  List.flatMap_append

theorem withReturns_flatten (ls : List (List Char)) :
    withReturns ls.flatten = (ls.map withReturns).flatten := by
  induction ls with
  | nil => rfl
  | cons l ls ih => rw [List.flatten_cons, withReturns_append, ih, List.map_cons, List.flatten_cons]

/-- A text without a line feed gets no carriage return. -/
theorem withReturns_eq_self {cs : List Char} (h : Unbroken cs) : withReturns cs = cs := by
  induction cs with
  | nil => rfl
  | cons c cs ih =>
    obtain ⟨hc, hcs⟩ := unbroken_cons.1 h
    have hfeed : c ≠ '\n' := by
      rintro rfl
      revert hc
      decide
    rw [withReturns_cons hfeed, ih hcs]

/-- The last character stays the last. -/
theorem getLast?_withReturns (cs : List Char) : (withReturns cs).getLast? = cs.getLast? := by
  rcases List.eq_nil_or_concat' cs with rfl | ⟨cs, c, rfl⟩
  · rfl
  · rw [withReturns_append, List.getLast?_concat]
    by_cases hc : c = '\n'
    · subst hc
      simp
    · rw [withReturns_cons hc, withReturns_nil, List.getLast?_concat]

/-! ### Lines -/

/-- Where the line feed is the only boundary, the carriage return in front of it
becomes a part of the boundary. -/
theorem lines_withReturns {cs : List Char} (h : Plain cs) :
    lines (withReturns cs) = (lines cs).map fun l => ⟨l.body, withReturns l.ending⟩ := by
  induction cs with
  | nil => rfl
  | cons c cs ih =>
    have hih := ih fun d hd => h d (by simp [hd])
    rcases Bool.eq_false_or_eq_true (isLineBoundary c) with hc | hc
    · obtain rfl := h c (by simp) hc
      rw [withReturns_feed, lines, hih, lines_feed]
      rfl
    · have hfeed : c ≠ '\n' := by
        rintro rfl
        revert hc
        decide
      rw [withReturns_cons hfeed, lines_cons_of_not_boundary hc, lines_cons_of_not_boundary hc, hih]
      cases lines cs <;> rfl

/-- **Every line of a plain text gets the carriage return of its own.** -/
theorem fullLines_withReturns {cs : List Char} (h : Plain cs) :
    fullLines (withReturns cs) = (fullLines cs).map withReturns := by
  rw [fullLines, fullLines, lines_withReturns h, List.map_map, List.map_map]
  refine List.map_congr_left fun l hl => ?_
  simp only [Function.comp_apply, Line.full]
  rw [withReturns_append, withReturns_eq_self (unbroken_of_mem_lines l hl)]

/-- **In front of the boundary nothing changes.** -/
theorem dropTrailing_withReturns {l : List Char} (h : PlainLine l) :
    dropTrailing (fun c => c == '\r' || c == '\n') (withReturns l) =
      dropTrailing (fun c => c == '\r' || c == '\n') l := by
  rcases h with ⟨b, hb, rfl⟩ | ⟨hl, -⟩
  · rw [withReturns_append, withReturns_eq_self hb,
      dropTrailing_append_of_all _ b (withReturns ['\n']) (by decide),
      dropTrailing_append_of_all _ b ['\n'] (by decide)]
  · rw [withReturns_eq_self hl]

end RepairLoop.Text

namespace RepairLoop.Diff

open Text (withReturns returned PlainLine)

variable {lines : List (List Char)}

/-! ## Finding a block -/

theorem lineMatches_withReturns {l : List Char} (hl : PlainLine l) (loose : Bool)
    (expected : List Char) :
    lineMatches loose (withReturns l) expected = lineMatches loose l expected := by
  rw [lineMatches, lineMatches, Text.dropTrailing_withReturns hl]

theorem blockMatches_withReturns (h : ∀ l ∈ lines, PlainLine l) (loose : Bool)
    (block : List (List Char)) :
    blockMatches loose (lines.map withReturns) block = blockMatches loose lines block := by
  induction lines generalizing block with
  | nil => rfl
  | cons l ls ih =>
    cases block with
    | nil => rfl
    | cons e es =>
      rw [List.map_cons, blockMatches, blockMatches, lineMatches_withReturns (h l (by simp)),
        ih fun m hm => h m (by simp [hm])]

/-- **A block is found at the same place.** -/
theorem locate_withReturns (h : ∀ l ∈ lines, PlainLine l) (block : List (List Char))
    (expected : Int) (floor : Nat) :
    locate (lines.map withReturns) block expected floor = locate lines block expected floor := by
  have hmatches : matchesAt (lines.map withReturns) block = matchesAt lines block := by
    funext loose position
    rw [matchesAt, matchesAt, ← List.map_drop]
    exact blockMatches_withReturns (fun l hl => h l (List.mem_of_mem_drop hl)) loose block
  simp only [locate, nearest?, List.length_map, hmatches]

/-! ## Running the hunks -/

/-- **A hunk writes the same lines, each with its carriage return.** -/
theorem runEntries_withReturns {es : List Entry} (hes : ∀ e ∈ es, Text.Unbroken e.body) :
    runEntries ['\r', '\n'] es (lines.map withReturns) =
      ((runEntries ['\n'] es lines).1.map withReturns,
        (runEntries ['\n'] es lines).2.map withReturns) := by
  induction es generalizing lines with
  | nil => rfl
  | cons e es ih =>
    have hes' : ∀ e ∈ es, Text.Unbroken e.body := fun x hx => hes x (by simp [hx])
    rw [runEntries.eq_def, runEntries.eq_def]
    simp only
    cases e.tag with
    | context =>
      have hhead : (lines.map withReturns).headD [] = withReturns (lines.headD []) := by
        cases lines <;> rfl
      simp only [← List.map_tail, ih hes', hhead, List.map_cons]
    | removed => simp only [← List.map_tail, ih hes']
    | added =>
      have hcontent : withReturns e.content = e.content :=
        Text.withReturns_eq_self
          ((hes e (by simp)).of_subset (Text.dropTrailing_front _ _).subset)
      have hline : ∀ bare : Bool, (if bare then e.content else e.content ++ ['\r', '\n']) =
          withReturns (if bare then e.content else e.content ++ ['\n']) := by
        rintro (_ | _)
        · rw [if_neg (by decide), if_neg (by decide), Text.withReturns_append, hcontent]
          rfl
        · rw [if_pos rfl, if_pos rfl, hcontent]
      simp only [ih hes', hline, List.map_cons]
    | marker => exact ih hes'

theorem runHunks_withReturns {path : String} {hs : List Hunk} (h : ∀ l ∈ lines, PlainLine l)
    (hhs : ∀ k ∈ hs, ∀ e ∈ k.entries, Text.Unbroken e.body) (n cursor : Nat) :
    runHunks path ['\r', '\n'] (lines.map withReturns) n cursor hs =
      (runHunks path ['\n'] lines n cursor hs).map (·.map withReturns) := by
  induction hs generalizing n cursor with
  | nil =>
    rw [runHunks, runHunks, ← List.map_drop]
    rfl
  | cons k hs ih =>
    rw [runHunks, runHunks]
    simp only [locate_withReturns h]
    cases locate lines k.oldLines
      (if (k.oldCount != 0) = true then (k.oldStart : Int) - 1 else k.oldStart) cursor with
    | none => rfl
    | some position =>
      simp only [← List.map_drop, runEntries_withReturns (hhs k (by simp)), List.length_map,
        ih fun m hm => hhs m (by simp [hm])]
      cases runHunks path ['\n'] lines (n + 1)
        (lines.length - (runEntries ['\n'] k.entries (lines.drop position)).2.length) hs with
      | error e => rfl
      | ok after =>
        simp only [Except.map, List.map_append, List.map_take]

/-! ## Closing the lines -/

theorem closed_withReturns {l : List Char} : Closed (withReturns l) ↔ Closed l := by
  rw [Closed, Closed, Text.getLast?_withReturns]

theorem closeLines_withReturns (ls : List (List Char)) :
    closeLines ['\r', '\n'] (ls.map withReturns) = (closeLines ['\n'] ls).map withReturns := by
  induction ls with
  | nil => rfl
  | cons l ls ih =>
    rcases eq_or_ne ls [] with rfl | hne
    · rfl
    · have hne' : ls.map withReturns ≠ [] := by simpa using hne
      rw [List.map_cons, closeLines_cons hne', closeLines_cons hne, List.map_cons, ih]
      congr 1
      by_cases hl : Closed l
      · rw [if_pos hl, if_pos (closed_withReturns.2 hl)]
      · rw [if_neg hl, if_neg (mt closed_withReturns.1 hl), Text.withReturns_append]
        rfl

/-! ## The whole section -/

/-- The first line ends with a line feed. -/
def OpensFed (cs : List Char) : Prop :=
  ∃ l ls, Text.fullLines cs = l :: ls ∧ l.getLast? = some '\n'

/-- With its carriage returns a file whose first line is ended has them as its
line end. -/
theorem newlineOf_withReturns {cs : List Char} (hfirst : OpensFed cs) :
    newlineOf ((Text.fullLines cs).map withReturns) = ['\r', '\n'] := by
  obtain ⟨l, ls, hlines, hlast⟩ := hfirst
  obtain ⟨b, rfl⟩ := List.getLast?_eq_some_iff.1 hlast
  rw [hlines, List.map_cons, newlineOf, if_pos]
  rw [Text.withReturns_append, List.reverse_append]
  rfl

theorem applyChars_withReturns {o : List Char} {p : FilePatch} (hp : p.Legible)
    (hold : p.isNew = false) (ho : Text.Plain o) (hfirst : OpensFed o) :
    applyChars (withReturns o) p = (applyChars o p).map withReturns := by
  have hplain := (Text.plainLines_fullLines ho).plain
  have htarget : targetLines (withReturns o) p = (targetLines o p).map withReturns := by
    rw [targetLines, targetLines, hold]
    exact Text.fullLines_withReturns ho
  have htarget' : targetLines o p = Text.fullLines o := by
    rw [targetLines, hold]
    rfl
  rw [applyChars_eq, applyChars_eq, htarget, htarget', newlineOf_withReturns hfirst,
    newlineOf_plain hplain, runHunks_withReturns hplain fun k hk => (hp.hunks k hk).bodies]
  cases runHunks p.path ['\n'] (Text.fullLines o) 1 0 p.hunks with
  | error e => rfl
  | ok out =>
    simp only [Except.map, closeLines_withReturns]
    split
    · rfl
    · rw [Text.withReturns_flatten]

variable {text : String} {files : List FilePatch} {notes : List String} {p : FilePatch}
  {o : String}

/-- **Applying a section commutes with the choice of line ends.** Where the line
feed is the only boundary in a file and ends its first line, a section that was
read and creates no file does the same to the file with carriage returns: it
fits nowhere with the same error, or yields the same text with carriage
returns. -/
theorem apply_returned (h : parse text = .ok (files, notes)) (hp : p ∈ files)
    (hold : p.isNew = false) (ho : Text.Plain o.toList) (hfirst : OpensFed o.toList) :
    apply (returned o) p = (apply o p).map returned := by
  have hlegible := (parseChars_legible h).1 p hp
  rw [apply, apply, returned, String.toList_ofList, applyChars_withReturns hlegible hold ho hfirst]
  cases applyChars o.toList p with
  | error e => rfl
  | ok t => simp [Except.map, returned]

/-- A section that replaces the second line by one that is ended and one that is
not. -/
def secondLine : FilePatch :=
  ⟨some "f", some "f", [⟨2, 1, 2, 2, [⟨.removed, ['b']⟩, ⟨.added, ['c']⟩, ⟨.added, ['d']⟩,
    ⟨.marker, " No newline at end of file".toList⟩], []⟩]⟩

theorem apply_returned_bare :
    parse "--- a/f\n+++ b/f\n@@ -2 +2,2 @@\n-b\n+c\n+d\n\\ No newline at end of file\n" =
        .ok ([secondLine], []) ∧ secondLine.isNew = false ∧ Text.Plain "a\nb".toList ∧
      OpensFed "a\nb".toList ∧ apply "a\nb" secondLine = .ok "a\nc\nd" ∧
      apply "a\r\nb" secondLine = .ok "a\r\nc\r\nd" := by
  have hread : parse
      "--- a/f\n+++ b/f\n@@ -2 +2,2 @@\n-b\n+c\n+d\n\\ No newline at end of file\n" =
      .ok ([secondLine], []) := by decide +kernel
  have ho : Text.Plain "a\nb".toList := by decide
  have hfirst : OpensFed "a\nb".toList := ⟨['a', '\n'], [['b']], rfl, rfl⟩
  have happly : apply "a\nb" secondLine = .ok "a\nc\nd" := rfl
  have hreturned := apply_returned hread (List.mem_singleton_self _) rfl ho hfirst
  rw [happly, show returned "a\nb" = "a\r\nb" by decide] at hreturned
  refine ⟨hread, rfl, ho, hfirst, happly, hreturned.trans ?_⟩
  rw [Except.map, show returned "a\nc\nd" = "a\r\nc\r\nd" by decide]

end RepairLoop.Diff
