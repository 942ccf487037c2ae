import RepairLoop.Proofs.Diff.Restated
import RepairLoop.Proofs.Text.Character
/-!
# Diff — what stands around a diff does not change it

A completion says more than the diff it holds. Put into a fenced block, the
diff is what the first block holds, for no fence stands in front of it
(`fencedBlocks_skip`), and it ends at the next fence (`untilFence_eq`).
Without a fence it is found at its first file header, with its own extended
headers and any that happen to stand in front of them (`fromHeader?_sections`);
these are passed over, as is what trails behind. `extract_surrounded` says so
of every diff that is rendered of sections that were read.
-/

namespace RepairLoop.Diff

/-! ## Fenced blocks -/

theorem not_fence_of_head {c : Char} (hc : c ≠ '\x60') (cs : List Char) :
    fence.isPrefixOf (c :: cs) = false := by
  rw [Bool.eq_false_iff]
  intro h
  exact hc (List.cons_prefix_cons.1 (List.isPrefixOf_iff_prefix.1 h)).1.symm

/-- **A text ends at the fence behind it**, if there is none in it and no part of
one at its end. -/
theorem untilFence_eq {body : List Char} (hbody : ¬ fence <:+: body)
    (hlast : ∀ c ∈ body.getLast?, c ≠ '\x60') (after : List Char) :
    untilFence (body ++ (fence ++ after)) = some (body, after) := by
  induction body with
  | nil => rfl
  | cons c cs ih =>
    -- a fence here would be one of the text, or hold all that is left of it
    have hnot : fence.isPrefixOf (c :: (cs ++ (fence ++ after))) = false := by
      rw [Bool.eq_false_iff]
      intro h
      rcases List.prefix_or_prefix_of_prefix (List.isPrefixOf_iff_prefix.1 h)
        (List.prefix_append (c :: cs) (fence ++ after)) with hin | hover
      · exact hbody hin.isInfix
      · have hmem := hover.subset (List.getLast_mem (List.cons_ne_nil c cs))
        exact hlast _ (List.getLast?_eq_some_getLast (List.cons_ne_nil c cs))
          (List.eq_of_mem_replicate (n := 3) hmem)
    have hrest : ∀ d ∈ cs.getLast?, d ≠ '\x60' := fun d hd => by
      refine hlast d ?_
      rw [List.getLast?_cons_of_ne_nil (fun h => by simp [h] at hd)]
      exact hd
    rw [List.cons_append, untilFence, hnot,
      ih (fun h => hbody (h.trans (List.suffix_cons c cs).isInfix)) hrest]
    rfl

/-- The line that opens a fenced diff. -/
def opening : List Char :=
  fence ++ "diff\n".toList

theorem fencedAt?_opening {body : List Char} (hbody : ¬ fence <:+: body)
    (hlast : ∀ c ∈ body.getLast?, c ≠ '\x60') (after : List Char) :
    fencedAt? (opening ++ (body ++ (fence ++ after))) = some ("diff".toList, body, after) := by
  have hlabel : ∀ cs : List Char, fencedAt? (opening ++ cs) =
      (untilFence cs).map fun r => ("diff".toList, r.1, r.2) := fun _ => rfl
  rw [hlabel, untilFence_eq hbody hlast]
  rfl

/-- In front of the first fence there is no block. -/
theorem fencedBlocks_skip {before : List Char} (h : '\x60' ∉ before) (cs : List Char)
    (fuel : Nat) :
    fencedBlocks (fuel + before.length) (before ++ cs) = fencedBlocks fuel cs := by
  induction before with
  | nil => rfl
  | cons c before ih =>
    rw [List.mem_cons, not_or] at h
    obtain ⟨hc, hbefore⟩ := h
    have hnone : fencedAt? (c :: (before ++ cs)) = none := by
      rw [fencedAt?, if_neg (by simp [not_fence_of_head (Ne.symm hc)])]
    rw [List.cons_append, List.length_cons, ← Nat.add_assoc, fencedBlocks, hnone]
    exact ih hbefore

/-- A fenced diff is the first block, if no fence stands in front of it. -/
theorem fencedBlocks_opening {before body : List Char} (hbefore : '\x60' ∉ before)
    (hbody : ¬ fence <:+: body) (hlast : ∀ c ∈ body.getLast?, c ≠ '\x60') (after : List Char)
    (fuel : Nat) :
    ∃ more, fencedBlocks (fuel + 1 + before.length)
      (before ++ (opening ++ (body ++ (fence ++ after)))) = ("diff".toList, body) :: more := by
  have hblock := fencedAt?_opening hbody hlast after
  obtain ⟨c, cs, hcs⟩ : ∃ c cs, opening ++ (body ++ (fence ++ after)) = c :: cs := ⟨_, _, rfl⟩
  rw [fencedBlocks_skip hbefore]
  rw [hcs] at hblock ⊢
  rw [fencedBlocks, hblock]
  exact ⟨_, rfl⟩

/-- A text without a fence has no block. -/
theorem fencedBlocks_eq_nil {cs : List Char} (h : ¬ fence <:+: cs) (fuel : Nat) :
    fencedBlocks fuel cs = [] := by
  induction fuel generalizing cs with
  | zero => rfl
  | succ fuel ih =>
    cases cs with
    | nil => rfl
    | cons c cs =>
      have hnone : fencedAt? (c :: cs) = none := by
        rw [fencedAt?, if_neg fun hp => h (List.isPrefixOf_iff_prefix.1 hp).isInfix]
      rw [fencedBlocks, hnone]
      exact ih fun hi => h (hi.trans (List.suffix_cons c cs).isInfix)

/-- What holds no part of a fence makes none with a text that holds none, neither
in front of it nor behind it. -/
theorem not_fence_around {before cs after : List Char} (h : ¬ fence <:+: cs)
    (hb : '\x60' ∉ before) (ha : '\x60' ∉ after) : ¬ fence <:+: before ++ (cs ++ after) := by
  have hbehind : ¬ fence <:+: cs ++ after := by
    induction after using List.reverseRecOn with
    | nil => rwa [List.append_nil]
    | append_singleton after c ih =>
      rw [List.mem_append, not_or, List.mem_singleton] at ha
      rw [← List.append_assoc, List.infix_concat_iff]
      rintro (⟨front, hfront⟩ | hin)
      · have hc := congrArg List.getLast? hfront
        rw [List.getLast?_append, List.getLast?_concat] at hc
        exact ha.2 (Option.some.inj hc)
      · exact ih ha.1 hin
  induction before with
  | nil => exact hbehind
  | cons c before ih =>
    rw [List.mem_cons, not_or] at hb
    rw [List.cons_append, List.infix_cons_iff]
    rintro (hhead | hin)
    · have hnot := not_fence_of_head (Ne.symm hb.1) (before ++ (cs ++ after))
      rw [List.isPrefixOf_iff_prefix.2 hhead] at hnot
      cases hnot
    · exact ih hb.2 hin

/-! ## The first file header -/

/-- Lines without a header in front of some are passed over, if none of them makes
one with the first of these. -/
theorem fromHeader?_headless {pre ls : List (List Char)} (hpre : Headless pre)
    (hls : ∀ l ∈ ls.head?, opens "+++ " l = false) (seen : List (List Char)) :
    fromHeader? seen (pre ++ ls) = fromHeader? (pre.reverse ++ seen) ls := by
  induction pre generalizing seen with
  | nil => rfl
  | cons l pre ih =>
    obtain ⟨hnext, hrest⟩ := List.isChain_cons.1 hpre
    have hnot : startsFile (l :: (pre ++ ls)) = false := by
      refine startsFile_eq_false fun m hm => ?_
      cases pre with
      | nil => simp [hls m hm]
      | cons k pre => exact hnext m hm
    rw [List.cons_append, fromHeader?, hnot, List.reverse_cons, List.append_assoc]
    exact ih hrest (l :: seen)

theorem headless_of_passed {ls : List (List Char)} (h : ∀ l ∈ ls, Passed l) : Headless ls := by
  induction ls with
  | nil => exact .nil
  | cons l ls ih =>
    refine List.isChain_cons.2 ⟨fun m _ hboth => ?_, ih fun m hm => h m (by simp [hm])⟩
    rw [(h l (by simp)).file] at hboth
    cases hboth.1

/-- **Sections are found behind lines without a header**, together with the
extended headers that these end with. -/
theorem fromHeader?_sections {before : List (List Char)} {files : List FilePatch}
    (hbefore : Headless before) (hne : files ≠ []) (tail : List (List Char)) :
    ∃ front, (∀ l ∈ front, l ∈ before ∧ isExtendedHeader l = true) ∧
      fromHeader? [] (before ++ (files.flatMap sectionLines ++ tail)) =
        some (front ++ (files.flatMap sectionLines ++ tail)) := by
  refine ⟨(before.reverse.takeWhile isExtendedHeader).reverse, fun l hl => ?_, ?_⟩
  · rw [List.mem_reverse] at hl
    exact ⟨List.mem_reverse.1 ((List.takeWhile_sublist _).subset hl), List.mem_takeWhile_imp hl⟩
  · have hgit := ends_sections hne tail
    have hplus : ∀ l ∈ (files.flatMap sectionLines ++ tail).head?, opens "+++ " l = false :=
      fun l hl => by
        obtain ⟨rest, rfl⟩ := opens_iff.1 (hgit l hl)
        rfl
    rw [fromHeader?_headless hbefore hplus]
    obtain ⟨p, files, rfl⟩ := List.exists_cons_of_ne_nil hne
    obtain ⟨rest, hlines⟩ : ∃ rest, (p :: files).flatMap sectionLines ++ tail =
        prelude p ++ ("--- ".toList ++ sideText "a/" p.oldPath) ::
          ("+++ ".toList ++ sideText "b/" p.newPath) :: rest := by
      rw [List.flatMap_cons, sectionLines_eq, List.append_assoc, List.append_assoc]
      exact ⟨_, rfl⟩
    have hfile : startsFile (("--- ".toList ++ sideText "a/" p.oldPath) ::
        ("+++ ".toList ++ sideText "b/" p.newPath) :: rest) = true := by
      rw [startsFile, opens_append, opens_append]
      rfl
    rw [hlines, fromHeader?_headless (headless_of_passed (passed_prelude p))
      (by rintro _ ⟨⟩; rfl), fromHeader?, if_pos hfile]
    -- seen last are the extended headers of the section, and then those in front of it
    rw [List.append_nil, List.takeWhile_append_of_pos fun l hl =>
        isExtendedHeader_prelude p l (List.mem_reverse.1 hl),
      List.reverse_append, List.reverse_reverse, List.append_assoc]

/-! ## Lines put together again -/

theorem joined_concat (ls : List (List Char)) (l : List Char) :
    joined (ls ++ [l]) = terminated ls ++ l := by
  induction ls with
  | nil => rfl
  | cons k ls ih =>
    have hcons : joined (k :: (ls ++ [l])) = k ++ '\n' :: joined (ls ++ [l]) := by
      cases ls <;> rfl
    rw [List.cons_append, hcons, ih, terminated_cons, List.append_assoc, List.cons_append]

/-- **Of lines that are put together and cut apart again** at most a last one is
lost, if it is empty. -/
theorem lineBodies_joined {ls ms : List (List Char)} (hls : ∀ l ∈ ls ++ ms, Text.Unbroken l)
    (hlast : ∀ l ∈ ls.getLast?, l ≠ []) :
    ∃ kept, kept <+: ms ∧ Text.lineBodies (joined (ls ++ ms)) = ls ++ kept := by
  have hcut : ∀ ks k, (∀ l ∈ ks ++ [k], Text.Unbroken l) →
      Text.lineBodies (joined (ks ++ [k])) = ks ++ Text.lineBodies k := fun ks k hks => by
    rw [joined_concat, lineBodies_terminated fun l hl => hks l (by simp [hl])]
  -- it is the last line of all that has no line feed behind it
  rcases List.eq_nil_or_concat' ms with rfl | ⟨ms, m, rfl⟩
  · refine ⟨[], List.prefix_refl _, ?_⟩
    rw [List.append_nil] at hls ⊢
    rcases List.eq_nil_or_concat' ls with rfl | ⟨ls, l, rfl⟩
    · rfl
    · rw [hcut ls l hls, Text.lineBodies_alone (hls l (by simp))
        (hlast l (by rw [List.getLast?_concat]; rfl))]
  · rw [← List.append_assoc] at hls ⊢
    rw [hcut (ls ++ ms) m hls, List.append_assoc]
    refine ⟨ms ++ Text.lineBodies m, ?_, rfl⟩
    rcases eq_or_ne m [] with rfl | hm
    · exact (List.append_nil ms).symm ▸ List.prefix_append ms [[]]
    · have hone := Text.lineBodies_alone (hls m (by simp)) hm
      exact ⟨[], by rw [hone, List.append_nil]⟩

/-- What trails may be cut short. -/
theorem Trails.of_prefix {ls kept : List (List Char)} (h : Trails ls) (hk : kept <+: ls) :
    Trails kept := by
  obtain ⟨hfirst, hhunks, hheaders⟩ := h
  obtain ⟨rest, rfl⟩ := hk
  refine ⟨fun l hl => hfirst l ?_, fun l hl => hhunks l (by simp [hl]),
    List.IsChain.left_of_append hheaders⟩
  rw [List.find?_append, Option.mem_def.1 hl]
  rfl

/-! ## Extracting -/

/-- **A fenced diff is extracted**, whatever follows its block. -/
theorem extractChars_fenced {before body : List Char} {files : List FilePatch}
    {notes : List String} (hbefore : '\x60' ∉ before) (hbody : ¬ fence <:+: body)
    (hlast : ∀ c ∈ body.getLast?, c ≠ '\x60') (hread : parseChars body = .ok (files, notes))
    (after : List Char) :
    extractChars (before ++ (opening ++ (body ++ (fence ++ after)))) =
      .ok ⟨files, .fenced, notes⟩ := by
  have htick : '\x60' ∈ before ++ (opening ++ (body ++ (fence ++ after))) :=
    List.mem_append_right _ (List.mem_append_left _ (by decide))
  have htrim := Text.trim_ne_nil htick (by decide)
  have hlabel : isDiffLabel "diff".toList = true := by decide
  obtain ⟨more, hblocks⟩ := fencedBlocks_opening hbefore hbody hlast after
    (opening ++ (body ++ (fence ++ after))).length
  have hfuel : (before ++ (opening ++ (body ++ (fence ++ after)))).length + 1 =
      (opening ++ (body ++ (fence ++ after))).length + 1 + before.length := by
    rw [List.length_append]
    omega
  rw [extractChars, if_neg (by simpa using htrim), hfuel, hblocks]
  simp only [List.filter_cons, hlabel, if_true, List.map_cons, firstFenced, hread, bind,
    Except.bind]

/-- **Without a fence the diff is what starts at the first file header.** -/
theorem extractChars_headers {cs : List Char} {ls : List (List Char)} {files : List FilePatch}
    {notes : List String} (htrim : Text.trim cs ≠ []) (hfence : ¬ fence <:+: cs)
    (hfrom : fromHeader? [] (Text.lineBodies cs) = some ls)
    (hread : parseChars (joined ls) = .ok (files, notes)) :
    extractChars cs = .ok ⟨files, .headers, notes⟩ := by
  rw [extractChars, if_neg (by simpa using htrim), fencedBlocks_eq_nil hfence]
  simp only [List.filter_nil, List.map_nil, firstFenced, hfrom, hread, bind, Except.bind]

/-- No line of a section is empty. -/
theorem ne_nil_of_mem_sectionLines {p : FilePatch} : ∀ l ∈ sectionLines p, l ≠ [] := by
  rintro l hl rfl
  rw [sectionLines_eq, List.mem_append, List.mem_cons, List.mem_cons] at hl
  rcases hl with hl | hl | hl | hl
  · exact absurd (isExtendedHeader_prelude p _ hl) (by decide)
  · cases hl
  · cases hl
  · simp only [hunkLines, List.mem_flatMap, List.mem_cons, List.mem_map] at hl
    obtain ⟨h, -, hl | ⟨e, -, hl⟩⟩ := hl
    · exact absurd (hl ▸ startsHunk_header h) (by decide)
    · cases hl

/-- A rendered text ends with a line feed. -/
theorem getLast?_terminated {ls : List (List Char)} :
    ∀ c ∈ (terminated ls).getLast?, c = '\n' := by
  intro c hc
  rcases List.eq_nil_or_concat' ls with rfl | ⟨ls, l, rfl⟩
  · cases hc
  · rw [terminated_append, terminated_cons, List.getLast?_append, List.getLast?_append] at hc
    exact (Option.some.inj hc).symm

/-- A rendered diff holds a character that is no blank. -/
theorem dash_mem_renderChars {files : List FilePatch} (hne : files ≠ []) :
    '-' ∈ renderChars files := by
  obtain ⟨p, files, rfl⟩ := List.exists_cons_of_ne_nil hne
  have hline : "--- ".toList ++ sideText "a/" p.oldPath ∈ (p :: files).flatMap sectionLines := by
    rw [List.flatMap_cons, sectionLines_eq]
    simp
  exact List.mem_flatMap.2 ⟨_, hline, List.mem_append_left _ (List.mem_append_left _ (by decide))⟩

/-- **Sections are read back from among other lines**: extended headers in front
of them, and what trails behind. -/
theorem parseChars_joined {files : List FilePatch} {front tail : List (List Char)}
    (hne : files ≠ []) (h : ∀ p ∈ files, p.Readable)
    (hfront : ∀ l ∈ front, Text.Unbroken l ∧ isExtendedHeader l = true)
    (htail : ∀ l ∈ tail, Text.Unbroken l) (ht : Trails tail) :
    parseChars (joined (front ++ (files.flatMap sectionLines ++ tail))) = .ok (files, []) := by
  have hunbroken : ∀ l ∈ front ++ files.flatMap sectionLines ++ tail, Text.Unbroken l := by
    intro l hl
    rw [List.mem_append, List.mem_append] at hl
    rcases hl with (hl | hl) | hl
    · exact (hfront l hl).1
    · exact unbroken_sections h l hl
    · exact htail l hl
  have hlast : ∀ l ∈ (front ++ files.flatMap sectionLines).getLast?, l ≠ [] := by
    intro l hl
    rcases List.mem_append.1 (List.mem_of_getLast? hl) with hl | hl
    · rintro rfl
      exact absurd (hfront [] hl).2 (by decide)
    · obtain ⟨p, -, hl⟩ := List.mem_flatMap.1 hl
      exact ne_nil_of_mem_sectionLines l hl
  obtain ⟨kept, hkept, hlines⟩ := lineBodies_joined hunbroken hlast
  rw [List.append_assoc, List.append_assoc] at hlines
  have hfuel : (front ++ (files.flatMap sectionLines ++ kept)).length + 1 =
      (files.flatMap sectionLines).length + kept.length + 1 + front.length := by
    rw [List.length_append, List.length_append]
    omega
  have hread := parseSections_trailed h (ht.of_prefix hkept)
    (Nat.le_trans (Nat.le_add_right _ kept.length) (Nat.le_succ _))
  have hempty : ¬ files.isEmpty = true := by simpa using hne
  rw [parseChars]
  simp only [hlines, hfuel, parseSections_passed fun l hl =>
    passed_of_isExtendedHeader (hfront l hl).2, hread, bind, Except.bind, if_neg hempty]

/-- **A diff without a fence is extracted from among other lines**, if none of those
in front of it look like a file header, and those behind it trail. -/
theorem extractChars_among {files : List FilePatch} {before after : List Char}
    (hne : files ≠ []) (h : ∀ p ∈ files, p.Readable)
    (hfence : ¬ fence <:+: before ++ (renderChars files ++ after))
    (hfeed : before.getLast? = some '\n') (hheadless : Headless (Text.lineBodies before))
    (htrails : Trails (Text.lineBodies after)) :
    extractChars (before ++ (renderChars files ++ after)) = .ok ⟨files, .headers, []⟩ := by
  have hlines : Text.lineBodies (before ++ (renderChars files ++ after)) =
      Text.lineBodies before ++ (files.flatMap sectionLines ++ Text.lineBodies after) := by
    rw [Text.lineBodies_append_of_feed hfeed, renderChars,
      lineBodies_terminated (unbroken_sections h)]
  obtain ⟨front, hfront, hfrom⟩ := fromHeader?_sections hheadless hne (Text.lineBodies after)
  rw [← hlines] at hfrom
  have hread := parseChars_joined hne h
    (fun l hl => ⟨Text.unbroken_of_mem_lineBodies (hfront l hl).1, (hfront l hl).2⟩)
    (fun l hl => Text.unbroken_of_mem_lineBodies hl) htrails
  have hdash : '-' ∈ before ++ (renderChars files ++ after) :=
    List.mem_append_right _ (List.mem_append_left _ (dash_mem_renderChars hne))
  exact extractChars_headers (Text.trim_ne_nil hdash (by decide)) hfence hfrom hread

/-- **What stands around a diff does not change what is extracted.** Of any diff
that was read and rendered and holds no fence: between fences its sections are
found behind every text without a backtick and whatever follows, and so they are
without fences, behind a text that has no file header and in front of one that
trails. No note is made in either case. The text that was read is no longer than
a number can say, so the counts of its hunks can be read. -/
theorem extract_surrounded {text : String} {files : List FilePatch} {notes : List String}
    (hlen : Countable text.length) (h : parse text = .ok (files, notes))
    (hfence : ¬ fence <:+: (render files).toList) (before after : String)
    (hbefore : '\x60' ∉ before.toList) :
    extract (before ++ "\n\x60\x60\x60diff\n" ++ render files ++ "\x60\x60\x60" ++ after) =
        .ok ⟨files, .fenced, []⟩ ∧
      ('\x60' ∉ after.toList → before.toList.getLast? = some '\n' →
        Headless (Text.lineBodies before.toList) → Trails (Text.lineBodies after.toList) →
        extract (before ++ render files ++ after) = .ok ⟨files, .headers, []⟩) := by
  obtain ⟨hne, hreadable⟩ := readable_of_parse hlen h
  have hback := parse_render_of_parse hlen h
  rw [parse] at hback
  rw [render, String.toList_ofList] at hfence hback
  constructor
  · have hcs : (before ++ "\n\x60\x60\x60diff\n" ++ render files ++ "\x60\x60\x60" ++
        after).toList =
        before.toList ++ ['\n'] ++ (opening ++ (renderChars files ++ (fence ++ after.toList))) := by
      simp only [String.toList_append, render, String.toList_ofList, List.append_assoc]
      rfl
    have hfeed : '\x60' ∉ before.toList ++ ['\n'] := by simp [hbefore]
    -- the fence behind the diff stands on a line of its own
    have hlast : ∀ c ∈ (renderChars files).getLast?, c ≠ '\x60' := fun c hc => by
      rw [getLast?_terminated c hc]
      decide
    rw [extract, hcs]
    exact extractChars_fenced hfeed hfence hlast hback after.toList
  · intro hafter hfeed hheadless htrails
    have hcs : (before ++ render files ++ after).toList =
        before.toList ++ (renderChars files ++ after.toList) := by
      simp only [String.toList_append, render, String.toList_ofList, List.append_assoc]
    rw [extract, hcs]
    exact extractChars_among hne hreadable (not_fence_around hfence hbefore hafter) hfeed hheadless
      htrails

/-- A file that is emptied, with a count that is wrong. -/
def emptied : String :=
  "--- a/f.txt\n+++ b/f.txt\n@@ -1,3 +0,0 @@\n-a\n"

/-- Behind a line that looks like an extended header, and in front of empty lines
and more text. -/
theorem extract_surrounded_emptied :
    ∃ files notes, parse emptied = .ok (files, notes) ∧
      extract ("index of changes:\n" ++ "\n\x60\x60\x60diff\n" ++ render files ++
        "\x60\x60\x60" ++ "\n\nThat is all.\n-- me") = .ok ⟨files, .fenced, []⟩ ∧
      extract ("index of changes:\n" ++ render files ++ "\n\nThat is all.\n-- me") =
        .ok ⟨files, .headers, []⟩ := by
  have hread : parse emptied = .ok ([⟨some "f.txt", some "f.txt",
      [⟨1, 1, 0, 0, [⟨.removed, ['a']⟩], []⟩]⟩],
      ["hunk -1,3 +0,0 recounted as -1,1 +0,0"]) := by decide +kernel
  obtain ⟨hfenced, hheaders⟩ := extract_surrounded (countable_of_lt (k := 3) (by decide)
    (by decide)) hread (by decide +kernel) "index of changes:\n" "\n\nThat is all.\n-- me"
    (by decide)
  have hfind : (Text.lineBodies "\n\nThat is all.\n-- me".toList).find? (· ≠ []) =
      some "That is all.".toList := by decide
  refine ⟨_, _, hread, hfenced, hheaders (by decide) (by decide) (by decide)
    ⟨fun l hl c hc => ?_, by decide, by decide⟩⟩
  obtain rfl := Option.some.inj (hfind.symm.trans hl)
  obtain rfl : 'T' = c := Option.some.inj hc
  decide

end RepairLoop.Diff
