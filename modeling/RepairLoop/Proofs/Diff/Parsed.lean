import Mathlib.Data.List.TakeWhile
import RepairLoop.Proofs.Diff.Rendered
import RepairLoop.Proofs.Steps
import RepairLoop.Proofs.Text.Character
/-!
# Diff — what a diff that is read looks like

Whatever text is read, the sections that come of it are in order: their
paths can be named in a file header again, their hunks state the counts of
their lines, and no line in them looks like a file header. There are as many of
them as file headers in the text, so one that hides in a hunk is never lost
(`parseChars_legible`). Rendered they are read back (`Legible.readable`), as
far as their numbers can be written down and read.
-/

namespace RepairLoop.Diff

/-! ## Numbers -/

theorem decimalValue?_lt {c : Char} {v : Nat} (h : Text.decimalValue? c = some v) : v < 10 := by
  unfold Text.decimalValue? at h
  split at h
  · split at h
    · rename_i hdigit
      have hhi : c.toNat ≤ 57 := (Char.isDigit_iff_toNat.1 hdigit).2
      have := Option.some.inj h
      omega
    · cases h
  · obtain ⟨r, -, rfl⟩ := Option.map_eq_some_iff.1 h
    exact Nat.mod_lt _ (by decide)

theorem foldlM_decimalValue?_lt {cs : List Char} {n m k : Nat} (hn : n < 10 ^ k)
    (h : cs.foldlM (fun n c => (Text.decimalValue? c).map (10 * n + ·)) n = some m) :
    m < 10 ^ (k + cs.length) := by
  induction cs generalizing n k with
  | nil =>
    obtain rfl : n = m := Option.some.inj h
    simpa using hn
  | cons c cs ih =>
    rw [List.foldlM_cons] at h
    obtain ⟨v, hv, h⟩ := Option.bind_eq_some_iff.1 h
    obtain ⟨d, hd, rfl⟩ := Option.map_eq_some_iff.1 hv
    have hlt := decimalValue?_lt hd
    have hpow : 10 * n + d < 10 ^ (k + 1) := by
      rw [Nat.pow_succ]
      omega
    have := ih hpow h
    rwa [List.length_cons, show k + (cs.length + 1) = k + 1 + cs.length by omega]

/-- A number that was read can be read again. -/
theorem countable_of_number {ds : List Char} {n : Nat} (h : number ds = .ok n) :
    Countable n := by
  unfold number at h
  split at h
  · cases h
  · rename_i hlen
    rw [← Except.ok.inj h]
    have hle : ds.length ≤ Json.maxDigits := Nat.le_of_not_lt hlen
    have hzero : Countable 0 := countable_of_lt (Nat.zero_le _) (by decide)
    cases hm : Text.decimalNumber? ds with
    | none => exact hzero
    | some m =>
      unfold Text.decimalNumber? at hm
      split at hm
      · cases hm
      · have := foldlM_decimalValue?_lt (k := 0) (by decide : 0 < 10 ^ 0) hm
        rw [Nat.zero_add] at this
        exact countable_of_lt hle this

/-! ## Lines that look like a file header -/

/-- The number of places where two lines look like a file header. -/
def headerCount : List (List Char) → Nat
  | [] => 0
  | l :: ls => (if startsFile (l :: ls) then 1 else 0) + headerCount ls

theorem headerCount_cons_of_not {l : List Char} {ls : List (List Char)}
    (h : startsFile (l :: ls) = false) : headerCount (l :: ls) = headerCount ls := by
  rw [headerCount, h]
  simp

/-- A line that opens a hunk opens no file header. -/
theorem startsFile_of_hunk {l : List Char} (h : startsHunk l = true) (ls : List (List Char)) :
    startsFile (l :: ls) = false := by
  refine startsFile_eq_false fun _ _ hboth => ?_
  obtain ⟨rest, hrest⟩ := opens_iff.1 h
  obtain ⟨rest', hrest'⟩ := opens_iff.1 hboth.1
  rw [← hrest] at hrest'
  exact absurd (List.cons.inj hrest').1 (by decide)

/-! ## Hunks that are read -/

/-- Where no header starts in the first lines of some, no two of them look
like one. -/
theorem headless_of_headerCount {ls rest : List (List Char)}
    (h : headerCount (ls ++ rest) = headerCount rest) : Headless ls := by
  have hle : ∀ ms : List (List Char), headerCount rest ≤ headerCount (ms ++ rest) := by
    intro ms
    induction ms with
    | nil => exact Nat.le_refl _
    | cons m ms ih => exact Nat.le_trans ih (Nat.le_add_left _ _)
  induction ls with
  | nil => exact List.IsChain.nil
  | cons l ls ih =>
    have hrest := hle ls
    rw [List.cons_append, headerCount] at h
    refine List.isChain_cons.2 ⟨fun m hm hboth => ?_, ih (by omega)⟩
    cases ls with
    | nil => simp at hm
    | cons m' ls =>
      obtain rfl : m' = m := by simpa using hm
      have hfile : startsFile (l :: (m' :: ls ++ rest)) = true := by
        rw [List.cons_append, startsFile, hboth.1, hboth.2]
        rfl
      rw [if_pos hfile] at h
      omega

/-- Nor do their entries. -/
theorem clear_of_headless {ls : List (List Char)} (hls : ∀ l ∈ ls, Held l)
    (h : Headless ls) : Clear (ls.map entryOf) := by
  refine (List.isChain_map _).2 (h.imp_of_mem_imp fun l m hl hm hlm hboth => hlm ?_)
  exact ⟨(hls l hl).opens_of_line (by decide) hboth.1, (hls m hm).opens_of_line (by decide) hboth.2⟩

theorem char_of_ofChar? {c : Char} {tag : Tag} (h : Tag.ofChar? c = some tag) : tag.char = c := by
  unfold Tag.ofChar? at h
  revert h
  by_cases h1 : c = ' '
  · subst h1; rintro ⟨⟩; rfl
  by_cases h2 : c = '-'
  · subst h2; rintro ⟨⟩; rfl
  by_cases h3 : c = '+'
  · subst h3; rintro ⟨⟩; rfl
  by_cases h4 : c = '\\'
  · subst h4; rintro ⟨⟩; rfl
  simp [h1, h2, h3, h4]

/-- **The lines of a hunk are the first of some lines**, read one by one, and
no file header starts among them. -/
theorem hunkBody_spec (ls : List (List Char)) :
    ∃ taken, ls = taken ++ (hunkBody ls).2 ∧ (hunkBody ls).1 = taken.map entryOf ∧
      (∀ l ∈ taken, Held l) ∧ headerCount ls = headerCount (hunkBody ls).2 := by
  induction ls with
  | nil => exact ⟨[], rfl, rfl, by simp, rfl⟩
  | cons line ls ih =>
    obtain ⟨taken, hls, hes, hheld, hcount⟩ := ih
    rw [hunkBody.eq_def]
    simp only
    split
    · exact ⟨[], rfl, rfl, by simp, rfl⟩
    rename_i hgo
    have hfile : startsFile (line :: ls) = false := by
      simp only [Bool.or_eq_true, not_or, Bool.not_eq_true] at hgo
      exact hgo.2
    -- a line that is taken goes in front of those taken behind it
    have hcons : Held line → ∃ more, line :: ls = more ++ (hunkBody ls).2 ∧
        entryOf line :: (hunkBody ls).1 = more.map entryOf ∧ (∀ l ∈ more, Held l) ∧
        headerCount (line :: ls) = headerCount (hunkBody ls).2 := fun hline =>
      ⟨line :: taken, by rw [List.cons_append, ← hls], by rw [hes, List.map_cons],
        List.forall_mem_cons.2 ⟨hline, hheld⟩, by rw [headerCount_cons_of_not hfile, hcount]⟩
    split
    · exact hcons (Or.inl rfl)
    · rename_i c body
      split
      · exact ⟨[], rfl, rfl, by simp, rfl⟩
      · rename_i tag htag
        have hread : entryOf (c :: body) = ⟨tag, body⟩ := by
          rw [entryOf, htag]
          rfl
        have hline : c :: body = Entry.line ⟨tag, body⟩ := by
          rw [Entry.line, char_of_ofChar? htag]
        rw [hread] at hcons
        exact hcons (Or.inr ⟨_, hline⟩)

theorem dropSurplus_suffix (count : Nat) (es : List Entry) : dropSurplus count es <:+ es := by
  induction es with
  | nil => exact List.suffix_refl _
  | cons e es ih =>
    rw [dropSurplus]
    split
    · exact ih.trans (List.suffix_cons _ _)
    · exact List.suffix_refl _

/-- A hunk that was read: all that makes it readable again, its counts
aside. -/
structure Hunk.Legible (h : Hunk) : Prop where
  whole : h.Whole
  clear : Clear h.entries
  oldStart : Diff.Countable h.oldStart
  newStart : Diff.Countable h.newStart
  bodies : ∀ e ∈ h.entries, Text.Unbroken e.body
  section_ : Text.Unbroken h.section_

theorem unbroken_entryOf {l : List Char} (hl : Text.Unbroken l) :
    Text.Unbroken (entryOf l).body := by
  cases l with
  | nil => exact Text.unbroken_nil
  | cons c body => exact (Text.unbroken_cons.1 hl).2

theorem after?_suffix {start : String} {cs rest : List Char} (h : after? start cs = some rest) :
    rest <:+ cs := by
  unfold after? at h
  split at h
  · rw [← Option.some.inj h]
    exact List.drop_suffix _ _
  · cases h

theorem digits1?_suffix {cs ds rest : List Char} (h : digits1? cs = some (ds, rest)) :
    rest <:+ cs := by
  unfold digits1? at h
  rw [List.span_eq_takeWhile_dropWhile] at h
  split at h
  · cases h
  · obtain ⟨-, rfl⟩ := Prod.mk.inj (Option.some.inj h)
    exact List.dropWhile_suffix _

theorem optionalCount_suffix (cs : List Char) : (optionalCount cs).2 <:+ cs := by
  unfold optionalCount
  split
  · split
    · rename_i hds
      exact (digits1?_suffix hds).trans (List.suffix_cons _ _)
    · exact List.suffix_refl _
  · exact List.suffix_refl _

/-- The section of a header is the end of its line. -/
theorem section_suffix {line : List Char} {raw : RawHeader} (h : rawHeader? line = some raw) :
    raw.section_ <:+ line := by
  unfold rawHeader? at h
  obtain ⟨r1, h1, h⟩ := Option.bind_eq_some_iff.1 h
  obtain ⟨⟨os, r2⟩, h2, h⟩ := Option.bind_eq_some_iff.1 h
  simp only at h
  obtain ⟨r3, h3, h⟩ := Option.bind_eq_some_iff.1 h
  obtain ⟨⟨ns, r4⟩, h4, h⟩ := Option.bind_eq_some_iff.1 h
  simp only at h
  obtain ⟨r5, h5, h⟩ := Option.bind_eq_some_iff.1 h
  rw [← Option.some.inj h]
  exact (after?_suffix h5).trans ((optionalCount_suffix _).trans ((digits1?_suffix h4).trans
    ((after?_suffix h3).trans ((optionalCount_suffix _).trans ((digits1?_suffix h2).trans
      (after?_suffix h1))))))

/-- **A hunk that is read is legible**, it has no more lines than there are
to read, and passes over no file header. -/
theorem parseHunk_legible {line : List Char} {ls rest : List (List Char)} {h : Hunk}
    {note : Option String} (hls : ∀ l ∈ line :: ls, Text.Unbroken l)
    (hread : parseHunk line ls = .ok (h, note, rest)) :
    (h.Legible ∧ h.entries.length ≤ ls.length) ∧
      headerCount ls = headerCount rest ∧ rest <:+ ls := by
  unfold parseHunk at hread
  split at hread
  · cases hread
  rename_i raw hraw
  obtain ⟨oldStart, hos, hread⟩ := ok_of_bind hread
  obtain ⟨oldCount, -, hread⟩ := ok_of_bind hread
  obtain ⟨newStart, hns, hread⟩ := ok_of_bind hread
  obtain ⟨newCount, -, hread⟩ := ok_of_bind hread
  obtain ⟨taken, htaken, hes, hheld, hcount⟩ := hunkBody_spec ls
  have hclear : Clear (hunkBody ls).1 := by
    rw [hes]
    have hnone : headerCount (taken ++ (hunkBody ls).2) = headerCount (hunkBody ls).2 := by
      rw [← htaken, hcount]
    exact clear_of_headless hheld (headless_of_headerCount hnone)
  simp only at hread
  split at hread
  · rename_i hany
    simp only [Except.ok.injEq, Prod.mk.injEq] at hread
    obtain ⟨rfl, -, rfl⟩ := hread
    -- only lines at the end are dropped, and what is left of a clear hunk is clear
    have hfront : (dropSurplus oldCount (hunkBody ls).1.reverse).reverse <+: (hunkBody ls).1 := by
      have := dropSurplus_suffix oldCount (hunkBody ls).1.reverse
      rw [← List.reverse_prefix, List.reverse_reverse] at this
      exact this
    have hkept : Clear (dropSurplus oldCount (hunkBody ls).1.reverse).reverse := by
      obtain ⟨surplus, hsurplus⟩ := hfront
      rw [← hsurplus] at hclear
      exact hclear.left_of_append
    have hlen : (dropSurplus oldCount (hunkBody ls).1.reverse).reverse.length ≤ ls.length := by
      have htakenLen := congrArg List.length htaken
      rw [List.length_append] at htakenLen
      have hbody : (hunkBody ls).1.length = taken.length := by rw [hes, List.length_map]
      have hle := hfront.length_le
      omega
    refine ⟨⟨⟨⟨rfl, rfl, ?_⟩, hkept, countable_of_number hos,
      countable_of_number hns, fun e he => ?_, ?_⟩, hlen⟩, hcount, taken, htaken.symm⟩
    · obtain ⟨e, he, htag⟩ := List.any_eq_true.1 hany
      exact ⟨e, he, by simpa using htag⟩
    · have hall := hfront.subset he
      rw [hes] at hall
      obtain ⟨l, hl, rfl⟩ := List.mem_map.1 hall
      exact unbroken_entryOf (hls l (by rw [htaken]; simp [hl]))
    · exact (hls line (by simp)).of_subset (section_suffix hraw).subset
  · cases hread

theorem parseHunks_legible {fuel : Nat} {ls rest : List (List Char)} {hs : List Hunk}
    {notes : List String} (hls : ∀ l ∈ ls, Text.Unbroken l)
    (hread : parseHunks fuel ls = .ok (hs, notes, rest)) :
    (∀ h ∈ hs, h.Legible ∧ h.entries.length ≤ ls.length) ∧
      headerCount ls = headerCount rest ∧ rest <:+ ls := by
  induction fuel generalizing ls hs notes with
  | zero =>
    simp only [parseHunks, Except.ok.injEq, Prod.mk.injEq] at hread
    obtain ⟨rfl, -, rfl⟩ := hread
    exact ⟨by simp, rfl, List.suffix_refl _⟩
  | succ fuel ih =>
    cases ls with
    | nil =>
      simp only [parseHunks, Except.ok.injEq, Prod.mk.injEq] at hread
      obtain ⟨rfl, -, rfl⟩ := hread
      exact ⟨by simp, rfl, List.suffix_refl _⟩
    | cons line ls =>
      rw [parseHunks] at hread
      split at hread
      · rename_i hhunk
        obtain ⟨⟨h, note, after⟩, hone, hread⟩ := ok_of_bind hread
        obtain ⟨⟨hs', notes', rest'⟩, hmore, hread⟩ := ok_of_bind hread
        simp only [Except.ok.injEq, Prod.mk.injEq] at hread
        obtain ⟨rfl, -, rfl⟩ := hread
        obtain ⟨hlegible, hcount, hsuffix⟩ := parseHunk_legible hls hone
        obtain ⟨hall, hcount', hsuffix'⟩ := ih
          (fun l hl => hls l (List.mem_cons_of_mem _ (hsuffix.subset hl))) hmore
        have hafter : after.length ≤ (line :: ls).length :=
          (hsuffix.trans (List.suffix_cons _ _)).length_le
        refine ⟨fun k hk => ?_, ?_, hsuffix'.trans (hsuffix.trans (List.suffix_cons _ _))⟩
        · rcases List.mem_cons.1 hk with rfl | hk
          · exact ⟨hlegible.1, hlegible.2.trans (Nat.le_succ _)⟩
          · exact ⟨(hall k hk).1, (hall k hk).2.trans hafter⟩
        · rw [headerCount_cons_of_not (startsFile_of_hunk hhunk ls), hcount, hcount']
      · simp only [Except.ok.injEq, Prod.mk.injEq] at hread
        obtain ⟨rfl, -, rfl⟩ := hread
        exact ⟨by simp, rfl, List.suffix_refl _⟩

/-! ## Paths -/

/-- What a file header names is the end of its trimmed operand. -/
theorem suffix_of_headerPath {operand : List Char} {q : String}
    (h : headerPath operand = some q) :
    q.toList <:+ Text.trim (operand.takeWhile (· != '\t')) ∧ q.toList ≠ [] := by
  unfold headerPath at h
  simp only at h
  generalize Text.trim (operand.takeWhile (· != '\t')) = entry at h ⊢
  split at h
  · cases h
  have hname : ∀ cs : List Char, cs <:+ entry →
      (if cs.isEmpty = true then none else some (String.ofList cs)) = some q →
      q.toList <:+ entry ∧ q.toList ≠ [] := by
    intro cs hcs hq
    split at hq
    · cases hq
    · rename_i hne
      rw [← Option.some.inj hq, String.toList_ofList]
      exact ⟨hcs, by simpa using hne⟩
  by_cases hmark : (opens "a/" entry || opens "b/" entry) = true
  · rw [if_pos hmark] at h
    exact hname _ (List.drop_suffix _ _) h
  · rw [if_neg hmark] at h
    exact hname _ (List.suffix_refl _) h

/-- A mark in front of a path is taken off again. -/
theorem headerPath_marked {mark : String} {cs : List Char} (hmark : mark = "a/" ∨ mark = "b/")
    (hne : cs ≠ []) (htab : ∀ c ∈ cs, c ≠ '\t')
    (hlast : ∀ c ∈ cs.getLast?, Text.isBlank c = false) :
    headerPath (mark.toList ++ cs) = some (String.ofList cs) := by
  have htake : (mark.toList ++ cs).takeWhile (· != '\t') = mark.toList ++ cs := by
    have hmarkTab : ∀ c ∈ mark.toList, (c != '\t') = true := by
      rcases hmark with rfl | rfl <;> exact List.all_eq_true.1 rfl
    rw [List.takeWhile_eq_self_iff]
    intro c hc
    rcases List.mem_append.1 hc with hc | hc
    · exact hmarkTab c hc
    · simpa using htab c hc
  have htrim : Text.trim (mark.toList ++ cs) = mark.toList ++ cs := by
    refine Text.trim_eq_self ?_ ?_
    · rcases hmark with rfl | rfl <;> (rintro c ⟨⟩; decide)
    · rwa [List.getLast?_append_of_ne_nil _ hne]
  have hopens : (opens "a/" (mark.toList ++ cs) || opens "b/" (mark.toList ++ cs)) = true := by
    rcases hmark with rfl | rfl
    · rw [opens_append]; rfl
    · rw [opens_append]; simp
  have hnull : ((mark.toList ++ cs == "/dev/null".toList) || (mark.toList ++ cs).isEmpty) =
      false := by
    rcases hmark with rfl | rfl <;> simp
  have hdrop : (mark.toList ++ cs).drop 2 = cs := by
    rcases hmark with rfl | rfl <;> rfl
  have hempty : cs.isEmpty = false := by simpa using hne
  rw [headerPath, htake, htrim]
  simp only [hnull, hopens, hdrop, hempty, if_true, Bool.false_eq_true, if_false]

/-- **A path that a file header names can be named again.** -/
theorem named_of_headerPath {operand : List Char} {q : String}
    (h : headerPath operand = some q) (hsafe : checkPath (some q) = .ok ())
    (hop : Text.Unbroken operand) : Named q := by
  obtain ⟨hsuffix, hne⟩ := suffix_of_headerPath h
  have hsub := hsuffix.subset
  have htab : ∀ c ∈ q.toList, c ≠ '\t' := by
    intro c hc
    simpa using List.mem_takeWhile_imp (Text.trim_subset _ (hsub hc))
  have hunb : Text.Unbroken q.toList :=
    hop.of_subset fun c hc => (List.takeWhile_sublist _).subset (Text.trim_subset _ (hsub hc))
  have hlast : ∀ c ∈ q.toList.getLast?, Text.isBlank c = false := by
    obtain ⟨front, hfront⟩ := hsuffix
    intro c hc
    have hend : c ∈ (Text.trim (operand.takeWhile (· != '\t'))).getLast? := by
      rw [← hfront, List.getLast?_append, Option.mem_def.1 hc]
      rfl
    exact Text.kept_of_getLast?_dropTrailing c hend
  have hread : ∀ mark : String, (mark = "a/" ∨ mark = "b/") →
      headerPath (mark.toList ++ q.toList) = some q := fun mark hmark => by
    rw [headerPath_marked hmark hne htab hlast, String.ofList_toList]
  exact ⟨hread "a/" (Or.inl rfl), hread "b/" (Or.inr rfl), hsafe, hunb⟩

/-! ## Sections -/

/-- A section that was read. -/
structure FilePatch.Legible (p : FilePatch) : Prop where
  old : ∀ q ∈ p.oldPath, Named q
  new : ∀ q ∈ p.newPath, Named q
  file : p.oldPath ≠ none ∨ p.newPath ≠ none
  hunks_ne_nil : p.hunks ≠ []
  hunks : ∀ h ∈ p.hunks, h.Legible

theorem named_of_mem {l : List Char} {k : Nat} (hl : Text.Unbroken l)
    (hsafe : checkPath (headerPath (l.drop k)) = .ok ()) :
    ∀ q ∈ headerPath (l.drop k), Named q := by
  intro q hq
  rw [Option.mem_def] at hq
  exact named_of_headerPath hq (hq ▸ hsafe) (hl.of_subset (List.drop_subset _ _))

/-- The line after the first line of a file header opens no file. -/
theorem headerCount_of_startsFile {a b : List Char} {ls : List (List Char)}
    (h : startsFile (a :: b :: ls) = true) : headerCount (a :: b :: ls) = 1 + headerCount ls := by
  have hb : startsFile (b :: ls) = false := by
    rw [startsFile, Bool.and_eq_true] at h
    obtain ⟨rest, hrest⟩ := opens_iff.1 h.2
    refine startsFile_eq_false fun _ _ hboth => ?_
    obtain ⟨rest', hrest'⟩ := opens_iff.1 hboth.1
    rw [← hrest] at hrest'
    exact absurd (List.cons.inj hrest').1 (by decide)
  rw [headerCount, h, headerCount_cons_of_not hb]
  rfl

/-- **Sections that are read are legible, one for each file header**, and no
hunk of them has more lines than there are to read. -/
theorem parseSections_legible {fuel : Nat} {ls : List (List Char)} {files : List FilePatch}
    {notes : List String} (hls : ∀ l ∈ ls, Text.Unbroken l) (hfuel : ls.length < fuel)
    (hread : parseSections fuel ls = .ok (files, notes)) :
    (∀ p ∈ files, p.Legible ∧ ∀ k ∈ p.hunks, k.entries.length ≤ ls.length) ∧
      files.length = headerCount ls := by
  induction fuel generalizing ls files notes with
  | zero => omega
  | succ fuel ih =>
    cases ls with
    | nil =>
      simp only [parseSections, Except.ok.injEq, Prod.mk.injEq] at hread
      obtain ⟨rfl, -⟩ := hread
      exact ⟨by simp, rfl⟩
    | cons line ls =>
      rw [parseSections] at hread
      simp only at hread
      split at hread
      · rename_i hfile
        cases ls with
        | nil => cases hfile
        | cons second ls =>
          split at hread
          · cases hread
          rename_i hsome
          obtain ⟨_, hold, hread⟩ := ok_of_bind hread
          obtain ⟨_, hnew, hread⟩ := ok_of_bind hread
          obtain ⟨⟨hs, hnotes, after⟩, hhunks, hread⟩ := ok_of_bind hread
          simp only at hread
          split at hread
          · cases hread
          rename_i hne
          obtain ⟨⟨more, moreNotes⟩, hmore, hread⟩ := ok_of_bind hread
          simp only [Except.ok.injEq, Prod.mk.injEq] at hread
          obtain ⟨rfl, -⟩ := hread
          rw [List.tail_cons] at hhunks
          rw [List.headD_cons] at hnew hsome
          -- the hunks pass over no header, so the sections behind them count the rest
          obtain ⟨hall, hcount, hsuffix⟩ := parseHunks_legible
            (fun l hl => hls l (by simp [hl])) hhunks
          have hafter : after.length ≤ ls.length := hsuffix.length_le
          have hbehind : ls.length ≤ (line :: second :: ls).length := Nat.le_add_right _ 2
          simp only [List.length_cons] at hfuel
          obtain ⟨hrest, hrestCount⟩ := ih
            (fun l hl => hls l (by simp [hsuffix.subset hl])) (by omega) hmore
          refine ⟨fun p hp => ?_, ?_⟩
          · rcases List.mem_cons.1 hp with rfl | hp
            · refine ⟨⟨named_of_mem (hls line (by simp)) hold,
                named_of_mem (hls second (by simp)) hnew, ?_, by simpa using hne,
                fun k hk => (hall k hk).1⟩, fun k hk => (hall k hk).2.trans hbehind⟩
              simp only [Bool.and_eq_true, Option.isNone_iff_eq_none, not_and_or] at hsome
              exact hsome
            · exact ⟨(hrest p hp).1, fun k hk =>
                ((hrest p hp).2 k hk).trans (hafter.trans hbehind)⟩
          · rw [List.length_cons, hrestCount, headerCount_of_startsFile hfile, hcount,
              Nat.add_comm]
      · rename_i hfile
        split at hread
        · cases hread
        · rw [headerCount_cons_of_not (by simpa using hfile)]
          rw [List.length_cons] at hfuel
          obtain ⟨hall, hcount⟩ := ih (fun l hl => hls l (by simp [hl])) (by omega) hread
          refine ⟨fun p hp => ⟨(hall p hp).1, fun k hk => ?_⟩, hcount⟩
          exact ((hall p hp).2 k hk).trans (Nat.le_succ _)

/-- A diff that is read has a section. -/
theorem parseSections_of_parseChars {cs : List Char} {files : List FilePatch}
    {notes : List String} (h : parseChars cs = .ok (files, notes)) :
    parseSections ((Text.lineBodies cs).length + 1) (Text.lineBodies cs) = .ok (files, notes) ∧
      files ≠ [] := by
  unfold parseChars at h
  obtain ⟨⟨files', notes'⟩, hread, h⟩ := ok_of_bind h
  simp only at h
  split at h
  · cases h
  · rename_i hne
    simp only [Except.ok.injEq, Prod.mk.injEq] at h
    obtain ⟨rfl, rfl⟩ := h
    exact ⟨hread, by simpa using hne⟩

/-- **What is read of any text is legible.** -/
theorem parseChars_legible {cs : List Char} {files : List FilePatch} {notes : List String}
    (h : parseChars cs = .ok (files, notes)) :
    (∀ p ∈ files, p.Legible) ∧ files.length = headerCount (Text.lineBodies cs) := by
  obtain ⟨hall, hcount⟩ := parseSections_legible
    (fun l hl => Text.unbroken_of_mem_lineBodies hl) (Nat.lt_succ_self _)
    (parseSections_of_parseChars h).1
  exact ⟨fun p hp => (hall p hp).1, hcount⟩

/-- No hunk has more lines than the text that it was read from. -/
theorem parseChars_length_le {cs : List Char} {files : List FilePatch} {notes : List String}
    (h : parseChars cs = .ok (files, notes)) :
    ∀ p ∈ files, ∀ k ∈ p.hunks, k.entries.length ≤ (Text.lineBodies cs).length := fun p hp =>
  ((parseSections_legible (fun _ hl => Text.unbroken_of_mem_lineBodies hl) (Nat.lt_succ_self _)
    (parseSections_of_parseChars h).1).1 p hp).2

/-- A legible section is readable, if its counts can be read. -/
theorem FilePatch.Legible.readable {p : FilePatch} (h : p.Legible)
    (hc : ∀ k ∈ p.hunks, Countable k.oldCount ∧ Countable k.newCount) : p.Readable :=
  ⟨h.old, h.new, h.file, h.hunks_ne_nil, fun k hk =>
    ⟨(h.hunks k hk).whole, (h.hunks k hk).clear,
      ⟨(h.hunks k hk).oldStart, (hc k hk).1, (h.hunks k hk).newStart, (hc k hk).2⟩,
      (h.hunks k hk).bodies, (h.hunks k hk).section_⟩⟩

end RepairLoop.Diff
