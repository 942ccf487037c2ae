import Mathlib.Data.List.Chain
import Mathlib.Data.List.TakeDrop
import RepairLoop.Diff.Parser
import RepairLoop.Proofs.Text.Character
import RepairLoop.Proofs.Text.Lines
/-!
# Diff — a diff that is written is read back

First the header of a hunk, then the hunk and the section that it stands in.
-/

/-!
## Diff — hunk headers are read back

A header that is put together from runs of digits is taken apart into the
same runs (`rawHeader?_headerText`), and a number of at most
`Json.maxDigits` digits is read back from the run that writes it. `States`
is what comes of it for a hunk: the line states its four numbers and its
section, whether or not it leaves out a count of one.
-/

namespace RepairLoop.Diff

/-! ## Fixed texts -/

theorem opens_iff {start : String} {line : List Char} :
    opens start line = true ↔ start.toList <+: line :=
  List.isPrefixOf_iff_prefix

theorem opens_append (start : String) (cs : List Char) :
    opens start (start.toList ++ cs) = true :=
  opens_iff.2 (List.prefix_append _ _)

theorem after?_append (start : String) (cs : List Char) :
    after? start (start.toList ++ cs) = some cs := by
  rw [after?, if_pos (opens_append start cs), ← String.length_toList, List.drop_left]

/-! ## Runs of digits -/

/-- The text goes on with something else than a digit. -/
def NoDigit (cs : List Char) : Prop :=
  ∀ c ∈ cs.head?, Text.isDecimalDigit c = false

/-- A run of digits, not empty. -/
structure Digits (ds : List Char) : Prop where
  ne_nil : ds ≠ []
  digit : ∀ c ∈ ds, Text.isDecimalDigit c = true

theorem digits_toDigits (n : Nat) : Digits (Nat.toDigits 10 n) :=
  ⟨Nat.toDigits_ne_nil, fun _ hc => Text.isDecimalDigit_of_mem_toDigits hc⟩

/-- A run of digits is read up to its end. -/
theorem digits1?_append {ds rest : List Char} (hd : Digits ds) (hr : NoDigit rest) :
    digits1? (ds ++ rest) = some (ds, rest) := by
  have htake : rest.takeWhile Text.isDecimalDigit = [] := by
    cases rest with
    | nil => rfl
    | cons c cs => simp [hr c rfl]
  have hdrop : rest.dropWhile Text.isDecimalDigit = rest := by
    cases rest with
    | nil => rfl
    | cons c cs => simp [hr c rfl]
  have hspan : (ds ++ rest).span Text.isDecimalDigit = (ds, rest) := by
    rw [List.span_eq_takeWhile_dropWhile, List.takeWhile_append_of_pos hd.digit,
      List.dropWhile_append_of_pos hd.digit, htake, hdrop, List.append_nil]
  unfold digits1?
  rw [hspan]
  split
  · rename_i heq
    exact absurd (Prod.mk.inj heq).1 hd.ne_nil
  · rfl

/-- A count behind its comma, if there is one. -/
def countText : Option (List Char) → List Char
  | none => []
  | some ds => ',' :: ds

theorem optionalCount_countText {count : Option (List Char)} {rest : List Char}
    (hc : ∀ ds ∈ count, Digits ds) (hr : NoDigit rest) (hcomma : rest.head? ≠ some ',') :
    optionalCount (countText count ++ rest) = (count, rest) := by
  cases count with
  | none =>
    unfold countText optionalCount
    rw [List.nil_append]
    split
    · exact absurd rfl hcomma
    · rfl
  | some ds =>
    rw [countText, List.cons_append, optionalCount, digits1?_append (hc ds rfl) hr]

/-- A count starts with its comma. -/
theorem noDigit_countText {count : Option (List Char)} {rest : List Char} (hr : NoDigit rest) :
    NoDigit (countText count ++ rest) := by
  cases count with
  | none => exact hr
  | some ds =>
    intro c hc
    simp only [countText, List.cons_append, List.head?_cons, Option.mem_some_iff] at hc
    rw [← hc]
    decide

/-! ## The header of a hunk -/

/-- A header as it is written. -/
def headerText (raw : RawHeader) : List Char :=
  "@@ -".toList ++ (raw.oldStart ++ (countText raw.oldCount ++ (" +".toList ++
    (raw.newStart ++ (countText raw.newCount ++ (" @@".toList ++ raw.section_))))))

/-- **A header is taken apart into what it was written from.** -/
theorem rawHeader?_headerText (raw : RawHeader) (hos : Digits raw.oldStart)
    (hoc : ∀ ds ∈ raw.oldCount, Digits ds) (hns : Digits raw.newStart)
    (hnc : ∀ ds ∈ raw.newCount, Digits ds) : rawHeader? (headerText raw) = some raw := by
  have hend : NoDigit (" @@".toList ++ raw.section_) := fun c hc => by
    obtain rfl : ' ' = c := by simpa using hc
    decide
  have hmid : ∀ cs : List Char, NoDigit (" +".toList ++ cs) := fun cs c hc => by
    obtain rfl : ' ' = c := by simpa using hc
    decide
  unfold rawHeader? headerText
  rw [after?_append]
  simp only [Option.bind_eq_bind, Option.bind_some]
  rw [digits1?_append hos (noDigit_countText (hmid _))]
  simp only [Option.bind_some]
  rw [optionalCount_countText hoc (hmid _) (by simp)]
  simp only
  rw [after?_append]
  simp only [Option.bind_some]
  rw [digits1?_append hns (noDigit_countText hend)]
  simp only [Option.bind_some]
  rw [optionalCount_countText hnc hend (by simp)]
  simp only
  rw [after?_append]
  rfl

theorem startsHunk_headerText (raw : RawHeader) : startsHunk (headerText raw) = true :=
  opens_iff.2 ⟨_, rfl⟩

/-- A number with few enough digits to be read. -/
def Countable (n : Nat) : Prop :=
  n < 10 ^ Json.maxDigits

/-- The bound is out of reach: a number of `k` digits meets it up to
`k = Json.maxDigits`. -/
theorem countable_of_lt {n k : Nat} (hk : k ≤ Json.maxDigits) (h : n < 10 ^ k) : Countable n := by
  unfold Countable
  generalize Json.maxDigits = bound at hk ⊢
  exact Nat.lt_of_lt_of_le h (Nat.pow_le_pow_right (Nat.succ_pos 9) hk)

/-- **A number is read back from its digits.** -/
theorem number_toDigits {n : Nat} (h : Countable n) : number (Nat.toDigits 10 n) = .ok n := by
  have hlen : (Nat.toDigits 10 n).length ≤ Json.maxDigits :=
    (Nat.length_toDigits_le_iff (by decide) (by decide)).2 h
  rw [number, if_neg (Nat.not_lt.2 hlen), Text.decimalNumber?_toDigits]
  rfl

/-- The line states the numbers and the section of the hunk. -/
def States (line : List Char) (h : Hunk) : Prop :=
  ∃ raw, rawHeader? line = some raw ∧ number raw.oldStart = .ok h.oldStart ∧
    countOrOne raw.oldCount = .ok h.oldCount ∧ number raw.newStart = .ok h.newStart ∧
    countOrOne raw.newCount = .ok h.newCount ∧ raw.section_ = h.section_

/-- Every number of the hunk can be read. -/
structure Hunk.Countable (h : Hunk) : Prop where
  oldStart : Diff.Countable h.oldStart
  oldCount : Diff.Countable h.oldCount
  newStart : Diff.Countable h.newStart
  newCount : Diff.Countable h.newCount

theorem header_eq (h : Hunk) :
    h.header = headerText ⟨Nat.toDigits 10 h.oldStart, some (Nat.toDigits 10 h.oldCount),
      Nat.toDigits 10 h.newStart, some (Nat.toDigits 10 h.newCount), h.section_⟩ := by
  simp [Hunk.header, headerText, countText, ToString.toString]

/-- A header with all four numbers states the hunk. -/
theorem states_header {h : Hunk} (hc : h.Countable) : States h.header h := by
  have hcount : ∀ n, ∀ ds ∈ some (Nat.toDigits 10 n), Digits ds := fun n ds hds => by
    rw [← Option.mem_some.1 hds]
    exact digits_toDigits n
  have hraw := rawHeader?_headerText ⟨Nat.toDigits 10 h.oldStart,
    some (Nat.toDigits 10 h.oldCount), Nat.toDigits 10 h.newStart,
    some (Nat.toDigits 10 h.newCount), h.section_⟩ (digits_toDigits _) (hcount _)
    (digits_toDigits _) (hcount _)
  rw [← header_eq] at hraw
  exact ⟨_, hraw, number_toDigits hc.oldStart, number_toDigits hc.oldCount,
    number_toDigits hc.newStart, number_toDigits hc.newCount, rfl⟩

end RepairLoop.Diff

/-!
## Diff — hunks and sections are read back

A hunk is read back from its header and its lines as far as none of them,
with the line after it, looks like a file header (`parseHunk_eq`), and a
section from its file header and its hunks (`parseSections_section`). Both
are stated for any lines that a hunk can hold, so that they hold of a
rendered diff as well as of one made between two texts. Behind the last hunk
other lines may follow: what is no line of a hunk ends it (`Halts`), and
empty lines, which look like context, are dropped again where the stated
count is right (`readHunk_blanks`).
-/

namespace RepairLoop.Diff

/-! ## The lines of a hunk -/

/-- A text that opens with something else. -/
theorem opens_eq_false {start : String} {line : List Char} {c : Char}
    (hs : start.toList.head? = some c) (hl : line.head? ≠ some c) : opens start line = false := by
  cases h : opens start line with
  | false => rfl
  | true =>
    obtain ⟨rest, hrest⟩ := opens_iff.1 h
    refine absurd ?_ hl
    rw [← hrest, List.head?_append, hs]
    rfl

/-- No line of the hunk looks, with the one after it, like a file header. -/
def Clear (es : List Entry) : Prop :=
  es.IsChain fun e f => ¬ (opens "--- " e.line = true ∧ opens "+++ " f.line = true)

/-- What follows ends a hunk at once: nothing, or a line that starts with no
tag. -/
def Halts (after : List (List Char)) : Prop :=
  ∀ l ∈ after.head?, ∃ c ∈ l.head?, Tag.ofChar? c = none

/-- What follows goes on with another hunk or another section. -/
def Stops (after : List (List Char)) : Prop :=
  ∀ l ∈ after.head?, startsHunk l = true ∨ opens "diff --git " l = true

theorem Entry.head?_line (e : Entry) : e.line.head? = some e.tag.char := rfl

theorem startsHunk_line (e : Entry) : startsHunk e.line = false := by
  refine opens_eq_false (c := '@') rfl ?_
  rw [e.head?_line]
  cases e.tag <;> decide

theorem not_opens_git_line (e : Entry) : opens "diff --git " e.line = false := by
  refine opens_eq_false (c := 'd') rfl ?_
  rw [e.head?_line]
  cases e.tag <;> decide

theorem Stops.halts {after : List (List Char)} (h : Stops after) : Halts after := by
  intro l hl
  rcases h l hl with h | h
  · obtain ⟨rest, hrest⟩ := opens_iff.1 h
    exact ⟨'@', by rw [← hrest]; rfl, rfl⟩
  · obtain ⟨rest, hrest⟩ := opens_iff.1 h
    exact ⟨'d', by rw [← hrest]; rfl, rfl⟩

/-- A line that ends a hunk is no part of a file header. -/
theorem Halts.not_header {after : List (List Char)} (h : Halts after) :
    ∀ l ∈ after.head?, opens "+++ " l = false := by
  intro l hl
  obtain ⟨c, hc, htag⟩ := h l hl
  refine opens_eq_false (c := '+') rfl fun hplus => ?_
  obtain rfl : c = '+' := Option.some.inj (hc.symm.trans hplus)
  cases htag

/-- Where the next line is no second header line, no file starts. -/
theorem startsFile_eq_false {line : List Char} {rest : List (List Char)}
    (h : ∀ l ∈ rest.head?, ¬ (opens "--- " line = true ∧ opens "+++ " l = true)) :
    startsFile (line :: rest) = false := by
  cases rest with
  | nil => rfl
  | cons l ls =>
    rw [startsFile, Bool.and_eq_false_iff]
    by_contra hboth
    rw [not_or, Bool.not_eq_false, Bool.not_eq_false] at hboth
    exact h l rfl hboth

theorem hunkBody_halts {after : List (List Char)} (h : Halts after) :
    hunkBody after = ([], after) := by
  cases after with
  | nil => rfl
  | cons l ls =>
    obtain ⟨c, hc, htag⟩ := h l rfl
    rw [hunkBody.eq_def]
    simp only
    split
    · rfl
    · cases l with
      | nil => cases hc
      | cons d body =>
        obtain rfl : d = c := Option.some.inj hc
        simp only [htag]

/-- What a hunk holds of a line: of an empty one an empty line of context. -/
def entryOf : List Char → Entry
  | [] => ⟨.context, []⟩
  | c :: body => ⟨(Tag.ofChar? c).getD .context, body⟩

@[simp] theorem entryOf_line (e : Entry) : entryOf e.line = e := by
  rw [Entry.line, entryOf, Tag.ofChar?_char]
  rfl

/-- A line that a hunk can hold. -/
def Held (l : List Char) : Prop :=
  l = [] ∨ ∃ e : Entry, l = e.line

/-- A line that opens with something is the line of its entry. -/
theorem Held.line_of_opens {l : List Char} {start : String} (hl : Held l)
    (hs : start.toList ≠ []) (h : opens start l = true) : (entryOf l).line = l := by
  rcases hl with rfl | ⟨e, rfl⟩
  · obtain ⟨rest, hrest⟩ := opens_iff.1 h
    exact absurd (List.append_eq_nil_iff.1 hrest).1 hs
  · rw [entryOf_line]

/-- And what the line of its entry opens with, unless that is the blank of an
empty line, it opens with. -/
theorem Held.opens_of_line {l : List Char} {start : String} (hl : Held l)
    (hs : opens start [' '] = false) (h : opens start (entryOf l).line = true) :
    opens start l = true := by
  rcases hl with rfl | ⟨e, rfl⟩
  · exact absurd (h.symm.trans hs) (by decide)
  · rwa [entryOf_line] at h

/-- **The lines of a hunk are read back**, up to what ends it. -/
theorem hunkBody_eq {ls after : List (List Char)} (hls : ∀ l ∈ ls, Held l)
    (hclear : Clear (ls.map entryOf)) (hafter : Halts after) :
    hunkBody (ls ++ after) = (ls.map entryOf, after) := by
  induction ls with
  | nil => exact hunkBody_halts hafter
  | cons l ls ih =>
    rw [List.map_cons] at hclear
    obtain ⟨hnext, hrest⟩ := List.isChain_cons.1 hclear
    have hih := ih (fun m hm => hls m (by simp [hm])) hrest
    have hl := hls l (by simp)
    -- neither the next line of the hunk nor what ends it makes a header of this one
    have hfile : startsFile (l :: (ls ++ after)) = false := by
      refine startsFile_eq_false fun m hm => ?_
      rintro ⟨hminus, hplus⟩
      cases ls with
      | nil =>
        rw [hafter.not_header m hm] at hplus
        cases hplus
      | cons k ks =>
        obtain rfl : k = m := by simpa using hm
        refine hnext (entryOf k) rfl ⟨?_, ?_⟩
        · rwa [hl.line_of_opens (by simp) hminus]
        · rwa [(hls k (by simp)).line_of_opens (by simp) hplus]
    rw [List.cons_append, hunkBody.eq_def]
    rcases hl with rfl | ⟨⟨tag, body⟩, rfl⟩
    · simp only [hfile, hih, List.map_cons, entryOf]
      rw [if_neg (by decide)]
    · simp only [startsHunk_line, not_opens_git_line, hfile, Bool.or_self, Bool.false_eq_true,
        if_false, List.map_cons, entryOf_line]
      simp only [Entry.line, Tag.ofChar?_char, hih]

/-! ## Hunks -/

/-- The counts of the hunk are those of its lines, one of which is a line of
a file. -/
structure Hunk.Whole (h : Hunk) : Prop where
  oldCount : h.oldCount = oldSize h.entries
  newCount : h.newCount = newSize h.entries
  line : ∃ e ∈ h.entries, e.tag ≠ .marker

/-- **Empty lines behind a hunk are dropped** where the stated count is that of
the lines in front of them. The lines are given last first. -/
theorem dropSurplus_eq {count : Nat} {es : List Entry} (h : oldSize es = count) (k : Nat) :
    dropSurplus count (List.replicate k ⟨.context, []⟩ ++ es) = es := by
  induction k with
  | zero =>
    cases es with
    | nil => rfl
    | cons e es =>
      rw [List.replicate_zero, List.nil_append, dropSurplus, if_neg]
      rw [Bool.and_eq_true, decide_eq_true_eq]
      exact fun hc => Nat.not_lt.2 (Nat.le_of_eq h) hc.2
  | succ k ih =>
    have hsize : oldSize (List.replicate (k + 1) ⟨.context, []⟩ ++ es) > count := by
      have hall : oldSize (List.replicate (k + 1) ⟨.context, []⟩) = k + 1 :=
        List.countP_replicate.trans (if_pos rfl)
      rw [oldSize] at hall h ⊢
      rw [List.countP_append, hall]
      omega
    rw [List.replicate_succ, List.cons_append] at hsize ⊢
    rw [dropSurplus, if_pos (by simp [hsize]), ih]

/-- What is read of lines behind a header with the numbers of a hunk: the
counts are taken from the lines. -/
def readHunk (h : Hunk) (ls : List (List Char)) : Hunk :=
  let es := (dropSurplus h.oldCount (ls.map entryOf).reverse).reverse
  ⟨h.oldStart, oldSize es, h.newStart, newSize es, es, h.section_⟩

/-- What is noted of such a hunk. -/
def readNote (h : Hunk) (ls : List (List Char)) : Option String :=
  let k := readHunk h ls
  if k.oldCount == h.oldCount && k.newCount == h.newCount then none
  else some (recountNote h.oldStart h.oldCount h.newStart h.newCount k.oldCount k.newCount)

/-- **A hunk is read from a header that states its numbers and from its
lines.** -/
theorem parseHunk_eq {line : List Char} {h : Hunk} {ls after : List (List Char)}
    (hline : States line h) (hls : ∀ l ∈ ls, Held l) (hclear : Clear (ls.map entryOf))
    (hany : ∃ e ∈ (readHunk h ls).entries, e.tag ≠ .marker) (hafter : Halts after) :
    parseHunk line (ls ++ after) = .ok (readHunk h ls, readNote h ls, after) := by
  obtain ⟨raw, hraw, hos, hoc, hns, hnc, hsec⟩ := hline
  have hany' : (readHunk h ls).entries.any (·.tag != .marker) = true := by
    obtain ⟨e, he, htag⟩ := hany
    exact List.any_eq_true.2 ⟨e, he, by simpa using htag⟩
  rw [parseHunk, hraw]
  simp only [hos, hoc, hns, hnc, bind, Except.bind, hunkBody_eq hls hclear hafter, hsec]
  exact if_pos hany'

theorem map_entryOf_line (es : List Entry) : (es.map Entry.line).map entryOf = es := by
  rw [List.map_map]
  exact (List.map_congr_left fun e _ => entryOf_line e).trans (List.map_id _)

theorem map_entryOf_blanks (k : Nat) :
    (List.replicate k []).map entryOf = List.replicate k ⟨.context, []⟩ :=
  List.map_replicate

/-- The lines of a hunk with the right counts are read as the hunk, whatever empty
lines follow them. -/
theorem readHunk_blanks {h : Hunk} (hw : h.Whole) (k : Nat) :
    readHunk h (h.entries.map Entry.line ++ List.replicate k []) = h := by
  have hcount : oldSize h.entries.reverse = h.oldCount := by
    rw [hw.oldCount, oldSize, oldSize, List.countP_reverse]
  have hkeep : (dropSurplus h.oldCount
      (h.entries ++ List.replicate k (⟨.context, []⟩ : Entry)).reverse).reverse = h.entries := by
    rw [List.reverse_append, List.reverse_replicate, dropSurplus_eq hcount, List.reverse_reverse]
  rw [readHunk, List.map_append, map_entryOf_line, map_entryOf_blanks]
  simp only [hkeep]
  rw [← hw.oldCount, ← hw.newCount]

/-- And nothing is noted of them. -/
theorem readNote_blanks {h : Hunk} (hw : h.Whole) (k : Nat) :
    readNote h (h.entries.map Entry.line ++ List.replicate k []) = none := by
  rw [readNote, readHunk_blanks hw]
  simp

theorem readHunk_lines {h : Hunk} (hw : h.Whole) : readHunk h (h.entries.map Entry.line) = h := by
  simpa using readHunk_blanks hw 0

theorem readNote_lines {h : Hunk} (hw : h.Whole) :
    readNote h (h.entries.map Entry.line) = none := by
  simpa using readNote_blanks hw 0

/-- Empty lines behind a hunk look like no part of a file header. -/
theorem Clear.blanks {es : List Entry} (h : Clear es) (k : Nat) :
    Clear (es ++ List.replicate k ⟨.context, []⟩) := by
  induction k with
  | zero => simpa using h
  | succ k ih =>
    rw [List.replicate_succ', ← List.append_assoc]
    refine List.isChain_append.2 ⟨ih, List.IsChain.singleton _, fun e _ f hf hboth => ?_⟩
    obtain rfl : f = ⟨.context, []⟩ := by simpa using hf.symm
    exact absurd hboth.2 (by decide)

/-- What follows a section: nothing, or the first line of another. -/
def Ends (after : List (List Char)) : Prop :=
  ∀ l ∈ after.head?, opens "diff --git " l = true

theorem Ends.stops {after : List (List Char)} (h : Ends after) : Stops after :=
  fun l hl => Or.inr (h l hl)

theorem startsHunk_of_git {l : List Char} (h : opens "diff --git " l = true) :
    startsHunk l = false := by
  obtain ⟨rest, hrest⟩ := opens_iff.1 h
  refine opens_eq_false (c := '@') rfl ?_
  rw [← hrest]
  simp

section Shown

variable {α : Type} (line : α → List Char) (body : α → List (List Char)) (hunk : α → Hunk)
  (note : α → Option String)

/-- The lines of some hunks, each behind its header. -/
def hunkLines (xs : List α) : List (List Char) :=
  xs.flatMap fun x => line x :: body x

theorem length_le_hunkLines (xs : List α) : xs.length ≤ (hunkLines line body xs).length := by
  induction xs with
  | nil => exact Nat.le_refl _
  | cons x xs ih =>
    simp only [hunkLines, List.flatMap_cons, List.length_append, List.length_cons] at ih ⊢
    omega

/-- The header and the lines behind it are read as the hunk, with the note. -/
structure Shown (x : α) : Prop where
  opens : startsHunk (line x) = true
  read : ∀ after, Stops after → parseHunk (line x) (body x ++ after) = .ok (hunk x, note x, after)

variable {line body hunk note}

/-- **Hunks in a row are read back**, with what comes of the last one in front of
what follows it. -/
theorem parseHunks_eq {xs : List α} {fuel : Nat} {after rest : List (List Char)} (hne : xs ≠ [])
    (hxs : ∀ x ∈ xs, Shown line body hunk note x) (hfuel : xs.length ≤ fuel)
    (hlast : ∀ x ∈ xs, parseHunk (line x) (body x ++ after) = .ok (hunk x, note x, rest))
    (hrest : ∀ l ∈ rest.head?, startsHunk l = false) :
    parseHunks fuel (hunkLines line body xs ++ after) =
      .ok (xs.map hunk, xs.flatMap fun x => (note x).toList, rest) := by
  have hend : ∀ fuel, parseHunks fuel rest = .ok ([], [], rest) := by
    intro fuel
    cases fuel with
    | zero => rfl
    | succ fuel =>
      cases rest with
      | nil => rfl
      | cons l ls => simp [parseHunks, hrest l rfl]
  induction xs generalizing fuel with
  | nil => exact absurd rfl hne
  | cons x xs ih =>
    obtain ⟨hopens, hread⟩ := hxs x (by simp)
    obtain ⟨fuel, rfl⟩ : ∃ n, fuel = n + 1 := ⟨fuel - 1, by
      rw [List.length_cons] at hfuel
      omega⟩
    have hlines : hunkLines line body (x :: xs) ++ after =
        line x :: (body x ++ (hunkLines line body xs ++ after)) := by
      simp [hunkLines]
    rw [hlines, parseHunks, if_pos hopens]
    cases xs with
    | nil =>
      simp only [hunkLines, List.flatMap_nil, List.nil_append, hlast x (by simp), hend, bind,
        Except.bind]
      rfl
    | cons y ys =>
      -- the hunk is stopped by the header of the next one
      have hstops : Stops (hunkLines line body (y :: ys) ++ after) := by
        intro l hl
        simp only [hunkLines, List.flatMap_cons, List.cons_append, List.head?_cons,
          Option.mem_some_iff] at hl
        rw [← hl]
        exact Or.inl (hxs y (by simp)).opens
      have hih := ih (List.cons_ne_nil _ _) (fun z hz => hxs z (by simp [hz]))
        (Nat.le_of_succ_le_succ hfuel) fun z hz => hlast z (by simp [hz])
      simp only [hread _ hstops, hih, bind, Except.bind]
      rfl

/-! ## Sections -/

/-- A line in front of a file header is passed over. -/
structure Passed (l : List Char) : Prop where
  file : opens "--- " l = false
  hunk : startsHunk l = false

theorem parseSections_passed {prelude ls : List (List Char)} {fuel : Nat}
    (hp : ∀ l ∈ prelude, Passed l) :
    parseSections (fuel + prelude.length) (prelude ++ ls) = parseSections fuel ls := by
  induction prelude with
  | nil => rfl
  | cons l prelude ih =>
    obtain ⟨hfile, hhunk⟩ := hp l (by simp)
    have hstart : startsFile (l :: (prelude ++ ls)) = false :=
      startsFile_eq_false fun _ _ => by simp [hfile]
    rw [List.length_cons, ← Nat.add_assoc, List.cons_append, parseSections]
    simp only [hstart, hhunk, Bool.false_eq_true, if_false]
    exact ih fun m hm => hp m (by simp [hm])

/-- **A section is read back from its file header and its hunks**, and what its
last hunk leaves is read next. -/
theorem parseSections_section_of_last {prelude after rest : List (List Char)}
    {left right : List Char} {xs : List α} {oldPath newPath : Option String} {fuel : Nat}
    (hp : ∀ l ∈ prelude, Passed l) (hleft : headerPath left = oldPath)
    (hright : headerPath right = newPath) (hsome : oldPath ≠ none ∨ newPath ≠ none)
    (hold : checkPath oldPath = .ok ()) (hnew : checkPath newPath = .ok ())
    (hne : xs ≠ []) (hxs : ∀ x ∈ xs, Shown line body hunk note x)
    (hlast : ∀ x ∈ xs, parseHunk (line x) (body x ++ after) = .ok (hunk x, note x, rest))
    (hrest : ∀ l ∈ rest.head?, startsHunk l = false) :
    parseSections (fuel + 1 + prelude.length)
        (prelude ++ ("--- ".toList ++ left) :: ("+++ ".toList ++ right) ::
          (hunkLines line body xs ++ after)) =
      (parseSections fuel rest).map fun r =>
        (⟨oldPath, newPath, xs.map hunk⟩ :: r.1,
          (xs.flatMap fun x => (note x).toList) ++ r.2) := by
  -- the lines leave fuel for every hunk
  have hsize : xs.length ≤ (("--- ".toList ++ left) :: ("+++ ".toList ++ right) ::
      (hunkLines line body xs ++ after)).length := by
    have hlines := length_le_hunkLines line body xs
    simp only [List.length_cons, List.length_append]
    omega
  have hnone : ¬ (oldPath.isNone && newPath.isNone) = true := by
    rcases hsome with h | h <;> simp [h]
  have hempty : ¬ (xs.map hunk).isEmpty = true := by simpa using hne
  have hl : headerPath (("--- ".toList ++ left).drop 4) = oldPath := by
    rw [show (4 : Nat) = "--- ".toList.length from rfl, List.drop_left, hleft]
  have hr : headerPath (("+++ ".toList ++ right).drop 4) = newPath := by
    rw [show (4 : Nat) = "+++ ".toList.length from rfl, List.drop_left, hright]
  rw [parseSections_passed hp, parseSections]
  simp only [startsFile, opens_append, Bool.and_self, if_true, List.headD_cons, List.tail_cons,
    hl, hr, if_neg hnone, hold, hnew, parseHunks_eq hne hxs hsize hlast hrest, bind, Except.bind,
    if_neg hempty]
  cases parseSections fuel rest <;> rfl

/-- **In front of another section all of it is read back.** -/
theorem parseSections_section {prelude after : List (List Char)} {left right : List Char}
    {xs : List α} {oldPath newPath : Option String} {fuel : Nat}
    (hp : ∀ l ∈ prelude, Passed l) (hleft : headerPath left = oldPath)
    (hright : headerPath right = newPath) (hsome : oldPath ≠ none ∨ newPath ≠ none)
    (hold : checkPath oldPath = .ok ()) (hnew : checkPath newPath = .ok ())
    (hne : xs ≠ []) (hxs : ∀ x ∈ xs, Shown line body hunk note x) (hafter : Ends after) :
    parseSections (fuel + 1 + prelude.length)
        (prelude ++ ("--- ".toList ++ left) :: ("+++ ".toList ++ right) ::
          (hunkLines line body xs ++ after)) =
      (parseSections fuel after).map fun r =>
        (⟨oldPath, newPath, xs.map hunk⟩ :: r.1,
          (xs.flatMap fun x => (note x).toList) ++ r.2) :=
  parseSections_section_of_last hp hleft hright hsome hold hnew hne hxs
    (fun x hx => (hxs x hx).read after hafter.stops) fun l hl => startsHunk_of_git (hafter l hl)

end Shown

end RepairLoop.Diff
