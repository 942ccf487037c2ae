import RepairLoop.Diagnostics
import RepairLoop.Proofs.Json.RoundTrip
import RepairLoop.Proofs.Sequence.Distinct
import RepairLoop.Proofs.Steps
import RepairLoop.Proofs.Text.Character
import RepairLoop.Proofs.Text.Lines
/-!
# Diagnostics — what a digest keeps

The findings of some outputs are those of their content lines in a row (`findings_append`), and
what is kept of them is the beginning of what is found for the first time (`firsts_eq`). So a
digest goes on where one of fewer outputs ends, and it does not matter how the lines are spread
over outputs. It keeps no message twice and is the beginning of all that is said, if its warnings
are spelled alike: a finding is seen under its word, and several words make a warning
(`extract_stable_iff`).
-/

namespace RepairLoop

namespace Diagnostics

/-! ## Content lines -/

/-- A text of one line without blanks around it has one line. -/
theorem contentLines_alone {cs : List Char} (h : Text.Unbroken cs)
    (htrim : Text.trim cs = cs) (hne : cs ≠ []) :
    contentLines (String.ofList cs) = [String.ofList cs] := by
  have hstrip : Text.strip (String.ofList cs) = String.ofList cs := by
    rw [Text.strip, String.toList_ofList, htrim]
  have hkept : (String.ofList cs != "") = true := by
    rw [bne_iff_ne]
    exact fun hnil => hne (String.ofList_injective hnil)
  rw [contentLines, Text.splitLines, String.toList_ofList, Text.lineBodies_alone h hne,
    List.map_singleton, List.map_singleton, hstrip, List.filter_singleton, hkept, cond_true]

/-- **Two outputs with a line feed between them** have the lines of the one and of the other. -/
theorem contentLines_merge (a b : String) :
    contentLines (a ++ "\n" ++ b) = contentLines a ++ contentLines b := by
  have hchars : (a ++ "\n" ++ b).toList = (a.toList ++ ['\n']) ++ b.toList := by
    rw [String.toList_append, String.toList_append]
    rfl
  have hfeed : (a.toList ++ ['\n']).getLast? = some '\n' := List.getLast?_concat
  have hbodies := Text.lineBodies_append_of_feed hfeed b.toList
  unfold contentLines Text.splitLines
  rw [hchars, hbodies]
  rcases Text.lineBodies_feed_behind a.toList with hsame | hmore
  · rw [hsame, List.map_append, List.map_append, List.filter_append]
  · -- the line that is added is blank
    have hblank : ([[]].map String.ofList).map Text.strip = [""] := by decide
    rw [hmore, List.map_append, List.map_append, List.map_append, List.map_append, hblank,
      List.filter_append, List.filter_append]
    simp

/-! ## Findings -/

/-- The lines that can be read have findings. -/
theorem findings_ok_iff {ls : List String} :
    (∃ fs, findings ls = .ok fs) ↔ ∀ l ∈ ls, ∃ f, ofLine l = .ok f := by
  induction ls with
  | nil => simp [findings]
  | cons l ls ih =>
    rw [List.forall_mem_cons, ← ih, findings]
    constructor
    · rintro ⟨fs, h⟩
      obtain ⟨f, hf, h⟩ := ok_of_bind h
      obtain ⟨gs, hgs, -⟩ := ok_of_bind h
      exact ⟨⟨f, hf⟩, gs, hgs⟩
    · rintro ⟨⟨f, hf⟩, gs, hgs⟩
      exact ⟨f.toList ++ gs, by rw [hf, hgs]; rfl⟩

/-- **Findings of lines in a row** are found in a row. -/
theorem findings_append {ls ms : List String} {fs gs : List Finding} (hfs : findings ls = .ok fs)
    (hgs : findings ms = .ok gs) : findings (ls ++ ms) = .ok (fs ++ gs) := by
  induction ls generalizing fs with
  | nil =>
    obtain rfl := Except.ok.inj hfs
    exact hgs
  | cons l ls ih =>
    rw [findings] at hfs
    obtain ⟨f, hf, hfs⟩ := ok_of_bind hfs
    obtain ⟨hs, hhs, hfs⟩ := ok_of_bind hfs
    obtain rfl := Except.ok.inj hfs
    rw [List.cons_append, findings, hf, ih hhs, List.append_assoc]
    rfl

/-- What is kept of some findings is what is found for the first time. -/
theorem firsts_eq (seen fs : List Finding) :
    firsts seen fs = (fs.filter fun f => !seen.contains f).eraseDups := by
  induction fs generalizing seen with
  | nil => rfl
  | cons f fs ih =>
    rw [firsts]
    by_cases hf : f ∈ seen
    · rw [if_pos (by simpa using hf), List.filter_cons_of_neg (by simpa using hf), ih]
    · have hmore : (fun g => !(f :: seen).contains g) =
          fun g => !g == f && !seen.contains g := by
        funext g
        by_cases hg : g = f <;> simp [hg]
      rw [if_neg (by simpa using hf), List.filter_cons_of_pos (by simpa using hf),
        List.eraseDups_cons, ih, List.filter_filter, hmore]

/-- The findings of one sort that say something, each once. -/
def kept (errors : Bool) (fs : List Finding) : List Finding :=
  ((fs.filter (·.message != "")).filter (·.isError == errors)).eraseDups

theorem digest_eq (fs : List Finding) :
    digest fs = ⟨((kept true fs).map Finding.message).take limit,
      ((kept false fs).map Finding.message).take limit⟩ := by
  have hfirsts (gs : List Finding) : firsts [] gs = gs.eraseDups := by
    have hall : gs.filter (fun g => !([] : List Finding).contains g) = gs :=
      List.filter_eq_self.2 fun _ _ => rfl
    rw [firsts_eq, hall]
  have hall (errors : Bool) : messages errors (firsts [] (fs.filter (·.message != ""))) =
      (kept errors fs).map Finding.message := by
    rw [messages, hfirsts, kept, eraseDups_filter fun f : Finding => f.isError == errors]
  rw [digest, hall, hall]

/-- More findings are kept behind those that were. -/
theorem kept_isPrefix_append (errors : Bool) (fs gs : List Finding) :
    kept errors fs <+: kept errors (fs ++ gs) := by
  rw [kept, kept, List.filter_append, List.filter_append]
  exact eraseDups_prefix _ _

/-! ## Digests -/

/-- The first messages of some that say something, each once, and no more than are kept. -/
structure IsDigest (said shown : List String) : Prop where
  distinct : shown.Nodup
  told : "" ∉ shown
  few : shown.length ≤ limit
  first : shown = ((said.filter (· != "")).eraseDups).take limit

theorem isDigest_iff {said shown : List String} :
    IsDigest said shown ↔ shown = ((said.filter (· != "")).eraseDups).take limit := by
  refine ⟨fun h => h.first, ?_⟩
  rintro rfl
  refine ⟨(nodup_eraseDups _).sublist (List.take_sublist _ _), fun hmem => ?_,
    List.length_take_le _ _, rfl⟩
  have hsaid := List.mem_eraseDups.1 (List.mem_of_mem_take hmem)
  simp at hsaid

/-- What is said is what is kept, seen by its message alone. -/
theorem said_eq (errors : Bool) (fs : List Finding) :
    ((messages errors fs).filter (· != "")).eraseDups =
      ((kept errors fs).map Finding.message).eraseDups := by
  have hsame : (fs.filter (·.isError == errors)).filter (·.message != "") =
      (fs.filter (·.message != "")).filter (·.isError == errors) := by
    rw [List.filter_filter, List.filter_filter]
    exact List.filter_congr fun f _ => Bool.and_comm _ _
  rw [kept, eraseDups_map_eraseDups, messages, List.filter_map]
  exact congrArg (fun gs => (gs.map Finding.message).eraseDups) hsame

/-- The messages that are kept are a digest of what is said exactly if none of them is kept
twice. -/
theorem isDigest_kept_iff (errors : Bool) (fs : List Finding) :
    IsDigest (messages errors fs) (((kept errors fs).map Finding.message).take limit) ↔
      (((kept errors fs).map Finding.message).take limit).Nodup := by
  rw [isDigest_iff, said_eq, take_nodup_iff]
  exact eq_comm

/-- No two of the findings that are shown say the same under different words. -/
def SpelledAlike (errors : Bool) (fs : List Finding) : Prop :=
  ∀ f ∈ (kept errors fs).take limit, ∀ g ∈ (kept errors fs).take limit,
    f.message = g.message → f.word = g.word

theorem nodup_messages_iff (errors : Bool) (fs : List Finding) :
    (((kept errors fs).map Finding.message).take limit).Nodup ↔ SpelledAlike errors fs := by
  have hnodup : ((kept errors fs).take limit).Nodup :=
    (nodup_eraseDups _).sublist (List.take_sublist _ _)
  rw [← List.map_take]
  constructor
  · intro h f hf g hg hsame
    rw [List.inj_on_of_nodup_map h hf hg hsame]
  · intro h
    refine hnodup.map_on fun f hf g hg hsame => ?_
    have hword := h f hf g hg hsame
    obtain ⟨w, m⟩ := f
    obtain ⟨w', m'⟩ := g
    exact congrArg₂ Finding.mk hword hsame

/-- **Errors are always spelled alike**: one word makes an error. -/
theorem spelledAlike_errors (fs : List Finding) : SpelledAlike true fs := by
  have hword : ∀ f ∈ (kept true fs).take limit, f.word = "error" := by
    intro f hf
    have hkept := List.mem_eraseDups.1 (List.mem_of_mem_take hf)
    simpa [Finding.isError] using (List.mem_filter.1 hkept).2
  exact fun f hf g hg _ => (hword f hf).trans (hword g hg).symm

/-! ## Stability -/

/-- The texts of some outputs; one that is absent is empty. -/
def texts (outputs : List (Option String)) : List String := outputs.map (·.getD "")

/-- The content lines of some outputs in a row. -/
def linesOf (outputs : List (Option String)) : List String := (texts outputs).flatMap contentLines

/-- The outputs have a digest: its errors and its warnings are each the first distinct messages of
what the lines say, and are where those of the outputs with more behind them begin. -/
def Stable (xs ys : List (Option String)) : Prop :=
  ∃ fs d e, findings (linesOf xs) = .ok fs ∧ extract (texts xs) = .ok d ∧
    extract (texts (xs ++ ys)) = .ok e ∧ IsDigest (messages true fs) d.errors ∧
    IsDigest (messages false fs) d.warnings ∧ d.errors <+: e.errors ∧ d.warnings <+: e.warnings

theorem linesOf_append (xs ys : List (Option String)) :
    linesOf (xs ++ ys) = linesOf xs ++ linesOf ys := by
  rw [linesOf, texts, List.map_append, List.flatMap_append]
  rfl

theorem extract_eq (outputs : List (Option String)) :
    extract (texts outputs) = (findings (linesOf outputs)).map digest := by
  rw [extract, linesOf]
  cases findings ((texts outputs).flatMap contentLines) <;> rfl

theorem extract_of_findings {outputs : List (Option String)} {fs : List Finding}
    (h : findings (linesOf outputs) = .ok fs) : extract (texts outputs) = .ok (digest fs) := by
  rw [extract_eq, h]
  rfl

/-- **When a digest is stable.** It is the first distinct messages, and where the digest of more
outputs begins, exactly if all lines can be read and the warnings that it shows are spelled alike.
It always depends on the content lines alone, so that two outputs may be merged with a line feed
between them. -/
theorem extract_stable_iff (xs ys : List (Option String)) :
    (Stable xs ys ↔ (∀ l ∈ linesOf (xs ++ ys), ∃ f, ofLine l = .ok f) ∧
      ∀ fs, findings (linesOf xs) = .ok fs → SpelledAlike false fs) ∧
    (∀ zs, linesOf zs = linesOf xs → extract (texts zs) = extract (texts xs)) ∧
    ∀ before behind a b, extract (texts (before ++ [a, b] ++ behind)) =
      extract (texts (before ++ [some (a.getD "" ++ "\n" ++ b.getD "")] ++ behind)) := by
  have hlines {xs zs : List (Option String)} (h : linesOf zs = linesOf xs) :
      extract (texts zs) = extract (texts xs) := by rw [extract_eq, extract_eq, h]
  refine ⟨⟨?_, ?_⟩, fun zs h => hlines h, fun before behind a b => hlines ?_⟩
  · rintro ⟨fs, d, e, hfs, hd, he, -, hwarnings, -⟩
    rw [extract_eq] at he
    have hread : ∃ gs, findings (linesOf (xs ++ ys)) = .ok gs := by
      cases hgs : findings (linesOf (xs ++ ys)) with
      | error f =>
        rw [hgs] at he
        cases he
      | ok gs => exact ⟨gs, rfl⟩
    refine ⟨findings_ok_iff.1 hread, fun gs hgs => ?_⟩
    obtain rfl := Except.ok.inj (hfs.symm.trans hgs)
    rw [extract_of_findings hfs, digest_eq] at hd
    obtain rfl := Except.ok.inj hd
    exact (nodup_messages_iff false fs).1 hwarnings.distinct
  · rintro ⟨hread, halike⟩
    rw [linesOf_append, List.forall_mem_append] at hread
    obtain ⟨fs, hfs⟩ := findings_ok_iff.2 hread.1
    obtain ⟨gs, hgs⟩ := findings_ok_iff.2 hread.2
    have hall := findings_append hfs hgs
    rw [← linesOf_append] at hall
    have hdigest (errors : Bool) (h : SpelledAlike errors fs) :=
      (isDigest_kept_iff errors fs).2 ((nodup_messages_iff errors fs).2 h)
    have hprefix (errors : Bool) : ((kept errors fs).map Finding.message).take limit <+:
        ((kept errors (fs ++ gs)).map Finding.message).take limit :=
      ((kept_isPrefix_append errors fs gs).map _).take limit
    refine ⟨fs, _, _, hfs, extract_of_findings hfs, extract_of_findings hall, ?_⟩
    rw [digest_eq, digest_eq]
    exact ⟨hdigest true (spelledAlike_errors fs), hdigest false (halike fs hfs), hprefix true,
      hprefix false⟩
  · have hpair : linesOf [a, b] = linesOf [some (a.getD "" ++ "\n" ++ b.getD "")] := by
      simp [linesOf, texts, contentLines_merge]
    rw [linesOf_append, linesOf_append, linesOf_append, linesOf_append, hpair]

/-- A message that a record and a line of text say is one, in this output and in one behind it;
and its two lines may come in two outputs. -/
theorem extract_stable_mixed :
    let record := "\x7b\"level\": \"Warning\", \"message\": \" odd \"\x7d"
    let xs := [some ("src/a.rs:3:1: error: broken\n" ++ record), none]
    extract (texts xs) = .ok ⟨["src/a.rs:3:1: broken"], ["odd"]⟩ ∧
      Stable xs [some "warning[W1]: odd\nERROR: broken"] ∧
      extract (texts [some "src/a.rs:3:1: error: broken", some record, none]) =
        extract (texts xs) := by
  intro record xs
  obtain ⟨hstable, -, hmerge⟩ := extract_stable_iff xs [some "warning[W1]: odd\nERROR: broken"]
  have hfs : findings (linesOf xs) = .ok [⟨"error", "src/a.rs:3:1: broken"⟩, ⟨"warning", "odd"⟩] := by
    decide +kernel
  have hall : findings (linesOf (xs ++ [some "warning[W1]: odd\nERROR: broken"])) =
      .ok [⟨"error", "src/a.rs:3:1: broken"⟩, ⟨"warning", "odd"⟩, ⟨"warning", "odd"⟩,
        ⟨"error", "broken"⟩] := by
    decide +kernel
  refine ⟨by rw [extract_of_findings hfs]; decide, hstable.2 ⟨findings_ok_iff.1 ⟨_, hall⟩, ?_⟩, ?_⟩
  · intro fs hread
    obtain rfl := Except.ok.inj (hfs.symm.trans hread)
    unfold SpelledAlike
    decide
  · exact hmerge [] [none] (some "src/a.rs:3:1: error: broken") (some record)

end Diagnostics

/-! ## Lines that cannot be read -/

namespace Small

/-- A record with a number of some ones. -/
def counted (n : Nat) : List Char := "\x7b\"n\": ".toList ++ List.replicate n '1' ++ ['\x7d']

/-- It is a line, and no longer read if the number has too many digits. -/
theorem ofLine_counted {n : Nat} (hn : Json.maxDigits < n) :
    Diagnostics.contentLines (String.ofList (counted n)) = [String.ofList (counted n)] ∧
      Diagnostics.ofLine (String.ofList (counted n)) = .error (.tooManyDigits n) := by
  obtain ⟨k, rfl⟩ : ∃ k, n = k + 1 := ⟨n - 1, by omega⟩
  have hones : ∀ c ∈ List.replicate (k + 1) '1', c = '1' := fun c hc => List.eq_of_mem_replicate hc
  have hwhole : Json.IsWhole (List.replicate (k + 1) '1') :=
    ⟨fun c hc => hones c hc ▸ by decide, '1', List.replicate k '1', rfl, .inl (by decide)⟩
  have hunbroken : Text.Unbroken (counted (k + 1)) := by
    refine Text.unbroken_append.2 ⟨Text.unbroken_append.2 ⟨by decide, fun c hc => ?_⟩, by decide⟩
    exact hones c hc ▸ by decide
  have hlast : (counted (k + 1)).getLast? = some '\x7d' := List.getLast?_concat
  have htrim : Text.trim (counted (k + 1)) = counted (k + 1) := by
    refine Text.trim_eq_self (fun c hc => ?_) fun c hc => ?_
    · obtain rfl : '\x7b' = c := Option.some.inj hc
      decide
    · rw [hlast] at hc
      obtain rfl : '\x7d' = c := Option.some.inj hc
      decide
  have hread : Json.parse (String.ofList (counted (k + 1))) = .error (.tooManyDigits (k + 1)) := by
    have hlong := Json.parse_long hwhole (by rwa [List.length_replicate])
    rwa [List.length_replicate] at hlong
  have hopens : (String.ofList (counted (k + 1))).startsWith "\x7b" = true := by
    have hlist : (String.ofList (counted (k + 1))).toList = counted (k + 1) := String.toList_ofList
    rw [String.startsWith_string_iff, hlist]
    exact ⟨"\"n\": ".toList ++ List.replicate (k + 1) '1' ++ ['\x7d'], rfl⟩
  refine ⟨Diagnostics.contentLines_alone hunbroken htrim (List.cons_ne_nil _ _), ?_⟩
  rw [Diagnostics.ofLine, if_pos hopens, hread]

end Small

namespace Diagnostics

/-- **Two outputs whose digests are not stable.** In the first a warning is said again with a
dotless letter, which is another word, and shown twice; the second has a line that cannot be
read, so there is no digest. -/
theorem extract_unstable :
    extract (texts [some "warning: x\nwarn\u0131ng: x"]) = .ok ⟨[], ["x", "x"]⟩ ∧
      ¬ Stable [some "warning: x\nwarn\u0131ng: x"] [] ∧
      ¬ Stable [some (String.ofList (Small.counted 4301))] [] := by
  have htwice : extract (texts [some "warning: x\nwarn\u0131ng: x"]) = .ok ⟨[], ["x", "x"]⟩ := by
    decide +kernel
  refine ⟨htwice, ?_, ?_⟩
  · rintro ⟨_, d, _, -, hd, -, -, hwarnings, -⟩
    obtain rfl := Except.ok.inj (htwice.symm.trans hd)
    exact absurd hwarnings.distinct (by decide)
  · rintro ⟨fs, -, -, hfs, -⟩
    obtain ⟨hlines, hline⟩ := Small.ofLine_counted (n := 4301) (by decide)
    have hread := findings_ok_iff.1 ⟨fs, hfs⟩ (String.ofList (Small.counted 4301)) (by
      rw [linesOf, texts, List.map_singleton, Option.getD_some, List.flatMap_singleton, hlines]
      exact List.mem_singleton_self _)
    obtain ⟨f, hf⟩ := hread
    cases hline.symm.trans hf

end Diagnostics

end RepairLoop
