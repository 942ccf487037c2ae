import RepairLoop.Proofs.Diff.Restated
import RepairLoop.Proofs.Proposal.Draft
/-!
# Proposal — the diff of a patch and its change

The diff that a patch carries is not the one that was read: it is stated
anew. `build_consistent_iff` says when it still denotes the change that was
scored: always where the file is created or removed, and otherwise exactly
where it shows one file header and its hunks survive being read, as they do
for every plain source. A form feed in the source, or a removed line with
two dashes in front of an added one with two plus signs, comes to a patch
whose diff denotes another change or none.
-/

namespace RepairLoop

open Diff (Countable Denotes FilePatch Restores headersOf)

namespace Patch

/-- The diff of the patch denotes its change. -/
def Consistent (p : Patch) : Prop :=
  Denotes p.diff p.originalCode p.patchedCode

/-- The texts of a patch are short enough for their lengths to be read where
they are written down. -/
structure Measured (p : Patch) : Prop where
  original : Countable p.originalCode.toList.length
  patched : Countable p.patchedCode.toList.length
  diff : Countable p.diff.toList.length

end Patch

namespace Proposal

/-- The completion changes a file that exists before and after. -/
def Rewrites (completion path : String) : Prop :=
  ∃ x target, Diff.extract completion = .ok x ∧ targetOf x path = .ok target ∧
    target.isNew = false ∧ target.isDeleted = false

/-- The path of a section that was read can be named again. -/
theorem named_path {target : FilePatch} (h : target.Legible) : Diff.Named target.path := by
  obtain ⟨old, new, hunks⟩ := target
  cases new with
  | some q => exact h.new q rfl
  | none =>
    cases old with
    | some q => exact h.old q rfl
    | none =>
      rcases h.file with hne | hne
      · exact absurd rfl hne
      · exact absurd rfl hne

theorem countable_lines {s : String} (h : Countable s.toList.length) :
    Countable (Text.fullLines s.toList).length :=
  Nat.lt_of_le_of_lt (Text.length_fullLines_le _) h

variable {path completion : String} {c : FileChange} {target : FilePatch}

/-- A completion changes a file that exists unless its section creates or
removes it. -/
theorem Comes.rewrites_iff (h : Comes path completion c target) :
    Rewrites completion path ↔ (target.isNew || target.isDeleted) = false := by
  obtain ⟨x, hx, htarget⟩ := h.extracted
  rw [Bool.or_eq_false_iff]
  constructor
  · rintro ⟨x', target', hx', htarget', hfile⟩
    obtain rfl : x = x' := Except.ok.inj (hx.symm.trans hx')
    obtain rfl : target = target' := Except.ok.inj (htarget.symm.trans htarget')
    exact hfile
  · exact fun hfile => ⟨x, target, hx, htarget, hfile⟩

/-- Of a plain file the change makes a plain file. -/
theorem Comes.plain_patched (h : Comes path completion c target)
    (hplain : Text.Plain c.original.toList) : Text.Plain c.patched.toList := by
  obtain ⟨x, hx, htarget⟩ := h.extracted
  refine Diff.applyChars_plain hplain (targetOf_legible hx htarget) ?_
  have happlied := h.applied
  rw [Diff.apply] at happlied
  cases hchars : Diff.applyChars c.original.toList target with
  | error e =>
    rw [hchars] at happlied
    cases happlied
  | ok t =>
    rw [hchars] at happlied
    rw [← Except.ok.inj happlied, String.toList_ofList]

/-- **A change that creates or removes its file is read back from its
statement.** -/
theorem Comes.denotes_whole (h : Comes path completion c target)
    (hwhole : ¬ Rewrites completion path) (hdiff : Countable c.diff.toList.length) :
    Denotes c.diff c.original c.patched := by
  rw [h.rewrites_iff, Bool.not_eq_false] at hwhole
  obtain ⟨x, hx, htarget⟩ := h.extracted
  have hrender : c.diff = Diff.render [target] := by
    rw [h.diff, restated, if_pos hwhole]
  rw [hrender] at hdiff ⊢
  exact Diff.render_denotes (targetOf_legible hx htarget) hdiff h.applied

/-- **Any other change is read back exactly where its statement shows one
file header and its hunks survive being read.** -/
theorem Comes.denotes_iff (h : Comes path completion c target)
    (hrewrites : Rewrites completion path) (horiginal : Countable c.original.toList.length)
    (hpatched : Countable c.patched.toList.length) :
    Denotes c.diff c.original c.patched ↔
      headersOf c.diff = 1 ∧ Restores c.original c.patched := by
  rw [h.rewrites_iff, ← Bool.not_eq_true] at hrewrites
  obtain ⟨x, hx, htarget⟩ := h.extracted
  have hmake : c.diff = Diff.make c.original c.patched target.path := by
    rw [h.diff, restated, if_neg hrewrites]
  have hne : c.original ≠ c.patched := by
    intro heq
    refine h.diff_ne ?_
    rw [hmake, Diff.make, ← heq, (Diff.makeChars_eq_nil_iff _ _ _).2 rfl]
  rw [hmake]
  exact Diff.make_denotes_iff ⟨countable_lines horiginal, countable_lines hpatched⟩
    (named_path (targetOf_legible hx htarget)) hne

end Proposal

namespace Proposer

/-- A draft that is the change between these texts, stated as this diff. -/
def changes (d : Except Fault Proposal.Draft) (original patched diff : String) : Bool :=
  match d with
  | .ok (.change c) =>
    Language.ofPath c.path == .text && c.original == original && c.patched == patched &&
      c.diff == diff
  | _ => false

/-- A patch is built of such a draft, whatever its scores are. -/
theorem build_of_changes {p : Proposer} {issue : Issue} {completion source original patched diff :
    String} {w : World} (index : Int)
    (h : changes (Proposal.draft (Proposal.readSource w.files p.root) issue.filePath source
      completion) original patched diff = true) :
    ∃ q w', (p.build issue completion source index).run w = (.ok q, w') ∧
      q.errorKind ≠ some .parseError ∧ q.originalCode = original ∧ q.patchedCode = patched ∧
      q.diff = diff := by
  unfold changes at h
  split at h
  · rename_i c hdraft
    simp only [Bool.and_eq_true, beq_iff_eq] at h
    obtain ⟨⟨⟨hlanguage, rfl⟩, rfl⟩, rfl⟩ := h
    obtain ⟨q, w', hrun, ho, hp, hd, hkind⟩ := build_ok index hdraft
      (hlanguage ▸ rfl : Proposal.breakingChanges c.original c.patched _ = .ok [])
      (hlanguage ▸ rfl : Proposal.dependencies c.patched _ = .ok [])
    exact ⟨q, w', hrun, hkind, ho, hp, hd⟩
  · cases h

/-- **When a patch that is built denotes its change**: always where it
creates or removes the file; where it changes a file that exists, exactly if
its diff shows one file header and the hunks lead from the one version to the
other as they are read back. Of a plain source they always do. -/
theorem build_consistent_iff {p : Proposer} {issue : Issue} {completion source : String}
    {index : Int} {w w' : World} {patch : Patch}
    (hrun : (p.build issue completion source index).run w = (.ok patch, w'))
    (hkind : patch.errorKind ≠ some .parseError) (hsize : patch.Measured) :
    (¬ Proposal.Rewrites completion issue.filePath → patch.Consistent) ∧
      (Proposal.Rewrites completion issue.filePath →
        (patch.Consistent ↔
          headersOf patch.diff = 1 ∧ Restores patch.originalCode patch.patchedCode)) ∧
      (Text.Plain patch.originalCode.toList →
        (patch.Consistent ↔ headersOf patch.diff = 1)) := by
  obtain ⟨c, target, hcomes, ho, hp, hd⟩ := build_change hrun hkind
  obtain ⟨horiginal, hpatched, hdiff⟩ := hsize
  rw [ho] at horiginal
  rw [hp] at hpatched
  rw [hd] at hdiff
  rw [Patch.Consistent, ho, hp, hd]
  have hwhole := fun h => hcomes.denotes_whole h hdiff
  have hexact := fun h => hcomes.denotes_iff h horiginal hpatched
  refine ⟨hwhole, hexact, fun hplain => ⟨Denotes.headersOf_eq, fun hone => ?_⟩⟩
  by_cases hrewrites : Proposal.Rewrites completion issue.filePath
  · refine (hexact hrewrites).2 ⟨hone, ?_⟩
    exact Diff.restores_of_plain ⟨hplain, hcomes.plain_patched hplain,
      Proposal.countable_lines horiginal, Proposal.countable_lines hpatched⟩
  · exact hwhole hrewrites

/-- A plain change of one line is denoted by the diff of its patch. -/
theorem build_consistent_plain :
    ∃ (p : Proposer) (issue : Issue) (w w' : World) (patch : Patch),
      (p.build issue "--- a/f.txt\n+++ b/f.txt\n@@ -1,2 +1,2 @@\n a\n-b\n+c\n" "a\nb\n" 0).run w =
        (.ok patch, w') ∧ patch.patchedCode = "a\nc\n" ∧ patch.Consistent := by
  obtain ⟨patch, w', hrun, hkind, ho, hp, hd⟩ :=
    @build_of_changes default { (default : Issue) with filePath := "f.txt" }
      "--- a/f.txt\n+++ b/f.txt\n@@ -1,2 +1,2 @@\n a\n-b\n+c\n" "a\nb\n" "a\nb\n" "a\nc\n"
      "diff --git a/f.txt b/f.txt\n--- a/f.txt\n+++ b/f.txt\n@@ -1,2 +1,2 @@\n a\n-b\n+c\n"
      default 0 (by decide +kernel)
  have hlength : patch.Measured := by
    refine ⟨?_, ?_, ?_⟩
    · rw [ho]
      exact Diff.countable_of_lt (k := 3) (by decide) (by decide)
    · rw [hp]
      exact Diff.countable_of_lt (k := 3) (by decide) (by decide)
    · rw [hd]
      exact Diff.countable_of_lt (k := 3) (by decide) (by decide)
  have hplain : Text.Plain patch.originalCode.toList := by
    rw [ho]
    decide
  refine ⟨default, _, default, w', patch, hrun, hp, ?_⟩
  refine ((build_consistent_iff hrun hkind hlength).2.2 hplain).2 ?_
  rw [hd]
  decide +kernel

/-- **Two changes that the diffs of their patches do not denote.** In the
first the source has a form feed, behind which the line is closed once more
when the diff is applied; in the second the diff removes a line with two
dashes and adds one with two plus signs, which is read as a file header. -/
theorem build_inconsistent :
    (∃ (p : Proposer) (issue : Issue) (w w' : World) (patch : Patch),
      (p.build issue "--- a/f.txt\n+++ b/f.txt\n@@ -2 +2 @@\n-b\n+c\n" "a\x0cb\n" 0).run w =
        (.ok patch, w') ∧ patch.errorKind ≠ some .parseError ∧ ¬ patch.Consistent) ∧
    ∃ (p : Proposer) (issue : Issue) (w w' : World) (patch : Patch),
      (p.build issue "--- a/f.txt\n+++ b/f.txt\n@@ -1 +1 @@\n+++ y\n--- x\n" "-- x\n" 0).run w =
        (.ok patch, w') ∧ patch.errorKind ≠ some .parseError ∧ ¬ patch.Consistent := by
  constructor
  · obtain ⟨patch, w', hrun, hkind, ho, hp, hd⟩ :=
      @build_of_changes default { (default : Issue) with filePath := "f.txt" }
        "--- a/f.txt\n+++ b/f.txt\n@@ -2 +2 @@\n-b\n+c\n" "a\x0cb\n" "a\x0cb\n" "a\x0c\nc\n"
        ("diff --git a/f.txt b/f.txt\n--- a/f.txt\n+++ b/f.txt\n@@ -1,2 +1,3 @@\n a\x0c\n" ++
          "\\ No newline at end of file\n-b\n+\n+c\n")
        default 0 (by decide +kernel)
    refine ⟨default, _, default, w', patch, hrun, hkind, ?_⟩
    rw [Patch.Consistent, ho, hp, hd]
    decide +kernel
  · obtain ⟨patch, w', hrun, hkind, ho, hp, hd⟩ :=
      @build_of_changes default { (default : Issue) with filePath := "f.txt" }
        "--- a/f.txt\n+++ b/f.txt\n@@ -1 +1 @@\n+++ y\n--- x\n" "-- x\n" "-- x\n" "++ y\n"
        "diff --git a/f.txt b/f.txt\n--- a/f.txt\n+++ b/f.txt\n@@ -1 +1 @@\n--- x\n+++ y\n"
        default 0 (by decide +kernel)
    refine ⟨default, _, default, w', patch, hrun, hkind, ?_⟩
    rw [Patch.Consistent, ho, hp, hd]
    decide +kernel

end Proposer

end RepairLoop
