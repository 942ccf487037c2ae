import Mathlib.Data.List.Basic
import RepairLoop.Diff.Apply
import RepairLoop.Diff.Parser
import RepairLoop.Proofs.Text.Lines
/-!
# Diff — where a hunk lands, and how lines are closed

Facts on the parts of `Diff.apply` that hold for every section: a block is
found within its bounds (`locate_bounds`), it is found where it is expected
if it stands there (`locate_of_matches`), and closing the lines of a file
changes it exactly where an inner line ends neither with a line feed nor
with a carriage return (`flatten_closeLines_iff`).
-/

namespace RepairLoop.Diff

/-! ## Finding a block -/

theorem candidates_bounds {expected floor limit delta p : Nat} (hf : floor ≤ expected)
    (hl : expected ≤ limit) (h : p ∈ candidates expected floor limit delta) :
    floor ≤ p ∧ p ≤ limit := by
  simp only [candidates, List.mem_append] at h
  rcases h with h | h
  · split at h
    · rename_i hc
      simp only [Bool.and_eq_true, decide_eq_true_eq] at hc
      simp only [List.mem_singleton] at h
      omega
    · simp at h
  · split at h
    · rename_i hc
      simp only [Bool.and_eq_true, decide_eq_true_eq] at hc
      simp only [List.mem_singleton] at h
      omega
    · simp at h

/-- The nearest match lies within the bounds. -/
theorem nearest?_bounds {lines block : List (List Char)} {loose : Bool}
    {expected floor limit p : Nat} (hf : floor ≤ expected) (hl : expected ≤ limit)
    (h : nearest? lines block loose expected floor limit = some p) :
    floor ≤ p ∧ p ≤ limit := by
  obtain ⟨delta, -, hd⟩ := List.exists_of_findSome?_eq_some h
  exact candidates_bounds hf hl (List.mem_of_find?_eq_some hd)

/-- **A block is found at or after the floor and ends within the lines.** -/
theorem locate_bounds {lines block : List (List Char)} {expected : Int} {floor p : Nat}
    (h : locate lines block expected floor = some p) :
    floor ≤ p ∧ p + block.length ≤ lines.length := by
  unfold locate at h
  split at h
  · cases h
  rename_i hroom
  have hf : floor ≤ min (max expected floor).toNat (lines.length - block.length) := by omega
  have hl : min (max expected floor).toNat (lines.length - block.length)
      ≤ lines.length - block.length := Nat.min_le_right _ _
  simp only at h
  split at h
  · cases h
    omega
  split at h
  · rename_i q hq
    cases h
    have := nearest?_bounds hf hl hq
    omega
  · have := nearest?_bounds hf hl h
    omega

/-- The first position that is tried is the expected one. -/
theorem nearest?_of_matches {lines block : List (List Char)} {loose : Bool}
    {expected floor limit : Nat} (hf : floor ≤ expected)
    (h : matchesAt lines block loose expected = true) :
    nearest? lines block loose expected floor limit = some expected := by
  have hc : candidates expected floor limit 0 = [expected] := by
    simp [candidates, hf]
  simp only [nearest?]
  rw [List.range_succ_eq_map, List.findSome?_cons, hc]
  simp [h]

/-- **A block that stands where it is expected is found there.** -/
theorem locate_of_matches {lines block : List (List Char)} {floor p : Nat} (hf : floor ≤ p)
    (hl : p + block.length ≤ lines.length) (h : matchesAt lines block false p = true) :
    locate lines block p floor = some p := by
  have hp : min (max (p : Int) floor).toNat (lines.length - block.length) = p := by omega
  unfold locate
  rw [if_neg (by omega)]
  simp only [hp, nearest?_of_matches hf h]
  split <;> rfl

/-! ## Closing the lines -/

/-- The line ends with a line feed or a carriage return. -/
def Closed (l : List Char) : Prop :=
  l.getLast? = some '\n' ∨ l.getLast? = some '\r'

instance (l : List Char) : Decidable (Closed l) :=
  inferInstanceAs (Decidable (_ ∨ _))

theorem closeLines_cons {newline l : List Char} {ls : List (List Char)} (hne : ls ≠ []) :
    closeLines newline (l :: ls) =
      (if Closed l then l else l ++ newline) :: closeLines newline ls := by
  obtain ⟨m, ms, rfl⟩ := List.exists_cons_of_ne_nil hne
  rw [closeLines]
  · unfold Closed
    split <;> simp_all
  · simp

/-- Where every inner line is closed already, nothing changes. -/
theorem closeLines_eq_self {newline : List Char} {ls : List (List Char)}
    (h : ∀ l ∈ ls.dropLast, Closed l) : closeLines newline ls = ls := by
  induction ls with
  | nil => rfl
  | cons l ls ih =>
    rcases eq_or_ne ls [] with rfl | hne
    · rfl
    · rw [List.dropLast_cons_of_ne_nil hne] at h
      rw [closeLines_cons hne, if_pos (h l (by simp)), ih fun m hm => h m (by simp [hm])]

/-- Closing makes a file longer by one line end for each open inner line. -/
theorem length_flatten_closeLines (newline : List Char) (ls : List (List Char)) :
    (closeLines newline ls).flatten.length =
      ls.flatten.length + newline.length * ls.dropLast.countP (fun l => ¬ Closed l) := by
  induction ls with
  | nil => rfl
  | cons l ls ih =>
    rcases eq_or_ne ls [] with rfl | hne
    · simp [closeLines]
    · rw [closeLines_cons hne, List.dropLast_cons_of_ne_nil hne, List.flatten_cons,
        List.length_append, ih, List.countP_cons, List.flatten_cons, List.length_append]
      by_cases hc : Closed l
      · simp [hc, Nat.add_assoc]
      · simp only [hc, if_false, List.length_append, not_false_eq_true, decide_true, if_true,
          Nat.mul_add, Nat.mul_one]
        omega

/-- **Closing leaves a file alone exactly where every inner line is
closed.** -/
theorem flatten_closeLines_iff {newline : List Char} (hn : newline ≠ [])
    (ls : List (List Char)) :
    (closeLines newline ls).flatten = ls.flatten ↔ ∀ l ∈ ls.dropLast, Closed l := by
  constructor
  · intro h
    have hlen := length_flatten_closeLines newline ls
    rw [h] at hlen
    have hpos : 0 < newline.length := List.length_pos_iff.2 hn
    have hzero : ls.dropLast.countP (fun l => ¬ Closed l) = 0 := by
      rcases Nat.eq_zero_or_pos (ls.dropLast.countP (fun l => ¬ Closed l)) with h0 | h0
      · exact h0
      · have := Nat.mul_pos hpos h0
        omega
    intro l hl
    have := List.countP_eq_zero.1 hzero l hl
    simpa using this
  · intro h
    rw [closeLines_eq_self h]

theorem newlineOf_ne_nil (lines : List (List Char)) : newlineOf lines ≠ [] := by
  unfold newlineOf
  split
  · split <;> simp
  · simp

/-! ## The whole section -/

/-- The lines that a section is applied to. -/
def targetLines (original : List Char) (p : FilePatch) : List (List Char) :=
  Text.fullLines (if p.isNew then [] else original)

/-- Applying a section is running its hunks along those lines and closing what
comes of it, unless the section removes its file. -/
theorem applyChars_eq (original : List Char) (p : FilePatch) :
    applyChars original p =
      (runHunks p.path (newlineOf (targetLines original p)) (targetLines original p) 1 0
        p.hunks).map fun out =>
          if p.isDeleted then []
          else (closeLines (newlineOf (targetLines original p)) out).flatten := by
  unfold applyChars
  rw [← targetLines]
  dsimp only
  cases runHunks p.path (newlineOf (targetLines original p)) (targetLines original p) 1 0
    p.hunks <;> rfl

end RepairLoop.Diff

/-!
## Diff — sections without a change

A hunk of context lines and markers copies the lines it stands on, so the
hunks of such a section put together exactly the lines of the file
(`runHunks_of_contextOnly`). What is left is the closing pass at the end of
`applyChars`, which gives a line end to every inner line that ends neither
with a line feed nor with a carriage return. `apply_contextOnly` is the
outcome: a section without a change is the identity exactly on the files
that have no such line, and a form feed inside a file is enough to leave
them.
-/

namespace RepairLoop.Diff

/-- Context lines and markers, nothing else. -/
def ContextOnly (es : List Entry) : Prop :=
  ∀ e ∈ es, e.tag = .context ∨ e.tag = .marker

/-- A section of an existing file that changes no line of it. -/
structure FilePatch.Unchanging (p : FilePatch) : Prop where
  old : p.isNew = false
  kept : p.isDeleted = false
  hunks : ∀ h ∈ p.hunks, ContextOnly h.entries

theorem contextOnly_cons {e : Entry} {es : List Entry} :
    ContextOnly (e :: es) ↔ (e.tag = .context ∨ e.tag = .marker) ∧ ContextOnly es := by
  simp [ContextOnly]

/-- Context is copied: as many lines as there are context lines go out, the
others stay. -/
theorem runEntries_of_contextOnly {newline : List Char} {es : List Entry}
    {lines : List (List Char)} (he : ContextOnly es)
    (hl : oldSize es ≤ lines.length) :
    runEntries newline es lines = (lines.take (oldSize es), lines.drop (oldSize es)) := by
  induction es generalizing lines with
  | nil => simp [runEntries, oldSize]
  | cons e es ih =>
    obtain ⟨ht, he⟩ := contextOnly_cons.1 he
    rcases ht with ht | ht
    · have hsize : oldSize (e :: es) = oldSize es + 1 :=
        List.countP_cons_of_pos (by rw [ht]; rfl)
      rw [hsize] at hl ⊢
      obtain ⟨l, ls, rfl⟩ := List.exists_cons_of_length_pos (by omega : 0 < lines.length)
      rw [List.length_cons] at hl
      have hih := ih he (Nat.le_of_succ_le_succ hl)
      simp [runEntries, ht, hih]
    · have hsize : oldSize (e :: es) = oldSize es :=
        List.countP_cons_of_neg (by rw [ht]; decide)
      rw [hsize] at hl ⊢
      simpa [runEntries, ht] using ih he hl

/-- The old side of a hunk has as many lines as its entries say. -/
theorem length_oldLines (h : Hunk) : h.oldLines.length = oldSize h.entries := by
  rw [Hunk.oldLines, List.length_map, oldSize, List.countP_eq_length_filter]

/-- **Hunks without a change put the file together again**, wherever they
are found. -/
theorem runHunks_of_contextOnly {path : String} {newline : List Char}
    {lines out : List (List Char)} {hs : List Hunk} {n cursor : Nat}
    (hc : ∀ h ∈ hs, ContextOnly h.entries)
    (h : runHunks path newline lines n cursor hs = .ok out) : out = lines.drop cursor := by
  induction hs generalizing n cursor out with
  | nil =>
    rw [runHunks] at h
    exact (Except.ok.inj h).symm
  | cons hunk hs ih =>
    rw [runHunks] at h
    simp only at h
    split at h
    · cases h
    rename_i position hpos
    obtain ⟨hfloor, hroom⟩ := locate_bounds hpos
    rw [length_oldLines] at hroom
    have hsize : oldSize hunk.entries ≤ (lines.drop position).length := by
      rw [List.length_drop]
      omega
    rw [runEntries_of_contextOnly (hc hunk (by simp)) hsize, List.drop_drop, List.length_drop] at h
    simp only at h
    split at h
    · cases h
    rename_i after hafter
    have hnext : lines.length - (lines.length - (position + oldSize hunk.entries))
        = position + oldSize hunk.entries := by omega
    rw [hnext] at hafter
    have hih := ih (fun h' hh' => hc h' (by simp [hh'])) hafter
    rw [← Except.ok.inj h, hih]
    -- the stretch before the hunk, the lines under it and what follows are one file
    calc (lines.drop cursor).take (position - cursor) ++
          (lines.drop position).take (oldSize hunk.entries) ++
          lines.drop (position + oldSize hunk.entries)
        = (lines.drop cursor).take (position - cursor) ++ lines.drop position := by
          rw [List.append_assoc, ← List.drop_drop, List.take_append_drop]
      _ = lines.drop cursor := by
          have hback : lines.drop position = (lines.drop cursor).drop (position - cursor) := by
            rw [List.drop_drop]
            congr 1
            omega
          rw [hback, List.take_append_drop]

/-- A section without a change fits nowhere or yields the closed lines of
the file. -/
theorem applyChars_of_unchanging {original t : List Char} {p : FilePatch} (hp : p.Unchanging)
    (h : applyChars original p = .ok t) :
    t = (closeLines (newlineOf (Text.fullLines original)) (Text.fullLines original)).flatten := by
  unfold applyChars at h
  simp only [hp.old, hp.kept, Bool.false_eq_true, if_false] at h
  split at h
  · cases h
  · rename_i out hout
    rw [← Except.ok.inj h, runHunks_of_contextOnly hp.hunks hout, List.drop_zero]

/-- **A section without a change is the identity exactly where every inner
line of the file ends with a line feed or a carriage return**, unless it
fits nowhere. -/
theorem apply_contextOnly (original : String) (p : FilePatch) (hp : p.Unchanging) :
    (∃ e, apply original p = .error e) ∨
      ∃ t, apply original p = .ok t ∧
        (t = original ↔ ∀ l ∈ (Text.fullLines original.toList).dropLast, Closed l) := by
  unfold apply
  cases hrun : applyChars original.toList p with
  | error e => exact Or.inl ⟨e, rfl⟩
  | ok t =>
    refine Or.inr ⟨String.ofList t, rfl, ?_⟩
    have ht := applyChars_of_unchanging hp hrun
    have hiff := flatten_closeLines_iff (newlineOf_ne_nil (Text.fullLines original.toList))
      (Text.fullLines original.toList)
    rw [← ht, Text.join_lines] at hiff
    rw [← hiff]
    constructor
    · rintro rfl
      rw [String.toList_ofList]
    · intro h
      rw [h, String.ofList_toList]

/-- Two lines end with a line feed and a carriage return, the third with
nothing: the section at the second line gives the file back. -/
theorem apply_contextOnly_identity :
    FilePatch.Unchanging ⟨some "f", some "f", [⟨2, 1, 2, 1, [⟨.context, ['b']⟩], []⟩]⟩ ∧
      apply "a\nb\rc" ⟨some "f", some "f", [⟨2, 1, 2, 1, [⟨.context, ['b']⟩], []⟩]⟩ =
        .ok "a\nb\rc" := by
  have hp : FilePatch.Unchanging ⟨some "f", some "f", [⟨2, 1, 2, 1, [⟨.context, ['b']⟩], []⟩]⟩ :=
    ⟨rfl, rfl, by simp [ContextOnly]⟩
  refine ⟨hp, ?_⟩
  rcases apply_contextOnly "a\nb\rc" _ hp with ⟨e, he⟩ | ⟨t, ht, hiff⟩
  · exact absurd he (by rw [show apply "a\nb\rc" _ = .ok "a\nb\rc" from rfl]; simp)
  · rw [ht, hiff.2 (by decide)]

/-- **A form feed inside the file is enough to lose the identity**: the
section below is read from a diff, changes no line, and adds a line feed to
the line it does not even touch. -/
theorem apply_contextOnly_formFeed :
    ∃ p, (parse "--- a/f.txt\n+++ b/f.txt\n@@ -2 +2 @@\n b\n").toOption = some ([p], []) ∧
      p.Unchanging ∧ apply "a\x0cb\n" p = .ok "a\x0c\nb\n" ∧ "a\x0c\nb\n" ≠ "a\x0cb\n" := by
  refine ⟨⟨some "f.txt", some "f.txt", [⟨2, 1, 2, 1, [⟨.context, ['b']⟩], []⟩]⟩, ?_, ?_, ?_, ?_⟩
  · decide +kernel
  · exact ⟨rfl, rfl, by simp [ContextOnly]⟩
  · rfl
  · decide

end RepairLoop.Diff
