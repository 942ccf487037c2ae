import RepairLoop.Proofs.Diff.LineEnds
import RepairLoop.Proofs.Diff.Parsed
import RepairLoop.Proofs.Diff.Reread
/-!
# Diff — when a change that is stated anew is read back

A change is stated as the diff between the two texts, or, where it creates
or removes the file, as the section it was read from. In the second case it
is read back whatever the texts are (`render_denotes`). In the first case it
is read back exactly where the diff holds one file header, for a second one
hides in a hunk and cuts it in two, and where the hunks survive being read
(`make_denotes_iff`), as those between plain texts do (`restores_of_plain`).
A diff that is rendered of what was read of any text is normal: it is read
as the same sections again (`parse_render_normalise`).
-/

namespace RepairLoop.Diff

/-- Read back, the text of the diff is one section, which leads from the one
text to the other. -/
def Denotes (diff original patched : String) : Prop :=
  ∃ q notes, parse diff = .ok ([q], notes) ∧ apply original q = .ok patched

/-- The reading of a diff, carried out. -/
def denotes (diff original patched : String) : Bool :=
  match parse diff with
  | .ok ([q], _) => (apply original q).toOption == some patched
  | _ => false

theorem denotes_eq_true {diff original patched : String} :
    denotes diff original patched = true ↔ Denotes diff original patched := by
  unfold denotes Denotes
  constructor
  · intro h
    split at h
    · rename_i q notes hparse
      refine ⟨q, notes, hparse, ?_⟩
      cases happly : apply original q with
      | error e => simp [happly, Except.toOption] at h
      | ok t => simpa [happly, Except.toOption] using h
    · cases h
  · rintro ⟨q, notes, hparse, happly⟩
    simp [hparse, happly, Except.toOption]

instance (diff original patched : String) : Decidable (Denotes diff original patched) :=
  decidable_of_iff _ denotes_eq_true

/-- How many file headers the text of a diff seems to have. -/
def headersOf (diff : String) : Nat :=
  headerCount (Text.lineBodies diff.toList)

/-- One section that is read back shows one file header. -/
theorem Denotes.headersOf_eq {diff original patched : String}
    (h : Denotes diff original patched) : headersOf diff = 1 := by
  obtain ⟨q, notes, hparse, -⟩ := h
  exact (parseChars_legible hparse).2.symm

/-! ## Hunks without a file header -/

/-- **With one file header in the diff there is none in its hunks.** -/
theorem clear_of_headerCount {a b : List (List Char)} {path : String}
    (h : headerCount (rereadDiff a b path) = 1)
    (hheld : ∀ g ∈ lineGroups a b, ∀ l ∈ rereadLines a b g, Held l) :
    ∀ g ∈ lineGroups a b, Clear ((rereadLines a b g).map entryOf) := by
  have hfile : ∀ rest : List (List Char), startsFile
      (("--- ".toList ++ ("a/".toList ++ path.toList)) ::
        ("+++ ".toList ++ ("b/".toList ++ path.toList)) :: rest) = true := by
    intro rest
    rw [startsFile, opens_append, opens_append]
    rfl
  -- the file header of the diff is the one that is counted
  have hzero : headerCount (hunkLines groupHeader (rereadLines a b) (lineGroups a b) ++ []) =
      headerCount [] := by
    rw [rereadDiff_eq, List.singleton_append, headerCount_cons_of_not
        (startsFile_eq_false fun _ _ hboth =>
          absurd ((passed_gitLine path path).file.symm.trans hboth.1) (by decide)),
      headerCount_of_startsFile (hfile _)] at h
    exact Nat.add_left_cancel h
  intro g hg
  obtain ⟨before, after, hsplit⟩ : rereadLines a b g <:+:
      hunkLines groupHeader (rereadLines a b) (lineGroups a b) :=
    (List.suffix_cons (groupHeader g) _).isInfix.trans
      (List.infix_of_mem_flatten (List.mem_map_of_mem hg))
  have hchain := headless_of_headerCount hzero
  rw [← hsplit] at hchain
  exact clear_of_headless (hheld g hg) hchain.left_of_append.right_of_append

/-! ## Reading it back -/

/-- The path of a section is only named where it does not apply. -/
theorem runHunks_path {path path' : String} {newline : List Char}
    {lines out : List (List Char)} {n cursor : Nat} {hs : List Hunk}
    (h : runHunks path newline lines n cursor hs = .ok out) :
    runHunks path' newline lines n cursor hs = .ok out := by
  induction hs generalizing n cursor out with
  | nil => exact h
  | cons k ks ih =>
    rw [runHunks] at h ⊢
    simp only at h ⊢
    split at h
    · cases h
    · split at h
      · cases h
      · rename_i hrest
        rw [ih hrest]
        exact h

theorem apply_of_hunks_eq {original patched : String} {p q : FilePatch}
    (hnew : p.isNew = q.isNew) (hdeleted : p.isDeleted = q.isDeleted) (hhunks : p.hunks = q.hunks)
    (h : apply original p = .ok patched) : apply original q = .ok patched := by
  rw [apply, applyChars, hnew, hdeleted, hhunks] at h
  rw [apply, applyChars]
  split at h
  · cases h
  · rename_i hrun
    rw [runHunks_path hrun]
    exact h

theorem apply_reread_path {original patched : String} (path path' : String)
    (h : apply original (reread original.toList patched.toList path) = .ok patched) :
    apply original (reread original.toList patched.toList path') = .ok patched :=
  @apply_of_hunks_eq original patched (reread original.toList patched.toList path)
    (reread original.toList patched.toList path') rfl rfl rfl h

/-- The hunks between two texts, as they are read back, lead from the one to
the other. -/
def Restores (original patched : String) : Prop :=
  apply original (reread original.toList patched.toList "") = .ok patched

/-- The two texts have numbers of lines that can be read. -/
def Numbered (original patched : String) : Prop :=
  Countable (Text.fullLines original.toList).length ∧
    Countable (Text.fullLines patched.toList).length

variable {original patched path : String}

/-- **The diff between two texts that differ is read back as the change that
it states exactly where it shows one file header and its hunks, as they are
read, lead from the one text to the other.** -/
theorem make_denotes_iff (hcount : Numbered original patched) (hp : Named path)
    (hne : original ≠ patched) :
    Denotes (make original patched path) original patched ↔
      headersOf (make original patched path) = 1 ∧ Restores original patched := by
  have hne' : original.toList ≠ patched.toList := fun heq => hne (String.toList_inj.1 heq)
  have hread : headersOf (make original patched path) = 1 →
      ∃ notes, parse (make original patched path) =
        .ok ([reread original.toList patched.toList path], notes) := by
    intro hone
    rw [headersOf, make, String.toList_ofList, lineBodies_makeChars hp.unbroken hne'] at hone
    refine ⟨rereadNotes (Text.fullLines original.toList) (Text.fullLines patched.toList), ?_⟩
    rw [parse, make, String.toList_ofList]
    refine parseChars_makeChars hp hne' hcount.1 hcount.2 (clear_of_headerCount hone ?_)
    intro g _ l hl
    obtain ⟨e, he, hl⟩ := List.mem_flatMap.1 hl
    exact held_of_mem_readLines (dropLast_of_mem_groupHunk he) l hl
  constructor
  · intro hdenotes
    refine ⟨hdenotes.headersOf_eq, ?_⟩
    obtain ⟨notes, hparse⟩ := hread hdenotes.headersOf_eq
    obtain ⟨q, notes', hparse', happly⟩ := hdenotes
    rw [hparse] at hparse'
    obtain ⟨hq, -⟩ := Prod.mk.inj (Except.ok.inj hparse')
    obtain rfl := List.head_eq_of_cons_eq hq
    exact apply_reread_path path "" happly
  · rintro ⟨hone, hrestores⟩
    obtain ⟨notes, hparse⟩ := hread hone
    exact ⟨_, notes, hparse, apply_reread_path "" path hrestores⟩

/-- **Between plain texts the hunks are read as they were made, and lead from
the one to the other.** -/
theorem restores_of_plain (h : Comparable original.toList patched.toList) :
    Restores original patched := by
  rw [Restores, (reread_plain h).1, apply, applyChars_madeSection h]
  simp [Except.map]

/-- A text is at least as long as it has lines. -/
theorem length_le_terminated (ls : List (List Char)) : ls.length ≤ (terminated ls).length := by
  induction ls with
  | nil => exact Nat.le_refl _
  | cons l ls ih =>
    have hcons : terminated (l :: ls) = l ++ ['\n'] ++ terminated ls := rfl
    rw [hcons, List.length_append, List.length_append, List.length_cons, List.length_singleton]
    omega

/-- No hunk has more lines than the text of the diff has characters. -/
theorem length_entries_le {p : FilePatch} {k : Hunk} (hk : k ∈ p.hunks) :
    k.entries.length ≤ (render [p]).toList.length := by
  have hsub : k.entries.map Entry.line <:+: sectionLines p := by
    rw [sectionLines_eq]
    refine List.IsInfix.trans ?_ (List.suffix_append _ _).isInfix
    refine List.IsInfix.trans ?_ (List.suffix_cons _ _).isInfix
    refine List.IsInfix.trans ?_ (List.suffix_cons _ _).isInfix
    exact (List.suffix_cons k.header _).isInfix.trans
      (List.infix_of_mem_flatten (List.mem_map_of_mem hk))
  have hlines := hsub.length_le
  have htext := length_le_terminated (sectionLines p)
  rw [List.length_map] at hlines
  rw [render, String.toList_ofList, renderChars, List.flatMap_singleton]
  omega

/-- A legible section is readable, if no hunk of it is too long to be
counted. -/
theorem FilePatch.Legible.readable_of_length {p : FilePatch} (h : p.Legible) {bound : Nat}
    (hbound : Countable bound) (hlen : ∀ k ∈ p.hunks, k.entries.length ≤ bound) : p.Readable := by
  refine h.readable fun k hk => ?_
  have hwhole := (h.hunks k hk).whole
  have hcount : ∀ n, n ≤ k.entries.length → Countable n :=
    fun _ hn => Nat.lt_of_le_of_lt (hn.trans (hlen k hk)) hbound
  rw [hwhole.oldCount, hwhole.newCount]
  exact ⟨hcount _ List.countP_le_length, hcount _ List.countP_le_length⟩

/-- **A section that was read is read back from what is rendered of it.** -/
theorem render_denotes {target : FilePatch} (ht : target.Legible)
    (hlen : Countable (render [target]).toList.length)
    (happly : apply original target = .ok patched) :
    Denotes (render [target]) original patched := by
  have hread : target.Readable := ht.readable_of_length hlen fun _ => length_entries_le
  refine ⟨target, [], ?_, happly⟩
  rw [parse, render, String.toList_ofList]
  refine parseChars_render (by simp) fun p hp => ?_
  rw [List.mem_singleton.1 hp]
  exact hread

/-! ## Normal diffs -/

/-- A diff as it is written once it was read. -/
def normalise (text : String) : Except ParseError String := do
  let (files, _) ← parse text
  .ok (render files)

variable {text normal : String} {files : List FilePatch} {notes : List String}

/-- **What is read of a text is readable.** A hunk has no more lines than the text,
so its counts can be read if the length of the text can be. -/
theorem readable_of_parse (hlen : Countable text.length)
    (h : parse text = .ok (files, notes)) : files ≠ [] ∧ ∀ p ∈ files, p.Readable := by
  obtain ⟨hlegible, -⟩ := parseChars_legible h
  have hbound : ∀ p ∈ files, ∀ k ∈ p.hunks, k.entries.length ≤ text.length := fun p hp k hk =>
    (parseChars_length_le h p hp k hk).trans (Text.length_lineBodies_le text.toList)
  exact ⟨(parseSections_of_parseChars h).2, fun p hp =>
    (hlegible p hp).readable_of_length hlen (hbound p hp)⟩

/-- **The sections that are read of a text are read back from what is rendered
of them.** -/
theorem parse_render_of_parse (hlen : Countable text.length)
    (h : parse text = .ok (files, notes)) : parse (render files) = .ok (files, []) := by
  obtain ⟨hne, hreadable⟩ := readable_of_parse hlen h
  rw [parse, render, String.toList_ofList]
  exact parseChars_render hne hreadable

/-- **Rendering is a right inverse of reading, so a diff is normal once it was
normalised.** Whatever text is read, as its sections and with any notes, the
same sections are read of their rendering, with no note. -/
theorem parse_render_normalise (hlen : Countable text.length)
    (h : parse text = .ok (files, notes)) :
    parse (render files) = .ok (files, []) ∧ (normalise text >>= normalise) = normalise text := by
  have hback := parse_render_of_parse hlen h
  have hnormal : normalise text = .ok (render files) := by
    rw [normalise, h]
    rfl
  refine ⟨hback, ?_⟩
  rw [hnormal]
  change normalise (render files) = _
  rw [normalise, hback]
  rfl

/-- A diff with a mark of its own in front, one side that is no file, a hunk
whose counts are not those of its lines, and an empty line in it. -/
def untidy : String :=
  "here you are:\n--- a/f.txt\t2024\n+++ /dev/null  \n@@ -1 +1,7 @@ f\n-a\n\n-b\n\\ No newline\n"

theorem parse_render_normalise_untidy :
    ∃ files notes, parse untidy = .ok (files, notes) ∧ notes ≠ [] ∧
      parse (render files) = .ok (files, []) ∧
      (normalise untidy >>= normalise) = normalise untidy := by
  have hread : parse untidy = .ok ([⟨some "f.txt", none, [⟨1, 3, 1, 1,
      [⟨.removed, ['a']⟩, ⟨.context, []⟩, ⟨.removed, ['b']⟩, ⟨.marker, " No newline".toList⟩],
      " f".toList⟩]⟩], ["hunk -1,1 +1,7 recounted as -1,3 +1,1"]) := by decide +kernel
  exact ⟨_, _, hread, List.cons_ne_nil _ _,
    parse_render_normalise (countable_of_lt (k := 3) (by decide) (by decide)) hread⟩

end RepairLoop.Diff
