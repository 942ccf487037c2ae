import Mathlib.Data.List.Lex
import Mathlib.Data.String.Basic
import RepairLoop.Inspection.Detector
import RepairLoop.Proofs.Text.Character
/-!
# Files — which ones are looked at

A file is looked at where its extension is configured, it is not too large, and no pattern leaves
it out; and the files are looked at in the order of their paths, each once (`mem_sourceFiles`,
`sourceFiles_inOrder`). A pattern that ends in a slash leaves out what is below a directory of that
name, wherever the directory is (`LeavesOut`). The name is looked for among the single names on the
way to a file, so a pattern that names a directory by a path of several names leaves out nothing:
the directory that such a pattern names is left out exactly where the path has one name
(`sourceFiles_iff`).
-/

namespace RepairLoop

/-! ## The order of locations -/

/-- Locations in order are those that are in order as lists of names. -/
theorem Location.atMost_iff {p q : Location} : p.atMost q = true ↔ p = q ∨ p < q := by
  induction p generalizing q with
  | nil => cases q <;> simp [Location.atMost]
  | cons a p ih =>
    cases q with
    | nil => simp [Location.atMost]
    | cons b q =>
      rw [Location.atMost, List.cons_lt_cons_iff, Bool.or_eq_true, Bool.and_eq_true,
        decide_eq_true_iff, beq_iff_eq, ih, List.cons.injEq]
      tauto

theorem Location.atMost_trans (p q r : Location) (hpq : p.atMost q = true)
    (hqr : q.atMost r = true) : p.atMost r = true := by
  rw [atMost_iff, ← le_iff_eq_or_lt] at *
  exact hpq.trans hqr

theorem Location.atMost_total (p q : Location) : (p.atMost q || q.atMost p) = true := by
  rw [Bool.or_eq_true, atMost_iff, atMost_iff, ← le_iff_eq_or_lt, ← le_iff_eq_or_lt]
  exact le_total p q

namespace FileTree

variable {t : FileTree} {p : Location} {content : ByteArray}

/-- At each location there is one entry. -/
def Distinct (t : FileTree) : Prop := (t.entries.map Prod.fst).Nodup

instance (t : FileTree) : Decidable t.Distinct := inferInstanceAs (Decidable (List.Nodup _))

/-- **An entry is what stands at its location.** -/
theorem Distinct.entry? (h : t.Distinct) {e : Entry} (he : (p, e) ∈ t.entries) :
    t.entry? p = some e := by
  obtain ⟨as, bs, hentries⟩ := List.append_of_mem he
  have hfind : t.entries.find? (·.1 == p) = some (p, e) := by
    refine List.find?_eq_some_iff_append.2 ⟨by simp, as, bs, hentries, fun a ha => ?_⟩
    rw [Distinct, hentries, List.map_append, List.nodup_append] at h
    have hne : a.1 ≠ p := h.2.2 a.1 (List.mem_map_of_mem ha) p (by simp)
    simpa using hne
  rw [FileTree.entry?, hfind]

theorem mem_entries_of_content? (h : t.content? p = some content) :
    (p, .file content) ∈ t.entries := by
  rw [content?, entry?] at h
  cases hfind : t.entries.find? (·.1 == p) with
  | none =>
    rw [hfind] at h
    simp only at h
    split at h <;> simp_all
  | some found =>
    obtain ⟨q, e⟩ := found
    have hkey : q = p := by simpa using List.find?_some hfind
    have hmem := List.mem_of_find?_eq_some hfind
    rw [hfind] at h
    cases e <;> simp_all

theorem mem_files : (p, content) ∈ t.files ↔ (p, .file content) ∈ t.entries := by
  rw [files, List.mem_mergeSort, List.mem_filterMap]
  constructor
  · rintro ⟨⟨q, e⟩, hmem, he⟩
    cases e <;> simp_all
  · exact fun h => ⟨(p, .file content), h, rfl⟩

/-- **The files are the locations at which there is one.** -/
theorem Distinct.mem_files (h : t.Distinct) :
    (p, content) ∈ t.files ↔ t.content? p = some content := by
  rw [FileTree.mem_files]
  refine ⟨fun hmem => ?_, mem_entries_of_content?⟩
  rw [content?, h.entry? hmem]

theorem Distinct.nodup_files (h : t.Distinct) : (t.files.map Prod.fst).Nodup := by
  rw [files, ((List.mergeSort_perm _ _).map Prod.fst).nodup_iff]
  refine List.Nodup.sublist ?_ h
  generalize t.entries = es
  induction es with
  | nil => exact List.Sublist.slnil
  | cons e es ih =>
    obtain ⟨q, e⟩ := e
    cases e with
    | file c => exact ih.cons_cons q
    | directory => exact ih.cons q
    | link target => exact ih.cons q

/-- **The files are in the order of their locations**, each once. -/
theorem Distinct.files_inOrder (h : t.Distinct) : t.files.Pairwise fun a b => a.1 < b.1 := by
  have hsorted : t.files.Pairwise fun a b => a.1.atMost b.1 = true :=
    List.pairwise_mergeSort (fun a b c => Location.atMost_trans a.1 b.1 c.1)
      (fun a b => Location.atMost_total a.1 b.1) _
  have hkeys := h.nodup_files
  rw [List.Nodup, List.pairwise_map] at hkeys
  exact (hsorted.and hkeys).imp fun hab => (Location.atMost_iff.1 hab.1).resolve_left hab.2

end FileTree

/-! ## Patterns -/

namespace Inspection

/-- A pattern leaves a file out. One that ends in slashes names a directory on the way to the file
by what stands in front of them; any other fits the path of the file, or its name. -/
def LeavesOut (pattern : String) (file : Location) : Prop :=
  (∃ (name : String) (n : Nat), pattern.toList = name.toList ++ List.replicate (n + 1) '/' ∧
      name.toList.getLast? ≠ some '/' ∧ name ∈ file.dropLast) ∨
    pattern.toList.getLast? ≠ some '/' ∧
      (Glob.matches_ pattern (FileTree.locationText file) = true ∨
        Glob.matches_ pattern (file.getLast?.getD "") = true)

theorem endsWith_slash {s : String} : s.endsWith "/" = true ↔ s.toList.getLast? = some '/' := by
  rw [String.endsWith_eq_endsWith_toSlice, String.Slice.endsWith_string_iff, String.copy_toSlice,
    List.getLast?_eq_some_iff]
  constructor
  · rintro ⟨cs, h⟩
    exact ⟨cs, h.symm⟩
  · rintro ⟨cs, h⟩
    exact ⟨cs, h.symm⟩

/-- What stands in front of the slashes at the end of a text. -/
theorem dropTrailing_slashes {cs : List Char} (h : cs.getLast? ≠ some '/') (n : Nat) :
    Text.dropTrailing (· == '/') (cs ++ List.replicate n '/') = cs := by
  rw [Text.dropTrailing_append_of_all _ _ _ (by simp)]
  refine Text.dropTrailing_eq_self fun c hc => ?_
  rw [beq_eq_false_iff_ne]
  rintro rfl
  exact h hc

theorem exists_slashes (cs : List Char) :
    ∃ n, cs = Text.dropTrailing (· == '/') cs ++ List.replicate n '/' := by
  induction cs with
  | nil => exact ⟨0, rfl⟩
  | cons c cs ih =>
    obtain ⟨n, hn⟩ := ih
    rw [Text.dropTrailing]
    split
    · rename_i hnil
      rw [hnil, List.nil_append] at hn
      split
      · rename_i hc
        obtain rfl : c = '/' := by simpa using hc
        exact ⟨n + 1, by rw [List.nil_append, List.replicate_succ, ← hn]⟩
      · exact ⟨n, by rw [List.singleton_append, ← hn]⟩
    · exact ⟨n, by rw [List.cons_append, ← hn]⟩

/-- A name that is followed by slashes ends in one. -/
theorem getLast?_slashes (cs : List Char) (n : Nat) :
    (cs ++ List.replicate (n + 1) '/').getLast? = some '/' := by
  rw [List.replicate_succ', ← List.append_assoc, List.getLast?_concat]

/-- **A file is ignored exactly where a pattern leaves it out.** -/
theorem isIgnored_iff {patterns : List String} {file : Location} :
    isIgnored patterns file = true ↔ ∃ pattern ∈ patterns, LeavesOut pattern file := by
  rw [isIgnored, List.any_eq_true]
  refine exists_congr fun pattern => and_congr_right fun _ => ?_
  by_cases hslash : pattern.endsWith "/" = true
  · rw [if_pos hslash, List.contains_iff_mem]
    rw [endsWith_slash] at hslash
    constructor
    · intro hname
      obtain ⟨n, hn⟩ := exists_slashes pattern.toList
      have hkept : (Text.dropTrailing (· == '/') pattern.toList).getLast? ≠ some '/' := fun hlast =>
        absurd (Text.kept_of_getLast?_dropTrailing _ hlast) (by decide)
      cases n with
      | zero =>
        rw [List.replicate_zero, List.append_nil] at hn
        exact absurd (hn ▸ hslash) hkept
      | succ n =>
        refine .inl ⟨_, n, ?_, ?_, hname⟩
        · rwa [String.toList_ofList]
        · rwa [String.toList_ofList]
    · rintro (⟨name, n, hpattern, hlast, hname⟩ | ⟨hnone, -⟩)
      · rwa [hpattern, dropTrailing_slashes hlast, String.ofList_toList]
      · exact absurd hslash hnone
  · rw [if_neg hslash, Bool.or_eq_true]
    rw [endsWith_slash] at hslash
    constructor
    · exact fun h => .inr ⟨hslash, h⟩
    · rintro (⟨name, n, hpattern, -⟩ | ⟨-, h⟩)
      · rw [hpattern] at hslash
        exact absurd (getLast?_slashes _ n) hslash
      · exact h

/-! ## Files that are looked at -/

/-- The extension of a file is configured, whatever its case. -/
def HasExtension (settings : AnalysisSettings) (file : Location) : Prop :=
  ∃ extension ∈ settings.extensions,
    Text.lowerCase extension = Text.lowerCase (Path.suffixOf (file.getLast?.getD ""))

variable {settings : AnalysisSettings} {t : FileTree} {p : Location} {content : ByteArray}

/-- **What is looked at**: the files of a configured extension that are not too large and that no
pattern leaves out. -/
theorem mem_sourceFiles (h : t.Distinct) :
    (p, content) ∈ sourceFiles settings t ↔
      t.content? p = some content ∧ HasExtension settings p ∧
        (content.size : Int) ≤ settings.maxFileSize ∧
        ∀ pattern ∈ settings.ignorePatterns, ¬LeavesOut pattern p := by
  have hignored : isIgnored settings.ignorePatterns p = false ↔
      ∀ pattern ∈ settings.ignorePatterns, ¬LeavesOut pattern p := by
    rw [← Bool.not_eq_true, isIgnored_iff]
    push Not
    rfl
  rw [sourceFiles, List.mem_filter, h.mem_files, ← hignored]
  simp only [Bool.and_eq_true, List.contains_iff_mem, List.mem_map, Bool.not_eq_true',
    decide_eq_true_eq, HasExtension, Int.ofNat_eq_natCast, and_assoc]
  tauto

/-- **They are looked at in the order of their paths**, each once. -/
theorem sourceFiles_inOrder (h : t.Distinct) :
    (sourceFiles settings t).Pairwise fun a b => a.1 < b.1 :=
  h.files_inOrder.filter _

/-! ## Patterns of directories -/

/-- The path of a directory: some names, none of which is empty or holds a slash. -/
def IsDirectoryPath (d : Location) : Prop := d ≠ [] ∧ ∀ name ∈ d, name ≠ "" ∧ '/' ∉ name.toList

instance (d : Location) : Decidable (IsDirectoryPath d) := inferInstanceAs (Decidable (_ ∧ _))

/-- The pattern of a directory: its path and a slash. -/
def directoryPattern (d : Location) : String := FileTree.locationText d ++ "/"

theorem locationText_cons_cons (name next : String) (rest : Location) :
    FileTree.locationText (name :: next :: rest) =
      name ++ "/" ++ FileTree.locationText (next :: rest) :=
  String.intercalate_cons_cons

/-- The path of a directory ends in a character of its last name. -/
theorem exists_getLast?_locationText {d : Location} (hd : IsDirectoryPath d) :
    ∃ c, (FileTree.locationText d).toList.getLast? = some c ∧ c ≠ '/' := by
  obtain ⟨hne, hnames⟩ := hd
  induction d with
  | nil => exact absurd rfl hne
  | cons name rest ih =>
    cases rest with
    | nil =>
      obtain ⟨hname, hslash⟩ := hnames name List.mem_cons_self
      have hchars : name.toList ≠ [] := fun h => hname (String.toList_inj.1 h)
      refine ⟨name.toList.getLast hchars, ?_, fun h => hslash (h ▸ List.getLast_mem hchars)⟩
      exact List.getLast?_eq_some_getLast hchars
    | cons next rest =>
      obtain ⟨c, hlast, hc⟩ :=
        ih (List.cons_ne_nil next rest) fun n hn => hnames n (List.mem_cons_of_mem name hn)
      refine ⟨c, ?_, hc⟩
      rw [locationText_cons_cons, String.toList_append, List.getLast?_append, hlast]
      rfl

/-- **The pattern of a directory looks for its path among the names on the way to a file.** -/
theorem leavesOut_directoryPattern {d : Location} (hd : IsDirectoryPath d) {file : Location} :
    LeavesOut (directoryPattern d) file ↔ FileTree.locationText d ∈ file.dropLast := by
  obtain ⟨c, hlast, hc⟩ := exists_getLast?_locationText hd
  have hkept : (FileTree.locationText d).toList.getLast? ≠ some '/' := by
    rw [hlast]
    exact fun h => hc (Option.some.inj h)
  have hpattern : (directoryPattern d).toList =
      (FileTree.locationText d).toList ++ List.replicate 1 '/' := String.toList_append
  constructor
  · rintro (⟨name, n, hname, hend, hmem⟩ | ⟨hnone, -⟩)
    · have hsame := congrArg (Text.dropTrailing (· == '/')) (hpattern.symm.trans hname)
      rw [dropTrailing_slashes hkept, dropTrailing_slashes hend] at hsame
      rwa [String.toList_inj.1 hsame]
    · exact absurd (hpattern ▸ getLast?_slashes _ 0) hnone
  · exact fun hmem => .inl ⟨_, 0, hpattern, hkept, hmem⟩

/-- The path of a directory is a name exactly where it has one. -/
theorem slash_mem_locationText {d : Location} (hd : IsDirectoryPath d) (hlong : d.length ≠ 1) :
    '/' ∈ (FileTree.locationText d).toList := by
  match d, hd, hlong with
  | [], hd, _ => exact absurd rfl hd.1
  | [_], _, hlong => exact absurd rfl hlong
  | name :: next :: rest, _, _ =>
    rw [locationText_cons_cons]
    simp

/-- **The pattern of a directory whose path has several names leaves out nothing.** -/
theorem not_leavesOut_directoryPattern {d : Location} (hd : IsDirectoryPath d)
    (hlong : d.length ≠ 1) {file : Location} (hfile : ∀ name ∈ file, '/' ∉ name.toList) :
    ¬LeavesOut (directoryPattern d) file := by
  rw [leavesOut_directoryPattern hd]
  intro hmem
  exact hfile _ (List.dropLast_subset file hmem) (slash_mem_locationText hd hlong)

/-- A tree with an empty file in a directory. -/
def oneFileIn (d : Location) : FileTree := ⟨[(d ++ ["x.py"], .file .empty)]⟩

/-- The settings in which only the pattern of a directory leaves out files. -/
def leavingOut (d : Location) : AnalysisSettings :=
  { AnalysisSettings.usual with ignorePatterns := [directoryPattern d] }

theorem distinct_oneFileIn (d : Location) : (oneFileIn d).Distinct := by
  simp [FileTree.Distinct, oneFileIn]

theorem isDirectory_oneFileIn (d : Location) : (oneFileIn d).isDirectory d = true := by
  have hprefix : d.isPrefixOf (d ++ ["x.py"]) = true :=
    List.isPrefixOf_iff_prefix.2 (List.prefix_append d _)
  simp [FileTree.isDirectory, FileTree.entry?, oneFileIn, hprefix]

/-- A file in a directory whose path has several names is looked at in spite of the pattern. -/
theorem mem_sourceFiles_oneFileIn {d : Location} (hd : IsDirectoryPath d) (hlong : d.length ≠ 1) :
    (d ++ ["x.py"], .empty) ∈ sourceFiles (leavingOut d) (oneFileIn d) := by
  have hfile : ∀ name ∈ d ++ ["x.py"], '/' ∉ name.toList := by
    intro name hname
    rcases List.mem_append.1 hname with hname | hname
    · exact (hd.2 name hname).2
    · obtain rfl := List.mem_singleton.1 hname
      decide
  have hextension : ".py" ∈ AnalysisSettings.usual.extensions := by decide
  have hsize : (ByteArray.empty.size : Int) ≤ AnalysisSettings.usual.maxFileSize := by decide
  refine (mem_sourceFiles (distinct_oneFileIn d)).2 ⟨?_, ⟨".py", hextension, ?_⟩, hsize, ?_⟩
  · exact (distinct_oneFileIn d).mem_files.1 (FileTree.mem_files.2 List.mem_cons_self)
  · rw [List.getLast?_concat]
    decide
  · intro pattern hpattern
    obtain rfl := List.mem_singleton.1 hpattern
    exact not_leavesOut_directoryPattern hd hlong hfile

/-- **Main result.** The files that are looked at are those of a configured extension that are not
too large and that no pattern leaves out, in the order of their paths and each once. The pattern
that names a directory by its path leaves out what is at or below the directory, in every tree and
under all other settings, exactly where the path is a single name. -/
theorem sourceFiles_iff (d : Location) (hd : IsDirectoryPath d) :
    (∀ (settings : AnalysisSettings) (t : FileTree), t.Distinct →
      (∀ p content, (p, content) ∈ sourceFiles settings t ↔
        t.content? p = some content ∧ HasExtension settings p ∧
          (content.size : Int) ≤ settings.maxFileSize ∧
          ∀ pattern ∈ settings.ignorePatterns, ¬LeavesOut pattern p) ∧
      (sourceFiles settings t).Pairwise fun a b => a.1 < b.1) ∧
    ((∀ (settings : AnalysisSettings) (t : FileTree), t.Distinct →
        directoryPattern d ∈ settings.ignorePatterns → t.isDirectory d = true →
        ∀ p content, (p, content) ∈ sourceFiles settings t → ¬d <+: p) ↔
      d.length = 1) := by
  refine ⟨fun settings t h => ⟨fun p content => mem_sourceFiles h, sourceFiles_inOrder h⟩,
    fun hall => ?_, fun hone => ?_⟩
  · by_contra hlong
    exact hall (leavingOut d) (oneFileIn d) (distinct_oneFileIn d) List.mem_cons_self
      (isDirectory_oneFileIn d) _ _ (mem_sourceFiles_oneFileIn hd hlong) (List.prefix_append d _)
  · obtain ⟨name, rfl⟩ := List.length_eq_one_iff.1 hone
    rintro settings t h hpattern hdirectory p content hp ⟨rest, rfl⟩
    obtain ⟨hfile, -, -, hkept⟩ := (mem_sourceFiles h).1 hp
    have hname : FileTree.locationText [name] = name := String.intercalate_singleton
    -- the file is not the directory, so that its path goes on
    have hmore : rest ≠ [] := by
      rintro rfl
      rw [FileTree.isDirectory] at hdirectory
      rw [List.append_nil, FileTree.content?] at hfile
      split at hfile <;> simp_all
    refine hkept _ hpattern ((leavesOut_directoryPattern hd).2 ?_)
    rw [hname, List.singleton_append, List.dropLast_cons_of_ne_nil hmore]
    exact List.mem_cons_self

/-- A tree with a source and what was built of it. -/
def builtTree : FileTree :=
  ⟨[(["target", "gen.rs"], .file .empty), (["src", "main.rs"], .file .empty)]⟩

theorem sourceFiles_iff_target : builtTree.Distinct ∧ IsDirectoryPath ["target"] ∧
    directoryPattern ["target"] ∈ AnalysisSettings.usual.ignorePatterns ∧
    builtTree.isDirectory ["target"] = true ∧
    (∀ p content, (p, content) ∈ sourceFiles .usual builtTree → ¬["target"] <+: p) ∧
    (sourceFiles .usual builtTree).Pairwise (fun a b => a.1 < b.1) := by
  have htree : builtTree.Distinct := by decide
  have hpath : IsDirectoryPath ["target"] := by decide
  have hpattern : directoryPattern ["target"] ∈ AnalysisSettings.usual.ignorePatterns := by decide
  have hdirectory : builtTree.isDirectory ["target"] = true := by decide +kernel
  obtain ⟨hall, hdirectories⟩ := sourceFiles_iff ["target"] hpath
  exact ⟨htree, hpath, hpattern, hdirectory,
    hdirectories.2 rfl .usual builtTree htree hpattern hdirectory,
    (hall .usual builtTree htree).2⟩

/-- A directory below another one is looked at in spite of its pattern. -/
theorem sourceFiles_of_deep_pattern : IsDirectoryPath ["a", "b"] ∧
    directoryPattern ["a", "b"] ∈ (leavingOut ["a", "b"]).ignorePatterns ∧
    (oneFileIn ["a", "b"]).isDirectory ["a", "b"] = true ∧
    (sourceFiles (leavingOut ["a", "b"]) (oneFileIn ["a", "b"])).map Prod.fst =
      [["a", "b", "x.py"]] := by
  decide +kernel

end Inspection

end RepairLoop
