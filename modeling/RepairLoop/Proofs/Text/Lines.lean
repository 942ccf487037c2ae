import Mathlib.Algebra.BigOperators.Group.List.Basic
import RepairLoop.Text.Line
/-!
# Text — what cutting a text into lines yields

`Text.join_lines` says that no character is lost. This file says what the
lines look like: their bodies hold no boundary, only the last may lack its
own. Lines that are written with a line feed after each are read one by one
(`lineBodies_fed`): a line without a boundary as it is, and one that ends
with a boundary of its own as that line and, mostly, an empty one
(`lineBodies_of_boundary`). In a plain text the line feed is the only
boundary, so a line is its body and a line feed, which only the last may
lack (`plainLines_fullLines`).

A text that is cut at the occurrences of a character is what its pieces say
(`pieces_injective`). At its line feeds it is cut into its lines where the
line feed is its only boundary and does not end it (`pieces_eq_lineBodies`).
-/

namespace RepairLoop.Text

/-- No character of the text ends a line. -/
def Unbroken (cs : List Char) : Prop :=
  ∀ c ∈ cs, isLineBoundary c = false

/-- The line feed is the only line boundary in the text. -/
def Plain (cs : List Char) : Prop :=
  ∀ c ∈ cs, isLineBoundary c = true → c = '\n'

instance (cs : List Char) : Decidable (Unbroken cs) :=
  List.decidableBAll (fun c => isLineBoundary c = false) cs

instance (cs : List Char) : Decidable (Plain cs) :=
  List.decidableBAll (fun c => isLineBoundary c = true → c = '\n') cs

theorem unbroken_nil : Unbroken [] := by
  simp [Unbroken]

theorem unbroken_cons {c : Char} {cs : List Char} :
    Unbroken (c :: cs) ↔ isLineBoundary c = false ∧ Unbroken cs := by
  simp [Unbroken]

theorem unbroken_append {cs ds : List Char} :
    Unbroken (cs ++ ds) ↔ Unbroken cs ∧ Unbroken ds := by
  simp only [Unbroken, List.mem_append]
  exact ⟨fun h => ⟨fun c hc => h c (Or.inl hc), fun c hc => h c (Or.inr hc)⟩,
    fun h c hc => hc.elim (h.1 c) (h.2 c)⟩

/-- A part of an unbroken text is unbroken. -/
theorem Unbroken.of_subset {cs ds : List Char} (h : Unbroken cs) (hs : ds ⊆ cs) : Unbroken ds :=
  fun c hc => h c (hs hc)

theorem plain_append {cs ds : List Char} : Plain (cs ++ ds) ↔ Plain cs ∧ Plain ds := by
  simp only [Plain, List.mem_append]
  exact ⟨fun h => ⟨fun c hc => h c (Or.inl hc), fun c hc => h c (Or.inr hc)⟩,
    fun h c hc => hc.elim (h.1 c) (h.2 c)⟩

/-- An unbroken text has no boundary at all, so it is plain. -/
theorem Unbroken.plain {cs : List Char} (h : Unbroken cs) : Plain cs := by
  intro c hc hb
  rw [h c hc] at hb
  cases hb

/-! ## Cutting one character at a time -/

/-- A character that ends no line goes to the front of the first line. -/
theorem lines_cons_of_not_boundary {c : Char} (hc : isLineBoundary c = false) (cs : List Char) :
    lines (c :: cs) = consLine c (lines cs) := by
  have hr : c ≠ '\r' := by
    rintro rfl
    revert hc
    decide
  rw [lines.eq_def]
  split
  · contradiction
  · rename_i heq
    exact absurd (List.cons.inj heq).1 hr
  · rename_i heq
    obtain ⟨rfl, rfl⟩ := List.cons.inj heq
    simp [hc]

/-- A line feed ends a line. -/
theorem lines_feed (cs : List Char) : lines ('\n' :: cs) = ⟨[], ['\n']⟩ :: lines cs := by
  rw [lines]
  · simp [isLineBoundary]
  · intro rest h
    cases h

/-- A character that ends a line ends it where it is not the first half of a
longer boundary. -/
theorem lines_cons_of_boundary {c : Char} (hc : isLineBoundary c = true) {cs : List Char}
    (hr : c = '\r' → cs.head? ≠ some '\n') : lines (c :: cs) = ⟨[], [c]⟩ :: lines cs := by
  rw [lines.eq_def]
  split
  · contradiction
  · rename_i heq
    obtain ⟨rfl, rfl⟩ := List.cons.inj heq
    exact absurd rfl (hr rfl)
  · rename_i heq
    obtain ⟨rfl, rfl⟩ := List.cons.inj heq
    rw [if_pos hc]

theorem head?_ne_feed {c : Char} {cs : List Char}
    (h : ∀ rest, c = '\r' → cs = '\n' :: rest → False) : c = '\r' → cs.head? ≠ some '\n' := by
  intro hc hhead
  cases cs with
  | nil => cases hhead
  | cons d rest => exact h rest hc (by rw [Option.some.inj hhead])

/-- A boundary of a line in front of a text ends an empty line. -/
theorem lines_boundary {c : Char} (hc : isLineBoundary c = true) (cs : List Char) :
    ∃ l ls, lines (c :: cs) = l :: ls ∧ l.body = [] := by
  by_cases hr : c = '\r' ∧ cs.head? = some '\n'
  · obtain ⟨rfl, hhead⟩ := hr
    obtain ⟨rest, rfl⟩ : ∃ rest, cs = '\n' :: rest := by
      cases cs with
      | nil => cases hhead
      | cons d rest => exact ⟨rest, by simpa using hhead⟩
    exact ⟨⟨[], ['\r', '\n']⟩, lines rest, by rw [lines], rfl⟩
  · exact ⟨⟨[], [c]⟩, lines cs,
      lines_cons_of_boundary hc fun h hhead => hr ⟨h, hhead⟩, rfl⟩

/-- Unbroken text goes to the front of the first line. -/
theorem lines_append {b cs : List Char} {l : Line} {ls : List Line} (hb : Unbroken b)
    (h : lines cs = l :: ls) : lines (b ++ cs) = ⟨b ++ l.body, l.ending⟩ :: ls := by
  induction b with
  | nil => exact h
  | cons c b ih =>
    obtain ⟨hc, hb⟩ := unbroken_cons.1 hb
    rw [List.cons_append, lines_cons_of_not_boundary hc, ih hb]
    rfl

/-- Unbroken text up to a line feed is the first line. -/
theorem lines_append_feed {l : List Char} (hl : Unbroken l) (cs : List Char) :
    lines (l ++ '\n' :: cs) = ⟨l, ['\n']⟩ :: lines cs := by
  have h := lines_append hl (lines_feed cs)
  rwa [List.append_nil] at h

theorem consLine_append {c : Char} {ls ms : List Line} (h : ls ≠ []) :
    consLine c (ls ++ ms) = consLine c ls ++ ms := by
  cases ls with
  | nil => exact absurd rfl h
  | cons l ls => rfl

theorem length_consLine (c : Char) (ls : List Line) :
    (consLine c ls).length = max 1 ls.length := by
  cases ls with
  | nil => rfl
  | cons l ls => exact (Nat.max_eq_right (Nat.le_add_left 1 _)).symm

theorem lines_ne_nil {cs : List Char} (h : cs ≠ []) : lines cs ≠ [] := fun hnil => by
  have hjoin := join_lines cs
  rw [fullLines, hnil] at hjoin
  exact h hjoin.symm

/-- **A line feed cuts a text wherever it stands**: what is in front of it
and what is behind it are cut each on its own. -/
theorem lines_feed_between (cs ds : List Char) :
    lines (cs ++ '\n' :: ds) = lines (cs ++ ['\n']) ++ lines ds := by
  induction cs using lines.induct with
  | case1 =>
    rw [List.nil_append, List.nil_append, lines_feed, lines_feed]
    rfl
  | case2 rest ih =>
    simp only [List.cons_append, lines, ih]
  | case3 c rest hnot hc ih =>
    by_cases hlast : c = '\r' ∧ rest = []
    · -- the line feed itself is the second half of the boundary
      obtain ⟨rfl, rfl⟩ := hlast
      rfl
    · have hr : ∀ es : List Char, c = '\r' → (rest ++ '\n' :: es).head? ≠ some '\n' := by
        intro es hcr hhead
        cases rest with
        | nil => exact hlast ⟨hcr, rfl⟩
        | cons d rest =>
          obtain rfl : d = '\n' := by simpa using hhead
          exact hnot rest hcr rfl
      rw [List.cons_append, List.cons_append, lines_cons_of_boundary hc (hr ds),
        lines_cons_of_boundary hc (hr []), ih, List.cons_append]
  | case4 c rest _ hc ih =>
    have hc' : isLineBoundary c = false := by simpa using hc
    rw [List.cons_append, List.cons_append, lines_cons_of_not_boundary hc',
      lines_cons_of_not_boundary hc', ih, consLine_append (lines_ne_nil (by simp))]

theorem bodies_consLine (c : Char) (l : Line) (ls : List Line) :
    (consLine c (l :: ls)).map Line.body = (c :: l.body) :: ls.map Line.body := rfl

/-- A line feed behind a text adds no line to it, or an empty one. -/
theorem lineBodies_feed_behind (cs : List Char) :
    lineBodies (cs ++ ['\n']) = lineBodies cs ∨
      lineBodies (cs ++ ['\n']) = lineBodies cs ++ [[]] := by
  unfold lineBodies
  induction cs using lines.induct with
  | case1 => exact .inr rfl
  | case2 rest ih =>
    simp only [List.cons_append, lines, List.map_cons]
    exact ih.imp (congrArg _) (congrArg _)
  | case3 c rest hnot hc ih =>
    by_cases hlast : c = '\r' ∧ rest = []
    · obtain ⟨rfl, rfl⟩ := hlast
      exact .inl rfl
    · have hr : c = '\r' → (rest ++ ['\n']).head? ≠ some '\n' := by
        intro hcr hhead
        cases rest with
        | nil => exact hlast ⟨hcr, rfl⟩
        | cons d rest =>
          obtain rfl : d = '\n' := by simpa using hhead
          exact hnot rest hcr rfl
      rw [List.cons_append, lines_cons_of_boundary hc hr,
        lines_cons_of_boundary hc (head?_ne_feed hnot), List.map_cons, List.map_cons]
      exact ih.imp (congrArg _) (congrArg _)
  | case4 c rest _ hc ih =>
    have hc' : isLineBoundary c = false := by simpa using hc
    rw [List.cons_append, lines_cons_of_not_boundary hc', lines_cons_of_not_boundary hc']
    cases rest with
    | nil => exact .inl rfl
    | cons d rest =>
      obtain ⟨l, ls, hlines⟩ := List.exists_cons_of_ne_nil (lines_ne_nil (List.cons_ne_nil d rest))
      have hmore : lines (d :: rest ++ ['\n']) ≠ [] := lines_ne_nil (List.cons_ne_nil _ _)
      obtain ⟨m, ms, hmore⟩ := List.exists_cons_of_ne_nil hmore
      rw [hlines, hmore, bodies_consLine, bodies_consLine]
      rw [hlines, hmore, List.map_cons, List.map_cons] at ih
      rw [List.cons_append, List.cons.injEq, List.cons.injEq] at ih
      rcases ih with ⟨hfirst, hrest⟩ | ⟨hfirst, hrest⟩
      · exact .inl (by rw [hfirst, hrest])
      · exact .inr (by rw [hfirst, hrest, List.cons_append])

/-- What is read of lines that are written with a line feed after each. -/
theorem lineBodies_fed (ls : List (List Char)) :
    lineBodies (ls.flatMap (· ++ ['\n'])) = ls.flatMap fun l => lineBodies (l ++ ['\n']) := by
  induction ls with
  | nil => rfl
  | cons l ls ih =>
    rw [List.flatMap_cons, List.flatMap_cons, ← ih, List.append_assoc, List.singleton_append,
      lineBodies, lines_feed_between, List.map_append]
    rfl

/-- An unbroken line is read back as it is written. -/
theorem lineBodies_of_unbroken {l : List Char} (h : Unbroken l) :
    lineBodies (l ++ ['\n']) = [l] := by
  rw [lineBodies, lines_append_feed h]
  rfl

/-- What follows a line feed is cut on its own. -/
theorem lineBodies_append_of_feed {cs : List Char} (h : cs.getLast? = some '\n')
    (ds : List Char) : lineBodies (cs ++ ds) = lineBodies cs ++ lineBodies ds := by
  obtain ⟨front, rfl⟩ := List.getLast?_eq_some_iff.1 h
  rw [List.append_assoc, List.singleton_append, lineBodies, lines_feed_between, List.map_append]
  rfl

/-- Unbroken text is one line, unless it is empty. -/
theorem lineBodies_alone {l : List Char} (h : Unbroken l) (hne : l ≠ []) : lineBodies l = [l] := by
  obtain ⟨front, c, rfl⟩ := (List.eq_nil_or_concat' l).resolve_left hne
  obtain ⟨hfront, hc⟩ := unbroken_append.1 h
  have hone : lines [c] = [⟨[c], []⟩] := by
    rw [lines_cons_of_not_boundary (unbroken_cons.1 hc).1]
    rfl
  rw [lineBodies, lines_append hfront hone]
  rfl

/-- A carriage return in front of the line feed is no part of the line. -/
theorem lineBodies_of_return {l : List Char} (h : Unbroken l) :
    lineBodies (l ++ ['\r'] ++ ['\n']) = [l] := by
  rw [lineBodies, List.append_assoc, List.singleton_append, lines_append h rfl, List.append_nil]
  rfl

/-- **Another boundary in front of the line feed leaves an empty line.** -/
theorem lineBodies_of_boundary {l : List Char} {c : Char} (h : Unbroken l)
    (hc : isLineBoundary c = true) (hr : c ≠ '\r') :
    lineBodies (l ++ [c] ++ ['\n']) = [l, []] := by
  have hlines : lines [c, '\n'] = ⟨[], [c]⟩ :: lines ['\n'] :=
    lines_cons_of_boundary hc fun h => absurd h hr
  rw [lineBodies, List.append_assoc, List.singleton_append, lines_append h hlines, lines_feed,
    List.append_nil]
  rfl

/-! ## The shape of the lines -/

/-- **What is so of a line holds of all lines of a text** if it is so of an
ended one without a body, of a single character, and kept by a character put
in front. -/
theorem forall_lines {P : Line → Prop} (hcrlf : P ⟨[], ['\r', '\n']⟩)
    (hend : ∀ c, isLineBoundary c = true → P ⟨[], [c]⟩)
    (hone : ∀ c, isLineBoundary c = false → P ⟨[c], []⟩)
    (hcons : ∀ c l, isLineBoundary c = false → P l → P ⟨c :: l.body, l.ending⟩)
    (cs : List Char) : ∀ l ∈ lines cs, P l := by
  fun_induction lines cs with
  | case1 => simp
  | case2 rest ih =>
    intro l hl
    rcases List.mem_cons.1 hl with rfl | hl
    · exact hcrlf
    · exact ih l hl
  | case3 c rest _ hb ih =>
    intro l hl
    rcases List.mem_cons.1 hl with rfl | hl
    · exact hend c hb
    · exact ih l hl
  | case4 c rest _ hb ih =>
    have hc : isLineBoundary c = false := by simpa using hb
    intro l hl
    cases hrest : lines rest with
    | nil =>
      rw [hrest, consLine, List.mem_singleton] at hl
      exact hl ▸ hone c hc
    | cons m ms =>
      rw [hrest] at hl ih
      rcases List.mem_cons.1 hl with rfl | hl
      · exact hcons c m hc (ih m (by simp))
      · exact ih l (by simp [hl])

/-- The body of a line holds no boundary. -/
theorem unbroken_of_mem_lines {cs : List Char} : ∀ l ∈ lines cs, Unbroken l.body :=
  forall_lines unbroken_nil (fun _ _ => unbroken_nil)
    (fun _ hc => unbroken_cons.2 ⟨hc, unbroken_nil⟩)
    (fun _ _ hc hl => unbroken_cons.2 ⟨hc, hl⟩) cs

/-- A line ends with one character, with a carriage return and a line feed,
or not at all. -/
theorem ending_of_mem_lines {cs : List Char} :
    ∀ l ∈ lines cs, l.ending.length ≤ 1 ∨ l.ending = ['\r', '\n'] :=
  forall_lines (Or.inr rfl) (fun _ _ => Or.inl (Nat.le_refl _)) (fun _ _ => Or.inl (Nat.zero_le _))
    (fun _ _ _ hl => hl) cs

/-- Without their boundaries the lines hold none. -/
theorem unbroken_of_mem_lineBodies {cs l : List Char} (h : l ∈ lineBodies cs) : Unbroken l := by
  obtain ⟨m, hm, rfl⟩ := List.mem_map.1 h
  exact unbroken_of_mem_lines m hm

/-- A line is not empty: what has no body has a boundary. -/
theorem full_ne_nil {cs : List Char} : ∀ l ∈ lines cs, l.full ≠ [] :=
  forall_lines (by simp [Line.full]) (by simp [Line.full]) (by simp [Line.full])
    (by simp [Line.full]) cs

/-- **Of a full line at most the last character ends lines**, or the last two
are a carriage return and a line feed. -/
theorem dropLast_of_mem_fullLines {cs l : List Char} (h : l ∈ fullLines cs) :
    Unbroken l.dropLast ∨ ∃ b, Unbroken b ∧ l = b ++ ['\r', '\n'] := by
  obtain ⟨m, hm, rfl⟩ := List.mem_map.1 h
  have hb := unbroken_of_mem_lines m hm
  rcases ending_of_mem_lines m hm with hlen | hcrlf
  · left
    rw [Line.full]
    rcases hend : m.ending with _ | ⟨c, _ | ⟨d, rest⟩⟩
    · rw [List.append_nil]
      exact hb.of_subset (List.dropLast_subset _)
    · rwa [List.dropLast_concat]
    · rw [hend] at hlen
      simp at hlen
  · exact Or.inr ⟨m.body, hb, by rw [Line.full, hcrlf]⟩

/-- A text has at most as many lines as characters. -/
theorem length_fullLines_le (cs : List Char) : (fullLines cs).length ≤ cs.length := by
  have hone : ∀ n ∈ (fullLines cs).map List.length, 1 ≤ n := by
    intro n hn
    obtain ⟨l, hl, rfl⟩ := List.mem_map.1 hn
    obtain ⟨m, hm, rfl⟩ := List.mem_map.1 hl
    exact List.length_pos_of_ne_nil (full_ne_nil m hm)
  have hsum := List.length_le_sum_of_one_le _ hone
  rwa [List.length_map, ← List.length_flatten, join_lines] at hsum

theorem length_lineBodies_le (cs : List Char) : (lineBodies cs).length ≤ cs.length := by
  have hle := length_fullLines_le cs
  rwa [fullLines, List.length_map, ← List.length_map (f := Line.body)] at hle

/-! ## The lines of a plain text -/

/-- A body without a boundary and a line feed after it. -/
def Fed (l : List Char) : Prop :=
  ∃ b, Unbroken b ∧ l = b ++ ['\n']

/-- A line of a plain text: fed, or a body alone. -/
def PlainLine (l : List Char) : Prop :=
  Fed l ∨ (Unbroken l ∧ l ≠ [])

/-- Only the last line may lack its line feed. -/
structure PlainLines (ls : List (List Char)) : Prop where
  plain : ∀ l ∈ ls, PlainLine l
  inner : ∀ l ∈ ls.dropLast, Fed l

theorem plainLines_cons {l : List Char} {ls : List (List Char)} (hl : Fed l)
    (h : PlainLines ls) : PlainLines (l :: ls) := by
  refine ⟨fun m hm => ?_, fun m hm => ?_⟩
  · rcases List.mem_cons.1 hm with rfl | hm
    · exact Or.inl hl
    · exact h.plain m hm
  · by_cases hne : ls = []
    · simp [hne] at hm
    · rw [List.dropLast_cons_of_ne_nil hne] at hm
      rcases List.mem_cons.1 hm with rfl | hm
      · exact hl
      · exact h.inner m hm

/-- A character that ends no line keeps the lines plain. -/
theorem plainLines_consLine {c : Char} (hc : isLineBoundary c = false) {ls : List Line}
    (h : PlainLines (ls.map Line.full)) : PlainLines ((consLine c ls).map Line.full) := by
  have hfed : ∀ l, Fed l → Fed (c :: l) := by
    rintro l ⟨b, hb, rfl⟩
    exact ⟨c :: b, unbroken_cons.2 ⟨hc, hb⟩, rfl⟩
  cases ls with
  | nil =>
    refine ⟨fun l hl => ?_, by simp [consLine]⟩
    simp only [consLine, Line.full, List.map_cons, List.map_nil, List.append_nil,
      List.mem_singleton] at hl
    subst hl
    exact Or.inr ⟨unbroken_cons.2 ⟨hc, unbroken_nil⟩, by simp⟩
  | cons m ms =>
    have hfull : ((consLine c (m :: ms)).map Line.full) = (c :: m.full) :: ms.map Line.full := rfl
    rw [hfull]
    rw [List.map_cons] at h
    have hhead : PlainLine (c :: m.full) := by
      rcases h.plain m.full (by simp) with hm | ⟨hm, -⟩
      · exact Or.inl (hfed _ hm)
      · exact Or.inr ⟨unbroken_cons.2 ⟨hc, hm⟩, by simp⟩
    refine ⟨fun l hl => ?_, fun l hl => ?_⟩
    · rcases List.mem_cons.1 hl with rfl | hl
      · exact hhead
      · exact h.plain l (by simp [hl])
    · by_cases hne : ms.map Line.full = []
      · rw [hne] at hl
        simp at hl
      · have hinner := h.inner
        rw [List.dropLast_cons_of_ne_nil hne] at hl hinner
        rcases List.mem_cons.1 hl with rfl | hl
        · exact hfed _ (hinner m.full (by simp))
        · exact hinner l (by simp [hl])

/-- **The lines of a plain text are plain.** -/
theorem plainLines_fullLines {cs : List Char} (h : Plain cs) : PlainLines (fullLines cs) := by
  induction cs with
  | nil => exact ⟨by simp [fullLines, lines], by simp [fullLines, lines]⟩
  | cons c cs ih =>
    have hcs : Plain cs := fun d hd => h d (by simp [hd])
    rcases Bool.eq_false_or_eq_true (isLineBoundary c) with hc | hc
    · obtain rfl := h c (by simp) hc
      rw [fullLines, lines_feed, List.map_cons]
      exact plainLines_cons ⟨[], unbroken_nil, rfl⟩ (ih hcs)
    · rw [fullLines, lines_cons_of_not_boundary hc]
      exact plainLines_consLine hc (ih hcs)

/-! ## Cutting at the occurrences of a character -/

variable {sep : Char}

theorem pieces_sep (sep : Char) (cs : List Char) :
    pieces sep (sep :: cs) = [] :: pieces sep cs := by
  rw [pieces, if_pos (beq_self_eq_true sep)]

theorem pieces_cons {c : Char} (hc : c ≠ sep) {cs p : List Char} {ps : List (List Char)}
    (h : pieces sep cs = p :: ps) : pieces sep (c :: cs) = (c :: p) :: ps := by
  rw [pieces, if_neg (beq_iff_eq.not.2 hc), h, consPiece]

theorem pieces_cons_ne (sep c : Char) (cs : List Char) : pieces sep (c :: cs) ≠ [[]] := by
  intro h
  by_cases hc : c = sep
  · rw [hc, pieces_sep] at h
    exact pieces_ne_nil _ cs (List.cons.inj h).2
  · obtain ⟨p, ps, hpieces⟩ := List.exists_cons_of_ne_nil (pieces_ne_nil _ cs)
    rw [pieces_cons hc hpieces] at h
    cases h

/-- A text is what its pieces say. -/
theorem pieces_injective {cs ds : List Char} (h : pieces sep cs = pieces sep ds) : cs = ds := by
  induction cs generalizing ds with
  | nil =>
    cases ds with
    | nil => rfl
    | cons d ds => exact absurd h.symm (pieces_cons_ne sep d ds)
  | cons c cs ih =>
    cases ds with
    | nil => exact absurd h (pieces_cons_ne sep c cs)
    | cons d ds =>
      obtain ⟨p, ps, hp⟩ := List.exists_cons_of_ne_nil (pieces_ne_nil _ cs)
      obtain ⟨q, qs, hq⟩ := List.exists_cons_of_ne_nil (pieces_ne_nil _ ds)
      by_cases hc : c = sep <;> by_cases hd : d = sep
      · rw [hc, hd, pieces_sep, pieces_sep] at h
        rw [hc, hd, ih (List.cons.inj h).2]
      · rw [hc, pieces_sep, pieces_cons hd hq] at h
        cases h
      · rw [hd, pieces_sep, pieces_cons hc hp] at h
        cases h
      · rw [pieces_cons hc hp, pieces_cons hd hq] at h
        obtain ⟨hfirst, rfl⟩ := List.cons.inj h
        obtain ⟨rfl, rfl⟩ := List.cons.inj hfirst
        rw [ih (hp.trans hq.symm)]

theorem length_pieces (sep : Char) (cs : List Char) :
    (pieces sep cs).length = cs.count sep + 1 := by
  induction cs with
  | nil => rfl
  | cons c cs ih =>
    obtain ⟨p, ps, hpieces⟩ := List.exists_cons_of_ne_nil (pieces_ne_nil _ cs)
    by_cases hc : c = sep
    · subst hc
      rw [pieces_sep, List.length_cons, ih, List.count_cons_self]
    · have hlength := congrArg List.length hpieces
      rw [pieces_cons hc hpieces, List.length_cons, List.count_cons_of_ne hc, ← ih, hlength]
      rfl

/-- The last piece of a text goes on with the first one of what is set behind it. -/
theorem pieces_append {cs ds p q : List Char} {ps qs : List (List Char)}
    (hcs : pieces sep cs = ps ++ [p]) (hds : pieces sep ds = q :: qs) :
    pieces sep (cs ++ ds) = ps ++ (p ++ q) :: qs := by
  induction cs generalizing p ps with
  | nil =>
    obtain ⟨rfl, rfl⟩ : ps = [] ∧ p = [] := by
      cases ps with
      | nil => exact ⟨rfl, (List.cons.inj hcs).1.symm⟩
      | cons r ps => exact absurd (List.cons.inj hcs).2.symm (by simp)
    exact hds
  | cons c cs ih =>
    obtain ⟨front, last, hpieces⟩ :=
      (List.eq_nil_or_concat' (pieces sep cs)).resolve_left (pieces_ne_nil _ cs)
    by_cases hc : c = sep
    · subst hc
      rw [pieces_sep, hpieces, ← List.cons_append] at hcs
      obtain ⟨rfl, hlast⟩ := List.append_inj' hcs rfl
      obtain rfl := List.singleton_inj.1 hlast
      rw [List.cons_append, pieces_sep, ih hpieces, List.cons_append]
    · cases front with
      | nil =>
        rw [pieces_cons hc hpieces, ← List.nil_append [c :: last]] at hcs
        obtain ⟨rfl, hlast⟩ := List.append_inj' hcs rfl
        obtain rfl := List.singleton_inj.1 hlast
        rw [List.cons_append, pieces_cons hc (ih hpieces)]
        rfl
      | cons r front =>
        replace hcs : (c :: r) :: front ++ [last] = ps ++ [p] :=
          (pieces_cons hc hpieces).symm.trans hcs
        obtain ⟨rfl, hlast⟩ := List.append_inj' hcs rfl
        obtain rfl := List.singleton_inj.1 hlast
        rw [List.cons_append, pieces_cons hc (ih hpieces)]
        rfl

theorem pieces_of_notMem {cs : List Char} (h : sep ∉ cs) : pieces sep cs = [cs] := by
  induction cs with
  | nil => rfl
  | cons c cs ih =>
    obtain ⟨hc, hcs⟩ := not_or.1 (List.mem_cons.not.1 h)
    rw [pieces_cons (Ne.symm hc) (ih hcs)]

theorem pieces_prefix {cs p : List Char} {ps : List (List Char)} (h : pieces sep cs = p :: ps) :
    p <+: cs := by
  induction cs generalizing p ps with
  | nil =>
    obtain ⟨rfl, -⟩ := List.cons.inj h
    exact List.nil_prefix
  | cons c cs ih =>
    obtain ⟨q, qs, hpieces⟩ := List.exists_cons_of_ne_nil (pieces_ne_nil sep cs)
    by_cases hc : c = sep
    · rw [hc, pieces_sep] at h
      obtain ⟨rfl, -⟩ := List.cons.inj h
      exact List.nil_prefix
    · rw [pieces_cons hc hpieces] at h
      obtain ⟨rfl, -⟩ := List.cons.inj h
      exact List.cons_prefix_cons.2 ⟨rfl, ih hpieces⟩

theorem notMem_of_mem_pieces {cs p : List Char} (h : p ∈ pieces sep cs) : sep ∉ p := by
  induction cs generalizing p with
  | nil => simp_all [pieces]
  | cons c cs ih =>
    obtain ⟨q, qs, hpieces⟩ := List.exists_cons_of_ne_nil (pieces_ne_nil sep cs)
    by_cases hc : c = sep
    · rw [hc, pieces_sep] at h
      rcases List.mem_cons.1 h with rfl | h
      · exact List.not_mem_nil
      · exact ih h
    · rw [pieces_cons hc hpieces] at h
      rw [hpieces] at ih
      rcases List.mem_cons.1 h with rfl | h
      · exact List.mem_cons.not.2 (not_or.2 ⟨Ne.symm hc, ih List.mem_cons_self⟩)
      · exact ih (List.mem_cons_of_mem _ h)

theorem pieces_append_sep {p : List Char} (h : sep ∉ p) (cs : List Char) :
    pieces sep (p ++ sep :: cs) = p :: pieces sep cs :=
  pieces_append_cons sep p cs fun _ hc => beq_eq_false_iff_ne.2 fun heq => h (heq ▸ hc)

/-- **Lines that are joined and cut again.** -/
theorem pieces_intercalate {ps : List (List Char)} (hne : ps ≠ []) (h : ∀ p ∈ ps, sep ∉ p) :
    pieces sep ([sep].intercalate ps) = ps := by
  induction ps with
  | nil => exact absurd rfl hne
  | cons p ps ih =>
    obtain ⟨hp, hps⟩ := List.forall_mem_cons.1 h
    cases ps with
    | nil => rw [List.intercalate_singleton, pieces_of_notMem hp]
    | cons q ps =>
      rw [List.intercalate_cons_cons, List.append_assoc, List.singleton_append,
        pieces_append_sep hp, ih (List.cons_ne_nil _ _) hps]

/-- **Texts that are each ended by the character** are cut apart, in front of what follows. -/
theorem pieces_ended {ps : List (List Char)} (h : ∀ p ∈ ps, sep ∉ p) (cs : List Char) :
    pieces sep (ps.flatMap (· ++ [sep]) ++ cs) = ps ++ pieces sep cs := by
  induction ps with
  | nil => rfl
  | cons p ps ih =>
    obtain ⟨hp, hps⟩ := List.forall_mem_cons.1 h
    rw [List.flatMap_cons, List.append_assoc, List.append_assoc, List.singleton_append,
      pieces_append_sep hp, ih hps, List.cons_append]

/-! ## Texts that do not end with a boundary -/

/-- The last character of a text ends no line. -/
def EndsInLine (cs : List Char) : Prop :=
  ∃ front c, cs = front ++ [c] ∧ isLineBoundary c = false

theorem EndsInLine.append {ds : List Char} (h : EndsInLine ds) (cs : List Char) :
    EndsInLine (cs ++ ds) := by
  obtain ⟨front, c, rfl, hc⟩ := h
  exact ⟨cs ++ front, c, (List.append_assoc ..).symm, hc⟩

theorem EndsInLine.of_cons {c : Char} {cs : List Char} (h : EndsInLine (c :: cs)) :
    EndsInLine cs ∨ cs = [] ∧ isLineBoundary c = false := by
  obtain ⟨front, d, heq, hd⟩ := h
  cases front with
  | nil =>
    obtain ⟨rfl, rfl⟩ := List.cons.inj heq
    exact Or.inr ⟨rfl, hd⟩
  | cons e front => exact Or.inl ⟨front, d, (List.cons.inj heq).2, hd⟩

/-- A text that does not end with a boundary has more lines than line feeds. -/
theorem count_feed_lt {cs : List Char} (h : EndsInLine cs) :
    cs.count '\n' < (lines cs).length := by
  induction cs using lines.induct with
  | case1 =>
    obtain ⟨front, c, heq, -⟩ := h
    simp at heq
  | case2 rest ih =>
    have hrest : EndsInLine rest := by
      obtain h | ⟨-, h⟩ := h.of_cons
      · exact h.of_cons.resolve_right fun h => absurd h.2 (by decide)
      · cases h
    have := ih hrest
    rw [lines, List.length_cons, List.count_cons_of_ne (by decide), List.count_cons_self]
    omega
  | case3 c rest hnot hc ih =>
    have hrest : EndsInLine rest := h.of_cons.resolve_right fun h => by
      rw [hc] at h
      cases h.2
    have := ih hrest
    have hcount : (c :: rest).count '\n' ≤ rest.count '\n' + 1 := by
      rw [List.count_cons]
      split <;> omega
    rw [lines_cons_of_boundary hc (head?_ne_feed hnot), List.length_cons]
    omega
  | case4 c rest hnot hc ih =>
    have hc : isLineBoundary c = false := by simpa using hc
    have hfeed : c ≠ '\n' := by
      rintro rfl
      cases hc
    rw [lines_cons_of_not_boundary hc, length_consLine, List.count_cons_of_ne hfeed]
    obtain h | ⟨rfl, -⟩ := h.of_cons
    · exact Nat.lt_of_lt_of_le (ih h) (Nat.le_max_right ..)
    · exact Nat.lt_of_lt_of_le Nat.zero_lt_one (Nat.le_max_left ..)

/-- Where the line feed is the only boundary, both ways to cut come to the same. -/
theorem pieces_eq_lineBodies {cs : List Char} (hplain : Plain cs) (hend : EndsInLine cs) :
    pieces '\n' cs = lineBodies cs := by
  induction cs with
  | nil =>
    obtain ⟨front, c, heq, -⟩ := hend
    simp at heq
  | cons c cs ih =>
    obtain ⟨hc, hplain⟩ := List.forall_mem_cons.1 hplain
    obtain hend | ⟨rfl, hbreak⟩ := hend.of_cons
    · by_cases hfeed : c = '\n'
      · rw [hfeed, pieces_sep, ih hplain hend, lineBodies, lineBodies,
          lines_feed]
        rfl
      · have hbreak : isLineBoundary c = false := by
          simpa using fun h => hfeed (hc h)
        obtain ⟨p, ps, hpieces⟩ := List.exists_cons_of_ne_nil (pieces_ne_nil _ cs)
        have hlines := ih hplain hend
        rw [hpieces, lineBodies] at hlines
        rw [pieces_cons hfeed hpieces, lineBodies, lines_cons_of_not_boundary hbreak]
        cases hcs : lines cs with
        | nil =>
          rw [hcs] at hlines
          cases hlines
        | cons l ls =>
          rw [hcs] at hlines
          obtain ⟨rfl, rfl⟩ := List.cons.inj hlines
          rfl
    · have hone : Unbroken [c] := fun d hd => by rwa [List.mem_singleton.1 hd]
      have hfeed : c ≠ '\n' := by
        rintro rfl
        cases hbreak
      rw [lineBodies_alone hone (List.cons_ne_nil c []), pieces_cons hfeed rfl]

end RepairLoop.Text
