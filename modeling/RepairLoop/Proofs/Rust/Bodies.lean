import Mathlib.Algebra.Ring.Int.Defs
import RepairLoop.Proofs.Pattern.Matches
import RepairLoop.Proofs.Rust.Balance
import RepairLoop.Proofs.Text.Lines
/-!
# Bodies — what is counted of a function

The branches of a function are counted by whole lines: from the line with its first brace to the
first one at whose end no brace is open (`untilClosed`). A branch stands within one line, and on
one side of each brace (`branchCount_append_cons`), so the lines that are counted make one text, and
its branches are the number that is told (`bodyBranches_opened`). Brackets that nest leave no
brace open (`Nested.surplus_eq_zero`), and the scan passes a body as a whole
(`untilClosed_body`).
-/

namespace RepairLoop.Rust

open Pattern (endsInWord)

/-! ## Branches in a text -/

@[simp] theorem branchCount_nil : branchCount [] = 0 := by decide

/-- A branch stands on one side of a character that no branch has. -/
theorem branchCount_append_cons {c : Char} (hc : branchPattern.avoids c = true)
    (hword : Text.isWordChar c = false) (cs ds : List Char) :
    branchCount (cs ++ c :: ds) = branchCount cs + branchCount ds :=
  Pattern.length_findAll_append_cons hc (by decide) hword cs ds

theorem branchCount_append_feed (cs ds : List Char) :
    branchCount (cs ++ '\n' :: ds) = branchCount cs + branchCount ds :=
  branchCount_append_cons (by decide) (by decide) cs ds

theorem branchCount_append_opening (cs ds : List Char) :
    branchCount (cs ++ '\x7b' :: ds) = branchCount cs + branchCount ds :=
  branchCount_append_cons (by decide) (by decide) cs ds

theorem branchCount_append_closing (cs ds : List Char) :
    branchCount (cs ++ '\x7d' :: ds) = branchCount cs + branchCount ds :=
  branchCount_append_cons (by decide) (by decide) cs ds

/-! ## Open braces -/

/-- By how much a character changes the number of open braces. -/
def weight (c : Char) : Int := if c = '\x7b' then 1 else if c = '\x7d' then -1 else 0

/-- How many more braces a text opens than it closes. -/
def surplus (cs : List Char) : Int := (cs.map weight).sum

@[simp] theorem surplus_nil : surplus [] = 0 := rfl

@[simp] theorem surplus_cons (c : Char) (cs : List Char) :
    surplus (c :: cs) = weight c + surplus cs := by
  simp [surplus]

@[simp] theorem surplus_append (cs ds : List Char) :
    surplus (cs ++ ds) = surplus cs + surplus ds := by
  simp [surplus]

/-- The brackets in a text. -/
def brackets (cs : List Char) : List Char := cs.filter fun c => isOpening c || isClosing c

theorem surplus_brackets (cs : List Char) : surplus (brackets cs) = surplus cs := by
  induction cs with
  | nil => rfl
  | cons c cs ih =>
    rw [brackets, List.filter_cons]
    split
    · rw [surplus_cons, surplus_cons, ← ih, brackets]
    · rename_i hc
      have hweight : weight c = 0 := by
        unfold weight
        split
        · rename_i h
          exact absurd (h ▸ rfl) hc
        split
        · rename_i h
          exact absurd (h ▸ rfl) hc
        · rfl
      rw [surplus_cons, hweight, Int.zero_add, ← ih, brackets]

theorem isBracket_of_mem_brackets {cs : List Char} {d : Delimiter}
    (h : d ∈ (brackets cs).map fun c => ⟨c, 0, 0⟩) : d.IsBracket := by
  obtain ⟨c, hc, rfl⟩ := List.mem_map.1 h
  exact Bool.or_eq_true_iff.1 (List.mem_filter.1 hc).2

/-- Whether the brackets in a text nest is found by reading them. -/
theorem nested_brackets_iff (cs : List Char) :
    Nested (brackets cs) ↔
      (openBehind [] ((brackets cs).map fun c => ⟨c, 0, 0⟩)).toOption = some [] := by
  have hchars : chars ((brackets cs).map fun c => ⟨c, 0, 0⟩) = brackets cs := by
    simp [chars, Function.comp_def]
  have hnested := nested_iff fun d (hd : d ∈ (brackets cs).map fun c => ⟨c, 0, 0⟩) =>
    isBracket_of_mem_brackets hd
  rw [hchars] at hnested
  rw [hnested]
  cases openBehind [] ((brackets cs).map fun c => ⟨c, 0, 0⟩) <;> simp [Except.toOption]

instance (cs : List Char) : Decidable (Nested (brackets cs)) :=
  decidable_of_iff _ (nested_brackets_iff cs).symm

theorem weight_pair {o c : Char} (h : Pair o c) : 0 ≤ weight o ∧ weight o + weight c = 0 := by
  simp only [Pair, List.mem_cons, Prod.mk.injEq, List.not_mem_nil, or_false] at h
  rcases h with ⟨rfl, rfl⟩ | ⟨rfl, rfl⟩ | ⟨rfl, rfl⟩ <;> decide

/-- A word that nests closes as many braces as it opens. -/
theorem Nested.surplus_eq_zero {cs : List Char} (h : Nested cs) : surplus cs = 0 := by
  induction h with
  | nil => rfl
  | pair hpair _ _ ihinner ihrest =>
    have := (weight_pair hpair).2
    rw [surplus_cons, surplus_append, surplus_cons, ihinner, ihrest]
    omega

/-- **And on the way it never closes more than it has opened.** -/
theorem Nested.surplus_nonneg {cs : List Char} (h : Nested cs) {front : List Char}
    (hfront : front <+: cs) : 0 ≤ surplus front := by
  induction h generalizing front with
  | nil => rw [List.prefix_nil.1 hfront]; exact Int.le_refl _
  | @pair o c inner rest hpair hinner _ ihinner ihrest =>
    obtain ⟨hopen, hsum⟩ := weight_pair hpair
    rcases List.prefix_cons_iff.1 hfront with rfl | ⟨front, rfl, hbehind⟩
    · exact Int.le_refl _
    rw [surplus_cons]
    rcases List.prefix_or_prefix_of_prefix hbehind (List.prefix_append inner _) with
      hinside | ⟨more, rfl⟩
    · have := ihinner hinside
      omega
    have hmore : more <+: c :: rest := (List.prefix_append_right_inj inner).1 hbehind
    rcases List.prefix_cons_iff.1 hmore with rfl | ⟨more, rfl, hlast⟩
    · rw [List.append_nil, hinner.surplus_eq_zero]
      omega
    · have := ihrest hlast
      rw [surplus_append, surplus_cons, hinner.surplus_eq_zero]
      omega

theorem surplus_nonneg_of_prefix {cs front : List Char} (h : Nested (brackets cs))
    (hfront : front <+: cs) : 0 ≤ surplus front := by
  rw [← surplus_brackets]
  exact h.surplus_nonneg (hfront.filter _)

/-- In front of the first brace that opens none closes. -/
theorem closing_notMem_of_prefix {cs front : List Char} (h : Nested (brackets cs))
    (hfront : front <+: cs) (hopening : '\x7b' ∉ front) : '\x7d' ∉ front := by
  intro hclosing
  obtain ⟨before, behind, rfl⟩ := List.append_of_mem hclosing
  have hbefore : surplus before ≤ 0 := by
    have hweight : ∀ c ∈ before, weight c ≤ 0 := fun c hc => by
      have : c ≠ '\x7b' := fun h => hopening (List.mem_append_left _ (h ▸ hc))
      unfold weight
      split
      · contradiction
      split <;> omega
    clear hopening hfront hclosing
    induction before with
    | nil => exact Int.le_refl _
    | cons c before ih =>
      have hc := hweight c (by simp)
      have hrest := ih fun d hd => hweight d (by simp [hd])
      rw [surplus_cons]
      omega
  have hshort : before ++ ['\x7d'] <+: cs :=
    (List.IsPrefix.trans ⟨behind, by simp⟩ hfront)
  have hnonneg := surplus_nonneg_of_prefix h hshort
  rw [surplus_append, show surplus ['\x7d'] = -1 by decide] at hnonneg
  omega

/-! ## The lines that are counted -/

/-- The text to the end of the first line at whose end no brace is open. -/
def untilClosed : Int → List Char → List Char
  | _, [] => []
  | depth, c :: rest =>
    if c = '\n' ∧ depth ≤ 0 then [] else c :: untilClosed (depth + weight c) rest

/-- The last line of a text. -/
def lastLine (cs : List Char) : List Char := (Text.pieces '\n' cs).getLastD []

/-- What is counted of a function, of the text behind its name: the line of the first brace, and
the lines until no brace is open. -/
def counted (behind : List Char) : List Char :=
  lastLine (behind.takeWhile (· != '\x7b')) ++ untilClosed 0 (behind.dropWhile (· != '\x7b'))

theorem lastLine_of_notMem {cs : List Char} (h : '\n' ∉ cs) : lastLine cs = cs := by
  rw [lastLine, Text.pieces_of_notMem h, List.getLastD_cons, List.getLastD_nil]

theorem lastLine_append_feed (cs ds : List Char) : lastLine (cs ++ '\n' :: ds) = lastLine ds := by
  obtain ⟨front, last, hcs⟩ :=
    (List.eq_nil_or_concat' (Text.pieces '\n' cs)).resolve_left (Text.pieces_ne_nil _ cs)
  obtain ⟨piece, pieces, hds⟩ := List.exists_cons_of_ne_nil (Text.pieces_ne_nil '\n' ds)
  rw [lastLine, lastLine, Text.pieces_append hcs (Text.pieces_sep '\n' ds), hds]
  simp [List.getLast?_cons]

theorem untilClosed_append {depth : Int} {cs : List Char}
    (h : ∀ front, front <+: cs → 0 < depth + surplus front) (rest : List Char) :
    untilClosed depth (cs ++ rest) = cs ++ untilClosed (depth + surplus cs) rest := by
  induction cs generalizing depth with
  | nil => simp
  | cons c cs ih =>
    have hdepth : 0 < depth := by simpa using h [] List.nil_prefix
    rw [List.cons_append, untilClosed, if_neg (by omega), ih fun front hfront => ?_, surplus_cons,
      Int.add_assoc, List.cons_append]
    have := h (c :: front) (List.cons_prefix_cons.2 ⟨rfl, hfront⟩)
    rw [surplus_cons] at this
    omega

/-- **A body is counted as a whole**, and so is what stands behind it up to the end of a line. -/
theorem untilClosed_body {body : List Char} (h : Nested (brackets body)) (after : List Char) :
    untilClosed 0 ('\x7b' :: (body ++ '\x7d' :: after)) =
      '\x7b' :: (body ++ '\x7d' :: untilClosed 0 after) := by
  have hsurplus : surplus body = 0 := by rw [← surplus_brackets, h.surplus_eq_zero]
  have hopening : (0 : Int) + weight '\x7b' = 1 := by decide
  have hclosing : (1 : Int) + weight '\x7d' = 0 := by decide
  rw [untilClosed, if_neg (by decide), hopening, untilClosed_append fun front hfront => ?_,
    hsurplus, Int.add_zero, untilClosed, if_neg (by decide), hclosing]
  have := surplus_nonneg_of_prefix h hfront
  omega

/-! ## The lines of a function -/

theorem step_of_bodyless {s : BodyState} (h : s.bodyless = true) (c : Char) : s.step c = s :=
  if_pos h

theorem foldl_step_of_bodyless {s : BodyState} (h : s.bodyless = true) (cs : List Char) :
    cs.foldl BodyState.step s = s := by
  induction cs with
  | nil => rfl
  | cons c cs ih => rw [List.foldl_cons, step_of_bodyless h, ih]

/-- Once a brace is open only braces count. -/
theorem step_opened (depth : Int) (c : Char) :
    BodyState.step ⟨depth, true, false⟩ c = ⟨depth + weight c, true, false⟩ := by
  by_cases hopening : c = '\x7b'
  · simp [BodyState.step, weight, hopening]
  by_cases hclosing : c = '\x7d'
  · simp [BodyState.step, weight, hclosing, Int.sub_eq_add_neg]
  · simp [BodyState.step, weight, hopening, hclosing]

/-- Before, a semicolon says that there is no body. -/
theorem step_start {c : Char} (hopening : c ≠ '\x7b') (hclosing : c ≠ '\x7d') :
    BodyState.step ⟨0, false, false⟩ c = ⟨0, false, c == ';'⟩ := by
  by_cases hend : c = ';'
  · simp [BodyState.step, hend]
  · simp [BodyState.step, hopening, hclosing, hend]

variable {s : BodyState} {n : Nat} {read cs line : List Char} {lines : List (List Char)}

/-- A line in the middle of which it turns out that there is no body. -/
theorem bodyBranches_of_bodyless (h : (read.foldl BodyState.step s).bodyless = true) :
    bodyBranches s n ((read ++ line) :: lines) = none := by
  rw [bodyBranches]
  simp only [List.foldl_append, foldl_step_of_bodyless h, h, if_true]

/-- **From an open brace on**: where the first characters of a line are read, the rest is counted to
the end of the line that closes the braces. -/
theorem bodyBranches_opened {depth : Int}
    (hread : read.foldl BodyState.step s = ⟨depth, true, false⟩)
    (hcs : Text.pieces '\n' cs = line :: lines) :
    bodyBranches s n ((read ++ line) :: lines) =
      some (n + branchCount (read ++ untilClosed depth cs)) := by
  induction cs generalizing s n read line lines depth with
  | nil =>
    obtain ⟨rfl, rfl⟩ := List.cons.inj hcs
    rw [bodyBranches]
    simp [hread, untilClosed, bodyBranches]
  | cons c cs ih =>
    by_cases hfeed : c = '\n'
    · subst hfeed
      rw [Text.pieces_sep] at hcs
      obtain ⟨rfl, rfl⟩ := List.cons.inj hcs
      rw [bodyBranches, untilClosed]
      simp only [List.append_nil, hread, Bool.false_eq_true, if_false, if_true, Bool.true_and,
        decide_eq_true_eq, true_and]
      split
      · rw [List.append_nil]
      · obtain ⟨line, lines, hlines⟩ := List.exists_cons_of_ne_nil (Text.pieces_ne_nil '\n' cs)
        have hnext := @ih ⟨depth, true, false⟩ (n + branchCount read) [] line lines depth rfl hlines
        rw [List.nil_append, List.nil_append] at hnext
        rw [hlines, hnext, branchCount_append_feed, Nat.add_assoc]
        simp [weight]
    · obtain ⟨rest, lines', hlines⟩ := List.exists_cons_of_ne_nil (Text.pieces_ne_nil '\n' cs)
      rw [Text.pieces_cons hfeed hlines] at hcs
      obtain ⟨rfl, rfl⟩ := List.cons.inj hcs
      have hnext := @ih s n (read ++ [c]) rest lines' (depth + weight c)
        (by rw [List.foldl_append, hread, List.foldl_cons, step_opened, List.foldl_nil]) hlines
      rw [untilClosed, if_neg (by simp [hfeed])]
      simpa using hnext

/-- **From the name on**: nothing is counted in front of the line with the first brace, and a
semicolon in front of it says that there is no body. -/
theorem bodyBranches_started {front rest : List Char} (hfeed : '\n' ∉ read)
    (hread : read.foldl BodyState.step s = ⟨0, false, false⟩)
    (hfront : ∀ c ∈ front, c ≠ '\x7b' ∧ c ≠ '\x7d')
    (hlines : Text.pieces '\n' (front ++ '\x7b' :: rest) = line :: lines) :
    bodyBranches s n ((read ++ line) :: lines) =
      if ';' ∈ front then none
      else some (n + branchCount (lastLine (read ++ front) ++ '\x7b' :: untilClosed 1 rest)) := by
  induction front generalizing s n read line lines with
  | nil =>
    obtain ⟨piece, pieces, hrest⟩ := List.exists_cons_of_ne_nil (Text.pieces_ne_nil '\n' rest)
    rw [List.nil_append, Text.pieces_cons (by decide) hrest] at hlines
    obtain ⟨rfl, rfl⟩ := List.cons.inj hlines
    have hopened := @bodyBranches_opened s n (read ++ ['\x7b']) rest piece pieces 1
      (by rw [List.foldl_append, hread]; rfl) hrest
    simp only [List.append_assoc, List.singleton_append] at hopened
    rw [hopened, if_neg List.not_mem_nil, List.append_nil, lastLine_of_notMem hfeed]
  | cons c front ih =>
    obtain ⟨⟨hopening, hclosing⟩, hbehind⟩ := List.forall_mem_cons.1 hfront
    obtain ⟨piece, pieces, hrest⟩ :=
      List.exists_cons_of_ne_nil (Text.pieces_ne_nil '\n' (front ++ '\x7b' :: rest))
    by_cases hc : c = '\n'
    · subst hc
      rw [List.cons_append, Text.pieces_sep] at hlines
      obtain ⟨rfl, rfl⟩ := List.cons.inj hlines
      have hnext := @ih ⟨0, false, false⟩ n [] piece pieces List.not_mem_nil rfl hbehind hrest
      rw [List.nil_append, List.nil_append] at hnext
      rw [List.append_nil, bodyBranches, hread, lastLine_append_feed, hrest]
      simpa using hnext
    rw [List.cons_append, Text.pieces_cons hc hrest] at hlines
    obtain ⟨rfl, rfl⟩ := List.cons.inj hlines
    have hstep : (read ++ [c]).foldl BodyState.step s = ⟨0, false, c == ';'⟩ := by
      rw [List.foldl_append, hread, List.foldl_cons, step_start hopening hclosing, List.foldl_nil]
    by_cases hend : c = ';'
    · have hnone := @bodyBranches_of_bodyless s n (read ++ [c]) piece pieces
        (by rw [hstep]; simp [hend])
      rw [List.append_assoc, List.singleton_append] at hnone
      rw [hnone, if_pos (by simp [hend])]
    · have hnext := @ih s n (read ++ [c]) piece pieces (by simp [hfeed, Ne.symm hc])
        (by rw [hstep]; simp [hend]) hbehind hrest
      simp only [List.append_assoc, List.singleton_append] at hnext
      rw [hnext]
      simp [Ne.symm hend]

end RepairLoop.Rust
