import Mathlib.Data.List.TakeWhile
import RepairLoop.Proofs.Pattern.Matches
import RepairLoop.Proofs.Text.Character
import RepairLoop.Rust.Source
/-!
# Heads — where a function is found on a line

A function is looked for by its head: the word `fn`, blanks and a plain name. At a position the
pattern matches where `header?` reads one (`matchFrom?_function`). Blanks and names share no
character, so nothing is gained by going back (`run_head`). Where no other head stands on a line,
the head is the match of the line, and the entry of the line is made of what stands behind the
name (`entryOf_of_head`). The entries for a line number are those of the line
(`filter_functionBranches`).
-/

namespace RepairLoop.Rust

open Pattern

/-! ## The head of a function -/

/-- A character that starts a plain name. -/
def startsPlain (c : Char) : Bool := c.isAlpha || c == '_'

theorem holds_startsPlain (c : Char) :
    (Test.set false [.range 65 90, .range 97 122, .char '_']).holds .plain c = startsPlain c := by
  rw [startsPlain, Text.isAlpha_eq, Bool.beq_comm]
  simp [Test.holds, Member.holds, Mode.plain, Mode.same, Bool.or_assoc]

theorem holds_word (c : Char) :
    (Test.set false [.category false .word]).holds .plain c = Text.isWordChar c := by
  simp [Test.holds, Member.holds, Mode.plain, Mode.fold, Category.holds]

theorem holds_space (c : Char) :
    (Test.set false [.category false .space]).holds .plain c = Text.isBlank c := by
  simp [Test.holds, Member.holds, Mode.plain, Mode.fold, Category.holds]

theorem isWordChar_of_startsPlain {c : Char} (h : startsPlain c = true) :
    Text.isWordChar c = true := by
  rcases Bool.or_eq_true_iff.1 h with halpha | hunder
  · refine Text.isWordChar_of_isAlphanum (by simp [Char.isAlphanum, halpha]) ?_
    rw [Text.isAlpha_eq] at halpha
    simp only [Bool.or_eq_true, Bool.and_eq_true, decide_eq_true_eq] at halpha
    omega
  · rw [beq_iff_eq.1 hunder]
    decide

/-- What stands between the word `fn` at the start of a text and a plain name, and the name. -/
def header? : List Char → Option (List Char × List Char)
  | 'f' :: 'n' :: rest =>
    if rest.takeWhile Text.isBlank ≠ [] ∧ (rest.dropWhile Text.isBlank).head?.any startsPlain then
      some (rest.takeWhile Text.isBlank,
        (rest.dropWhile Text.isBlank).takeWhile Text.isWordChar)
    else none
  | _ => none

theorem takeWhile_holds_word (cs : List Char) :
    (cs.takeWhile fun c => (Test.set false [.category false .word]).holds .plain c) =
      cs.takeWhile Text.isWordChar := by
  simp only [holds_word]

theorem takeWhile_holds_space (cs : List Char) :
    (cs.takeWhile fun c => (Test.set false [.category false .space]).holds .plain c) =
      cs.takeWhile Text.isBlank := by
  simp only [holds_space]

/-- The pattern of a name. -/
def namePattern : Node :=
  .group 1 (row [.test .plain (.set false [.range 65 90, .range 97 122, .char '_']),
    many (cat .word)])

/-- **A name** is read off the rest if it starts like one, as far as the word goes. -/
theorem run_name (before rest : List Char) (caps : Captures) :
    namePattern.run (before ++ rest).toArray before.length caps (fun j found => some (j, found)) =
      if rest.head?.any startsPlain then
        some (before.length + (rest.takeWhile Text.isWordChar).length,
          (1, before.length, before.length + (rest.takeWhile Text.isWordChar).length) :: caps)
      else none := by
  rw [namePattern, Node.run, run_row_cons]
  cases rest with
  | nil =>
    rw [List.append_nil, run_test_nil]
    rfl
  | cons c rest =>
    rw [run_test_cons, holds_startsPlain]
    by_cases hc : startsPlain c = true
    · have hword := isWordChar_of_startsPlain hc
      have hmany := @run_many .plain (.set false [.category false .word]) (before ++ [c]) rest caps
        fun j found => some (j, (1, before.length, j) :: found)
      rw [List.append_assoc, List.length_append, takeWhile_holds_word] at hmany
      replace hmany := hmany.trans (farthest_of_some rfl)
      rw [if_pos hc, List.takeWhile_cons_of_pos hword]
      simp only [List.head?_cons, Option.any_some, hc, if_true]
      refine Eq.trans hmany ?_
      simp [Nat.add_assoc, Nat.add_comm 1]
    · simp [hc]

/-- No name starts with a blank. -/
theorem run_name_of_isBlank {before rest : List Char} {k : Nat}
    (hk : k < (rest.takeWhile Text.isBlank).length) (caps : Captures) :
    namePattern.run (before ++ rest).toArray (before.length + k) caps
      (fun j found => some (j, found)) = none := by
  have hblank : Text.isBlank (rest.takeWhile Text.isBlank)[k] = true :=
    List.mem_takeWhile_imp (List.getElem_mem hk)
  have hstart : startsPlain (rest.takeWhile Text.isBlank)[k] = false :=
    Bool.eq_false_iff.2 fun h => by
      have := isWordChar_of_startsPlain h
      rw [Text.not_isWordChar_of_isBlank hblank] at this
      cases this
  have hrest : rest = (rest.takeWhile Text.isBlank).take k ++ ((rest.takeWhile Text.isBlank)[k] ::
      ((rest.takeWhile Text.isBlank).drop (k + 1) ++ rest.dropWhile Text.isBlank)) := by
    rw [← List.cons_append, List.getElem_cons_drop, ← List.append_assoc, List.take_append_drop,
      List.takeWhile_append_dropWhile]
  generalize (rest.takeWhile Text.isBlank)[k] = d at hrest hstart
  have hlength : before.length + k = (before ++ (rest.takeWhile Text.isBlank).take k).length := by
    rw [List.length_append, List.length_take, Nat.min_eq_left (Nat.le_of_lt hk)]
  rw [hlength]
  generalize (rest.takeWhile Text.isBlank).take k = front at hrest
  rw [hrest, ← List.append_assoc, run_name, List.head?_cons, Option.any_some, hstart]
  rfl

/-- The blanks in front of a name are all taken: no name starts with a blank. -/
theorem run_head (before rest : List Char) :
    (row [blanks1, namePattern]).run (before ++ rest).toArray before.length []
        (fun j found => some (j, found)) =
      if rest.takeWhile Text.isBlank ≠ [] then
        namePattern.run (before ++ rest).toArray
          (before.length + (rest.takeWhile Text.isBlank).length) [] fun j found => some (j, found)
      else none := by
  rw [run_row_cons]
  cases rest with
  | nil => 
    rw [List.append_nil]
    simp [blanks1, many1, Node.run, neededTurns, cat]
  | cons c rest =>
    by_cases hc : Text.isBlank c = true
    · rw [List.takeWhile_cons_of_pos hc, if_pos (List.cons_ne_nil _ _), blanks1, cat,
        run_many1 ((holds_space c).trans hc), takeWhile_holds_space,
        farthest_of_none fun k hk => ?_]
      · simp [row, Nat.add_assoc, Nat.add_comm 1]
      · have hk' : k + 1 < ((c :: rest).takeWhile Text.isBlank).length := by
          rw [List.takeWhile_cons_of_pos hc]
          exact Nat.succ_lt_succ hk
        rw [Nat.add_assoc, Nat.add_comm 1]
        exact run_name_of_isBlank hk' []
    · rw [List.takeWhile_cons_of_neg hc, if_neg (by simp)]
      simp [blanks1, many1, Node.run, neededTurns, cat, holds_space, hc]

theorem header?_eq_none {rest : List Char} (h : ¬['f', 'n'] <+: rest) : header? rest = none := by
  unfold header?
  split
  · rename_i rest
    exact absurd ⟨rest, rfl⟩ h
  · rfl

/-- **A function is found** at the word `fn` with a name behind it. -/
theorem matchFrom?_function (before rest : List Char) :
    functionPattern.matchFrom? (before ++ rest).toArray before.length false =
      if endsInWord before then none
      else (header? rest).map fun head =>
        ⟨before.length, before.length + 2 + head.1.length + head.2.length,
          [(1, before.length + 2 + head.1.length,
            before.length + 2 + head.1.length + head.2.length)]⟩ := by
  have hfn : functionPattern = row [edge, lit .plain "fn", blanks1, namePattern] := rfl
  have hletters : "fn".toList = ['f', 'n'] := rfl
  rw [matchFrom?_eq, hfn, run_row_cons, run_edge, run_row_cons, run_lit, hletters]
  by_cases hfound : ['f', 'n'] <+: rest
  · obtain ⟨rest, rfl⟩ := hfound
    have hletter : Text.isWordChar 'f' = true := by decide
    have hword : startsInWord (['f', 'n'] ++ rest) = true := hletter
    cases hbefore : endsInWord before with
    | true =>
      rw [hword]
      rfl
    | false =>
      have hgap := List.takeWhile_append_dropWhile (p := Text.isBlank) (l := rest)
      rw [hword, if_pos (by decide), if_pos ⟨rest, rfl⟩, ← List.append_assoc,
        show before.length + ['f', 'n'].length = (before ++ ['f', 'n']).length by simp, run_head]
      by_cases hblank : rest.takeWhile Text.isBlank = []
      · simp [header?, hblank]
      · have hname := run_name (before ++ ['f', 'n'] ++ rest.takeWhile Text.isBlank)
          (rest.dropWhile Text.isBlank) []
        rw [List.append_assoc, hgap, List.length_append] at hname
        rw [if_pos hblank, hname]
        by_cases hstart : (rest.dropWhile Text.isBlank).head?.any startsPlain = true
        · simp [header?, hblank, hstart]
        · simp [header?, hblank, hstart]
  · rw [header?_eq_none hfound, if_neg hfound]
    simp

/-! ## The function of a line -/

/-- Nowhere else on the line is a function found. -/
def OnlyHead (before rest : List Char) : Prop :=
  ∀ before' rest', before ++ rest = before' ++ rest' → endsInWord before' = false →
    (header? rest').isSome = true → before' = before

theorem matchFrom?_of_cut {line : List Char} {j : Nat} (hj : j ≤ line.length)
    (h : ∀ before rest, line = before ++ rest → before.length = j → endsInWord before = false →
      header? rest = none) :
    functionPattern.matchFrom? line.toArray j false = none := by
  have hmatch := matchFrom?_function (line.take j) (line.drop j)
  rw [List.take_append_drop, List.length_take_of_le hj] at hmatch
  rw [hmatch]
  cases hword : endsInWord (line.take j) with
  | true => rfl
  | false =>
    rw [h _ _ (List.take_append_drop j line).symm (List.length_take_of_le hj) hword]
    rfl

theorem search?_of_noHead {line : List Char}
    (h : ∀ before rest, line = before ++ rest → endsInWord before = false → header? rest = none) :
    functionPattern.search? line.toArray = none :=
  search?_of_none fun _ hj =>
    matchFrom?_of_cut (by simpa using hj) fun before rest hline _ hword => h before rest hline hword

theorem search?_of_head {before rest gap name : List Char} (honly : OnlyHead before rest)
    (hword : endsInWord before = false) (hhead : header? rest = some (gap, name)) :
    functionPattern.search? (before ++ rest).toArray =
      some ⟨before.length, before.length + 2 + gap.length + name.length,
        [(1, before.length + 2 + gap.length, before.length + 2 + gap.length + name.length)]⟩ := by
  refine search?_of_first (k := before.length) (by simp) ?_ fun j hj => ?_
  · rw [matchFrom?_function, hword, hhead]
    rfl
  · refine matchFrom?_of_cut (by simp; omega) fun before' rest' hline hlength hword' => ?_
    by_contra hsome
    obtain rfl := honly _ _ hline hword' (Option.isSome_iff_ne_none.2 hsome)
    omega

/-- The entry of a line: name, line and number of branches of the function that starts on it. -/
def entryOf (number : Nat) (line : List Char) (rest : List (List Char)) :
    List (String × Nat × Nat) :=
  match functionPattern.search? line.toArray with
  | some m =>
    match bodyBranches ⟨0, false, false⟩ 0 (line.drop m.stop :: rest) with
    | some n => [((m.group? line.toArray 1).getD "", number, n)]
    | none => []
  | none => []

theorem functionBranches_cons (number : Nat) (line : List Char) (rest : List (List Char)) :
    functionBranches number (line :: rest) =
      entryOf number line rest ++ functionBranches (number + 1) rest := rfl

theorem line_of_mem_entryOf {number : Nat} {line : List Char} {rest : List (List Char)}
    {entry : String × Nat × Nat} (h : entry ∈ entryOf number line rest) : entry.2.1 = number := by
  unfold entryOf at h
  split at h
  · split at h
    · rw [List.mem_singleton.1 h]
    · cases h
  · cases h

theorem le_of_mem_functionBranches {number : Nat} {lines : List (List Char)}
    {entry : String × Nat × Nat} (h : entry ∈ functionBranches number lines) :
    number ≤ entry.2.1 := by
  induction lines generalizing number with
  | nil => cases h
  | cons line rest ih =>
    rw [functionBranches_cons, List.mem_append] at h
    rcases h with h | h
    · exact Nat.le_of_eq (line_of_mem_entryOf h).symm
    · exact Nat.le_of_succ_le (ih h)

/-- **The entries for a line** are those of the function that starts on it. -/
theorem filter_functionBranches (number : Nat) (front : List (List Char)) (line : List Char)
    (rest : List (List Char)) :
    ((functionBranches number (front ++ line :: rest)).filter fun entry =>
        entry.2.1 == number + front.length) = entryOf (number + front.length) line rest := by
  induction front generalizing number with
  | nil =>
    rw [List.nil_append, functionBranches_cons, List.filter_append, List.filter_eq_self.2,
      List.filter_eq_nil_iff.2, List.append_nil]
    · rfl
    · intro entry h
      have := le_of_mem_functionBranches h
      simp
      omega
    · intro entry h
      simp [line_of_mem_entryOf h]
  | cons first front ih =>
    rw [List.cons_append, functionBranches_cons, List.filter_append, List.filter_eq_nil_iff.2,
      List.nil_append]
    · have hnumber : number + (first :: front).length = number + 1 + front.length := by
        simp only [List.length_cons]
        omega
      rw [hnumber]
      exact ih (number + 1)
    · intro entry h
      simp [line_of_mem_entryOf h]

theorem entryOf_of_noHead {number : Nat} {before behind : List Char} {rest : List (List Char)}
    (honly : OnlyHead before behind) (hhead : header? behind = none) :
    entryOf number (before ++ behind) rest = [] := by
  rw [entryOf, search?_of_noHead fun before' behind' hline hword => ?_]
  by_contra hsome
  obtain rfl := honly before' behind' hline hword (Option.isSome_iff_ne_none.2 hsome)
  obtain rfl := List.append_cancel_left hline
  exact hsome hhead

/-- **The entry of a line with a function** is settled by what stands behind its name. -/
theorem entryOf_of_head {number : Nat} {before gap name behind : List Char}
    {rest : List (List Char)} (honly : OnlyHead before ('f' :: 'n' :: (gap ++ (name ++ behind))))
    (hword : endsInWord before = false)
    (hhead : header? ('f' :: 'n' :: (gap ++ (name ++ behind))) = some (gap, name)) :
    entryOf number (before ++ 'f' :: 'n' :: (gap ++ (name ++ behind))) rest =
      match bodyBranches ⟨0, false, false⟩ 0 (behind :: rest) with
      | some n => [(String.ofList name, number, n)]
      | none => [] := by
  have htext : before ++ 'f' :: 'n' :: (gap ++ (name ++ behind)) =
      (before ++ 'f' :: 'n' :: gap) ++ (name ++ behind) := by simp
  have hlength : before.length + 2 + gap.length = (before ++ 'f' :: 'n' :: gap).length := by
    simp
    omega
  unfold entryOf
  rw [search?_of_head honly hword hhead]
  simp only [Match.group?, Captures.get?, List.find?_cons_of_pos, beq_self_eq_true, Option.map_some,
    Option.getD_some]
  rw [hlength, htext, sliceText_append, ← List.append_assoc, ← List.length_append, List.drop_left]

end RepairLoop.Rust
