import Mathlib.Data.List.Forall2
import Mathlib.Data.List.TakeWhile
import RepairLoop.Proofs.Pattern.Matches
import RepairLoop.Proofs.Text.Character
/-!
# Pieces — what a row of blanks, marks and words reads

A piece of a pattern stands for any number of blanks, any number of one character, or a word in
any case. Of a row of pieces the matcher finds a way through the text exactly if the text can be
taken apart as the row says (`Reads`): what it finds lies behind such a stretch (`run_sound`), and
where there is such a stretch it finds something (`run_complete`).
-/

namespace RepairLoop.Pattern

/-- A piece of a pattern. -/
inductive Piece where
  | spaces
  | marks (c : Char)
  | word (s : String)

namespace Piece

/-- The pattern of a piece. -/
def node : Piece → Node
  | spaces => blanks
  | marks c => many (.test .caseless (.char false c))
  | word s => lit .caseless s

/-- A piece stands for a stretch of text. -/
def Takes : Piece → List Char → Prop
  | spaces, cs => ∀ c ∈ cs, Text.isBlank c = true
  | marks m, cs => ∀ c ∈ cs, Text.sameLetter m c = true
  | word s, cs => List.Forall₂ (fun x c => Text.sameLetter x c = true) s.toList cs

/-- A word of plain letters stands for itself in any case. -/
theorem takes_word_iff {s : String} (hs : ∀ x ∈ s.toList, Text.IsPlain x) {cs : List Char} :
    (word s).Takes cs ↔ cs.map Char.toLower = s.toList := by
  show List.Forall₂ _ s.toList cs ↔ _
  generalize s.toList = letters at hs
  induction letters generalizing cs with
  | nil => rw [List.forall₂_nil_left_iff, List.map_eq_nil_iff]
  | cons x letters ih =>
    have ih (cs : List Char) :
        List.Forall₂ (fun x c => Text.sameLetter x c = true) letters cs ↔
          cs.map Char.toLower = letters :=
      ih fun y hy => hs y (List.mem_cons_of_mem _ hy)
    rw [List.forall₂_cons_left_iff, List.map_eq_cons_iff]
    simp only [Text.sameLetter_iff (hs x List.mem_cons_self), ih]
    exact ⟨fun ⟨c, cs, hc, hcs, he⟩ => ⟨c, cs, he, hc, hcs⟩,
      fun ⟨c, cs, he, hc, hcs⟩ => ⟨c, cs, hc, hcs, he⟩⟩

end Piece

/-- A row of pieces stands for a stretch of text. -/
def Reads : List Piece → List Char → Prop
  | [], cs => cs = []
  | p :: ps, cs => ∃ front back, cs = front ++ back ∧ p.Takes front ∧ Reads ps back

section

variable {m : Mode} {t : Test} {before rest taken behind : List Char} {caps : Captures}
variable {goal : Goal} {r : Nat × Captures}

/-! ## Characters -/

theorem holds_space (c : Char) :
    (Test.set false [.category false .space]).holds .plain c = Text.isBlank c := by
  simp [Test.holds, Member.holds, Category.holds, Mode.fold, Mode.plain]

theorem holds_mark (x c : Char) :
    (Test.char false x).holds .caseless c = Text.sameLetter x c := by
  simp [Test.holds, Mode.same, Mode.caseless]

/-! ## Repetitions -/

theorem farthest_eq_some {α : Type} {find : Nat → Option α} {i n : Nat} {a : α}
    (h : farthest find i n = some a) : ∃ k ≤ n, find (i + k) = some a := by
  induction n generalizing i with
  | zero => exact ⟨0, Nat.le_refl 0, h⟩
  | succ n ih =>
    rw [farthest, Option.or_eq_some_iff] at h
    rcases h with h | ⟨-, h⟩
    · obtain ⟨k, hk, h⟩ := ih h
      exact ⟨k + 1, by omega, by rwa [Nat.add_assoc, Nat.add_comm 1] at h⟩
    · exact ⟨0, Nat.zero_le _, h⟩

theorem farthest_isSome {α : Type} {find : Nat → Option α} {i k n : Nat} (hk : k ≤ n)
    (h : (find (i + k)).isSome = true) : (farthest find i n).isSome = true := by
  induction n generalizing i k with
  | zero =>
    obtain rfl : k = 0 := by omega
    exact h
  | succ n ih =>
    rw [farthest, Option.isSome_or, Bool.or_eq_true]
    cases k with
    | zero => exact .inr h
    | succ k => exact .inl (ih (Nat.le_of_succ_le_succ hk) (by rwa [Nat.add_assoc, Nat.add_comm 1]))

theorem run_many_sound (h : (many (.test m t)).run (before ++ rest).toArray before.length caps goal =
    some r) : ∃ taken behind, rest = taken ++ behind ∧ (∀ c ∈ taken, t.holds m c = true) ∧
      goal (before.length + taken.length) caps = some r := by
  rw [run_many] at h
  obtain ⟨k, hk, hgoal⟩ := farthest_eq_some h
  have hwhile : rest.take k <+: rest.takeWhile fun c => t.holds m c :=
    List.prefix_of_prefix_length_le (List.take_prefix k rest) (List.takeWhile_prefix _)
      (Nat.le_trans (List.length_take_le k rest) hk)
  have hlength : (rest.take k).length = k :=
    List.length_take_of_le (Nat.le_trans hk (List.takeWhile_prefix _).length_le)
  refine ⟨rest.take k, rest.drop k, (List.take_append_drop k rest).symm, fun c hc => ?_, ?_⟩
  · exact List.mem_takeWhile_imp (p := fun c => t.holds m c) (hwhile.subset hc)
  · rw [hlength]
    exact hgoal

theorem run_many_complete (htaken : ∀ c ∈ taken, t.holds m c = true)
    (hgoal : (goal (before.length + taken.length) caps).isSome = true) :
    ((many (.test m t)).run (before ++ (taken ++ behind)).toArray before.length caps
      goal).isSome = true := by
  rw [run_many]
  refine farthest_isSome ?_ hgoal
  rw [List.takeWhile_append_of_pos htaken, List.length_append]
  exact Nat.le_add_right _ _

/-! ## Words -/

theorem run_word_sound {cs : List Char}
    (h : (row (cs.map fun c => .test .caseless (.char false c))).run (before ++ rest).toArray
      before.length caps goal = some r) :
    ∃ taken behind, rest = taken ++ behind ∧
      List.Forall₂ (fun x c => Text.sameLetter x c = true) cs taken ∧
      goal (before.length + taken.length) caps = some r := by
  induction cs generalizing before rest with
  | nil => exact ⟨[], rest, rfl, .nil, h⟩
  | cons x cs ih =>
    rw [List.map_cons, run_row_cons] at h
    cases rest with
    | nil =>
      rw [List.append_nil, run_test_nil] at h
      cases h
    | cons c rest =>
      rw [run_test_cons] at h
      split at h
      · rename_i hc
        have hsame : Text.sameLetter x c = true := holds_mark x c ▸ hc
        have hrest : (row (cs.map fun c => .test .caseless (.char false c))).run
            ((before ++ [c]) ++ rest).toArray (before ++ [c]).length caps goal = some r := by
          rw [List.append_assoc, List.length_append]
          exact h
        obtain ⟨taken, behind, rfl, htaken, hgoal⟩ := ih hrest
        refine ⟨c :: taken, behind, rfl, .cons hsame htaken, ?_⟩
        rw [List.length_append, List.length_singleton, Nat.add_assoc, Nat.add_comm 1] at hgoal
        exact hgoal
      · cases h

theorem run_word_complete {cs : List Char}
    (htaken : List.Forall₂ (fun x c => Text.sameLetter x c = true) cs taken) :
    (row (cs.map fun c => .test .caseless (.char false c))).run
      (before ++ (taken ++ behind)).toArray before.length caps goal =
        goal (before.length + taken.length) caps := by
  induction htaken generalizing before with
  | nil => rfl
  | @cons x c cs taken hsame _ ih =>
    have hc : (Test.char false x).holds .caseless c = true := (holds_mark x c).trans hsame
    have hrest : (row (cs.map fun c => .test .caseless (.char false c))).run
        ((before ++ [c]) ++ (taken ++ behind)).toArray (before ++ [c]).length caps goal =
          goal ((before ++ [c]).length + taken.length) caps := ih
    rw [List.append_assoc, List.length_append] at hrest
    rw [List.map_cons, run_row_cons, List.cons_append, run_test_cons, if_pos hc, List.length_cons,
      Nat.add_comm taken.length 1, ← Nat.add_assoc]
    exact hrest

/-! ## Rows -/

variable {p : Piece} {ps : List Piece}

/-- **What a piece finds lies behind a stretch that it stands for.** -/
theorem Piece.run_sound
    (h : p.node.run (before ++ rest).toArray before.length caps goal = some r) :
    ∃ taken behind, rest = taken ++ behind ∧ p.Takes taken ∧
      goal (before.length + taken.length) caps = some r := by
  cases p with
  | spaces =>
    obtain ⟨taken, behind, hrest, htaken, hgoal⟩ := run_many_sound h
    exact ⟨taken, behind, hrest, fun c hc => holds_space c ▸ htaken c hc, hgoal⟩
  | marks x =>
    obtain ⟨taken, behind, hrest, htaken, hgoal⟩ := run_many_sound h
    exact ⟨taken, behind, hrest, fun c hc => holds_mark x c ▸ htaken c hc, hgoal⟩
  | word s => exact run_word_sound h

/-- **Where there is such a stretch**, and what comes behind it is found, a piece finds
something. -/
theorem Piece.run_complete (htaken : p.Takes taken)
    (hgoal : (goal (before.length + taken.length) caps).isSome = true) :
    (p.node.run (before ++ (taken ++ behind)).toArray before.length caps goal).isSome = true := by
  cases p with
  | spaces => exact run_many_complete (fun c hc => (holds_space c).trans (htaken c hc)) hgoal
  | marks x => exact run_many_complete (fun c hc => (holds_mark x c).trans (htaken c hc)) hgoal
  | word s =>
    show (Node.run _ (row _) _ _ _).isSome = true
    rw [run_word_complete htaken]
    exact hgoal

theorem run_row_append (ns ms : List Node) (text : Array Char) (i : Nat) :
    (row (ns ++ ms)).run text i caps goal =
      (row ns).run text i caps fun j found => (row ms).run text j found goal := by
  induction ns generalizing i caps with
  | nil => rfl
  | cons n ns ih =>
    rw [List.cons_append, run_row_cons, run_row_cons]
    simp only [ih]

/-- **What a row of pieces finds lies behind a stretch that it reads.** -/
theorem run_sound
    (h : (row (ps.map Piece.node)).run (before ++ rest).toArray before.length caps goal = some r) :
    ∃ taken behind, rest = taken ++ behind ∧ Reads ps taken ∧
      goal (before.length + taken.length) caps = some r := by
  induction ps generalizing before rest with
  | nil => exact ⟨[], rest, rfl, rfl, h⟩
  | cons p ps ih =>
    rw [List.map_cons, run_row_cons] at h
    obtain ⟨front, rest, rfl, hfront, h⟩ := Piece.run_sound h
    rw [← List.append_assoc, ← List.length_append] at h
    obtain ⟨back, behind, rfl, hback, hgoal⟩ := ih h
    refine ⟨front ++ back, behind, (List.append_assoc ..).symm, ⟨front, back, rfl, hfront, hback⟩, ?_⟩
    rwa [List.length_append, ← Nat.add_assoc, ← List.length_append]

/-- **Where there is such a stretch**, and what comes behind it is found, a row finds
something. -/
theorem run_complete (htaken : Reads ps taken)
    (hgoal : (goal (before.length + taken.length) caps).isSome = true) :
    ((row (ps.map Piece.node)).run (before ++ (taken ++ behind)).toArray before.length caps
      goal).isSome = true := by
  induction ps generalizing before taken with
  | nil =>
    obtain rfl : taken = [] := htaken
    exact hgoal
  | cons p ps ih =>
    obtain ⟨front, back, rfl, hfront, hback⟩ := htaken
    rw [List.map_cons, run_row_cons, List.append_assoc]
    refine Piece.run_complete hfront ?_
    rw [← List.append_assoc, ← List.length_append]
    refine ih hback ?_
    rwa [List.length_append, Nat.add_assoc, ← List.length_append]

end

end RepairLoop.Pattern
