import Mathlib.Data.List.Basic
import RepairLoop.Pattern.Matcher
/-!
# Matches — what a pattern takes, and what it does not look at

The matcher hands each part of a pattern the goal of what stands behind it. Where the text is
split at the position that is looked at, a part reads what stands there off the rest
(`run_lit`, `run_many`). A pattern of tests and word borders that takes no occurrence of a character
does not see beyond it either (`run_within`), so the matches in a text are those on the one side
of the character and those on the other (`length_findAll_append_cons`).
-/

namespace RepairLoop.Pattern

/-! ## Where words end -/

/-- A text ends in the middle or at the end of a word. -/
def endsInWord (cs : List Char) : Bool := cs.getLast?.any Text.isWordChar

/-- A text starts with a word. -/
def startsInWord (cs : List Char) : Bool := cs.head?.any Text.isWordChar

@[simp] theorem endsInWord_nil : endsInWord [] = false := rfl

@[simp] theorem endsInWord_concat (cs : List Char) (c : Char) :
    endsInWord (cs ++ [c]) = Text.isWordChar c := by
  simp [endsInWord]

@[simp] theorem startsInWord_nil : startsInWord [] = false := rfl

@[simp] theorem startsInWord_cons (c : Char) (cs : List Char) :
    startsInWord (c :: cs) = Text.isWordChar c := rfl

theorem endsInWord_append_of_ne_nil {cs : List Char} (h : cs ≠ []) (before : List Char) :
    endsInWord (before ++ cs) = endsInWord cs := by
  obtain ⟨front, c, rfl⟩ := (List.eq_nil_or_concat' cs).resolve_left h
  rw [← List.append_assoc, endsInWord_concat, endsInWord_concat]

theorem wordAt_eq (text : Array Char) (i : Nat) :
    wordAt .plain text i = text[i]?.any Text.isWordChar := by
  unfold wordAt
  cases text[i]? <;> rfl

theorem wordAt_append (before rest : List Char) :
    wordAt .plain (before ++ rest).toArray before.length = startsInWord rest := by
  cases rest <;> simp [wordAt_eq]

theorem wordBefore_append (before rest : List Char) :
    wordBefore .plain (before ++ rest).toArray before.length = endsInWord before := by
  rcases List.eq_nil_or_concat' before with rfl | ⟨front, c, rfl⟩
  · rfl
  · simp [wordBefore, wordAt_eq]

/-- In an empty text no word borders on anything. -/
theorem holds_boundary (text : Array Char) (i : Nat) :
    Place.boundary.holds .plain text i = (wordBefore .plain text i != wordAt .plain text i) := by
  by_cases hsize : text.size = 0
  · have hnone : ∀ j, wordAt .plain text j = false := fun j => by
      rw [wordAt_eq, Array.getElem?_eq_none (by omega)]
      rfl
    simp [Place.holds, hsize, wordBefore, hnone]
  · simp [Place.holds, hsize]

/-! ## What is read at the start of the rest -/

section Rest

variable {m : Mode} {t : Test} {before rest : List Char} {caps : Captures} {goal : Goal}

theorem run_test (text : Array Char) (i : Nat) : (Node.test m t).run text i caps goal =
    match text[i]? with
    | some c => if t.holds m c then goal (i + 1) caps else none
    | none => none := rfl

theorem run_at (p : Place) (text : Array Char) (i : Nat) :
    (Node.at_ m p).run text i caps goal = if p.holds m text i then goal i caps else none := rfl

theorem run_alt (a b : Node) (text : Array Char) (i : Nat) : (Node.alt a b).run text i caps goal =
    match a.run text i caps goal with
    | some r => some r
    | none => b.run text i caps goal := rfl

theorem run_row_cons (n : Node) (ns : List Node) (text : Array Char) (i : Nat) :
    (row (n :: ns)).run text i caps goal =
      n.run text i caps fun j found => (row ns).run text j found goal := by
  cases ns <;> rfl

theorem run_edge : edge.run (before ++ rest).toArray before.length caps goal =
    if endsInWord before != startsInWord rest then goal before.length caps else none := by
  rw [edge, run_at, holds_boundary, wordAt_append, wordBefore_append]

theorem run_test_nil : (Node.test m t).run before.toArray before.length caps goal = none := by
  simp [run_test]

theorem run_test_cons {c : Char} :
    (Node.test m t).run (before ++ c :: rest).toArray before.length caps goal =
      if t.holds m c then goal (before.length + 1) caps else none := by
  simp [run_test]

theorem run_letters (cs : List Char) :
    (row (cs.map fun c => .test .plain (.char false c))).run (before ++ rest).toArray before.length
      caps goal = if cs <+: rest then goal (before.length + cs.length) caps else none := by
  induction cs generalizing before rest with
  | nil => exact (if_pos (List.nil_prefix ..)).symm
  | cons c cs ih =>
    rw [List.map_cons, run_row_cons]
    cases rest with
    | nil => rw [List.append_nil, run_test_nil, if_neg (by simp)]
    | cons d rest =>
      rw [run_test_cons]
      have hnext := @ih (before ++ [d]) rest
      rw [List.append_assoc, List.length_append] at hnext
      by_cases hc : c = d
      · subst hc
        have hholds : (Test.char false c).holds .plain c = true := by
          simp [Test.holds, Mode.same, Mode.plain]
        rw [if_pos hholds]
        simpa [Nat.add_assoc, Nat.add_comm 1] using hnext
      · simp [Test.holds, Mode.same, Mode.plain, hc]

/-- **A fixed text** is read where the rest starts with it. -/
theorem run_lit (s : String) :
    (lit .plain s).run (before ++ rest).toArray before.length caps goal =
      if s.toList <+: rest then goal (before.length + s.toList.length) caps else none :=
  run_letters _

/-- The farthest of some places in a row where something is found. -/
def farthest {α : Type} (find : Nat → Option α) (i : Nat) : Nat → Option α
  | 0 => find i
  | n + 1 => (farthest find (i + 1) n).or (find i)

theorem farthest_of_some {α : Type} {find : Nat → Option α} {i n : Nat} {a : α}
    (h : find (i + n) = some a) : farthest find i n = some a := by
  induction n generalizing i with
  | zero => exact h
  | succ n ih => rw [farthest, ih (by rwa [Nat.add_assoc, Nat.add_comm 1]), Option.some_or]

/-- Where nothing is found before the last place, it is the last one that counts. -/
theorem farthest_of_none {α : Type} {find : Nat → Option α} {i n : Nat}
    (h : ∀ k < n, find (i + k) = none) : farthest find i n = find (i + n) := by
  induction n generalizing i with
  | zero => rfl
  | succ n ih =>
    have hfirst : find i = none := h 0 (Nat.succ_pos n)
    rw [farthest, ih fun k hk => ?_, hfirst, Option.or_none, Nat.add_assoc, Nat.add_comm 1]
    rw [Nat.add_assoc, Nat.add_comm 1]
    exact h (k + 1) (Nat.succ_lt_succ hk)

/-- A greedy repetition of a test goes as far as the characters pass it, and back from there. -/
theorem greedyTurns_test {fuel : Nat} {last : Option Nat}
    (hfuel : (rest.takeWhile fun c => t.holds m c).length ≤ fuel)
    (hlast : last ≠ some before.length) :
    greedyTurns ((Node.test m t).run (before ++ rest).toArray) goal fuel none last before.length
        caps =
      farthest (goal · caps) before.length (rest.takeWhile fun c => t.holds m c).length := by
  induction rest generalizing before fuel last with
  | nil =>
    cases fuel with
    | zero => rfl
    | succ fuel => simp [greedyTurns, hlast, farthest, run_test]
  | cons c rest ih =>
    by_cases hc : t.holds m c = true
    · simp only [List.takeWhile_cons, hc, if_true, List.length_cons] at hfuel ⊢
      obtain ⟨fuel, rfl⟩ : ∃ k, fuel = k + 1 := ⟨fuel - 1, by omega⟩
      have hnext := @ih (before ++ [c]) fuel (some before.length) (by omega) (by simp)
      rw [List.append_assoc, List.length_append] at hnext
      rw [greedyTurns, run_test_cons, if_pos hc]
      simp only [Option.map_none, hlast, beq_iff_eq, reduceCtorEq, Bool.or_eq_true, or_self,
        if_false, farthest]
      rw [← show _ = farthest _ (before.length + 1) _ from hnext]
      simp only [List.cons_append, List.nil_append, List.length_cons, List.length_nil]
      cases greedyTurns _ goal fuel none (some before.length) (before.length + (0 + 1)) caps <;> rfl
    · simp only [List.takeWhile_cons, hc]
      cases fuel with
      | zero => rfl
      | succ fuel =>
        rw [greedyTurns, run_test_cons, if_neg hc]
        simp [hlast, farthest]

theorem run_many : (many (.test m t)).run (before ++ rest).toArray before.length caps goal =
    farthest (goal · caps) before.length (rest.takeWhile fun c => t.holds m c).length := by
  have hle := (List.takeWhile_prefix (fun c => t.holds m c) (l := rest)).length_le
  exact greedyTurns_test (by simp; omega) (by simp)

theorem run_many1 {c : Char} (hc : t.holds m c = true) :
    (many1 (.test m t)).run (before ++ c :: rest).toArray before.length caps goal =
      farthest (goal · caps) (before.length + 1) (rest.takeWhile fun c => t.holds m c).length := by
  have hle := (List.takeWhile_prefix (fun c => t.holds m c) (l := rest)).length_le
  have hturns := @greedyTurns_test m t (before ++ [c]) rest caps goal
    ((before ++ c :: rest).toArray.size - before.length + 2) none (by simp; omega) (by simp)
  rw [List.append_assoc, List.length_append] at hturns
  show (Node.test m t).run _ _ _ _ = _
  rw [run_test_cons, if_pos hc]
  exact hturns

end Rest

/-! ## What is not looked at -/

/-- A pattern of tests and borders of words that takes no occurrence of a character. -/
def Node.avoids (c : Char) : Node → Bool
  | .empty => true
  | .test m t => !t.holds m c
  | .at_ m p => m == .plain && p == .boundary
  | .seq a b => a.avoids c && b.avoids c
  | .alt a b => a.avoids c && b.avoids c
  | _ => false

/-- What is found, in a text that starts some characters earlier. -/
def later (k : Nat) (r : Nat × Captures) : Nat × Captures := (k + r.1, r.2)

section Within

variable {n : Node} {c : Char} {left middle right : List Char}

theorem wordAt_within (hright : ∀ d ∈ right.head?, Text.isWordChar d = false) {i : Nat}
    (hi : i ≤ middle.length) :
    wordAt .plain (left ++ (middle ++ right)).toArray (left.length + i) =
      wordAt .plain middle.toArray i := by
  simp only [wordAt_eq, List.getElem?_toArray]
  rw [List.getElem?_append_right (Nat.le_add_right ..), Nat.add_sub_cancel_left]
  rcases Nat.lt_or_eq_of_le hi with hlt | rfl
  · rw [List.getElem?_append_left hlt]
  · rw [List.getElem?_append_right (Nat.le_refl _), Nat.sub_self,
      List.getElem?_eq_none (Nat.le_refl _)]
    cases right with
    | nil => rfl
    | cons d right => exact hright d rfl

theorem wordBefore_within (hleft : endsInWord left = false)
    (hright : ∀ d ∈ right.head?, Text.isWordChar d = false) {i : Nat} (hi : i ≤ middle.length) :
    wordBefore .plain (left ++ (middle ++ right)).toArray (left.length + i) =
      wordBefore .plain middle.toArray i := by
  cases i with
  | zero => exact (wordBefore_append left _).trans hleft
  | succ i => exact wordAt_within hright (Nat.le_of_succ_le hi)

/-- **A part of a pattern does not look beyond its stretch**: between two characters that it avoids
it finds what it finds in the stretch alone. -/
theorem run_within (hn : n.avoids c = true) (hc : Text.isWordChar c = false)
    (hleft : endsInWord left = false) (hright : ∀ d ∈ right.head?, d = c) {i : Nat}
    (hi : i ≤ middle.length) (goal goal' : Goal) (caps : Captures)
    (hgoal : ∀ j ≤ middle.length, ∀ found,
      goal (left.length + j) found = (goal' j found).map (later left.length)) :
    n.run (left ++ (middle ++ right)).toArray (left.length + i) caps goal =
      (n.run middle.toArray i caps goal').map (later left.length) := by
  induction n generalizing i caps goal goal' with
  | empty => exact hgoal i hi caps
  | test m t =>
    replace hn : t.holds m c = false := by simpa [Node.avoids] using hn
    simp only [run_test, List.getElem?_toArray]
    rw [List.getElem?_append_right (Nat.le_add_right ..), Nat.add_sub_cancel_left]
    rcases Nat.lt_or_eq_of_le hi with hlt | rfl
    · rw [List.getElem?_append_left hlt, List.getElem?_eq_getElem hlt]
      simp only
      split
      · exact hgoal (i + 1) hlt caps
      · rfl
    · rw [List.getElem?_append_right (Nat.le_refl _), Nat.sub_self,
        List.getElem?_eq_none (Nat.le_refl _)]
      cases right with
      | nil => rfl
      | cons d right =>
        obtain rfl := hright d rfl
        simp [hn]
  | at_ m p =>
    obtain ⟨rfl, rfl⟩ : m = .plain ∧ p = .boundary := by simpa [Node.avoids] using hn
    have hblank : ∀ d ∈ right.head?, Text.isWordChar d = false := fun d hd => hright d hd ▸ hc
    simp only [run_at, holds_boundary, wordAt_within hblank hi, wordBefore_within hleft hblank hi]
    split
    · exact hgoal i hi caps
    · rfl
  | seq a b iha ihb =>
    obtain ⟨ha, hb⟩ : a.avoids c = true ∧ b.avoids c = true := by simpa [Node.avoids] using hn
    exact iha ha hi _ _ caps fun j hj found => ihb hb hj goal goal' found hgoal
  | alt a b iha ihb =>
    obtain ⟨ha, hb⟩ : a.avoids c = true ∧ b.avoids c = true := by simpa [Node.avoids] using hn
    simp only [run_alt, iha ha hi goal goal' caps hgoal, ihb hb hi goal goal' caps hgoal]
    cases a.run middle.toArray i caps goal' <;> rfl
  | _ => cases hn

/-- What is found stands where the goal is reached, behind as many characters as the pattern takes
at the least. -/
theorem run_takes (hn : n.avoids c = true) {text : Array Char} {i : Nat} (hi : i ≤ text.size)
    {caps : Captures} {goal : Goal} {r : Nat × Captures} (h : n.run text i caps goal = some r) :
    ∃ j found, i + n.width.1 ≤ j ∧ j ≤ text.size ∧ goal j found = some r := by
  induction n generalizing i caps goal with
  | empty => exact ⟨i, caps, Nat.le_refl _, hi, h⟩
  | test m t =>
    rw [run_test] at h
    split at h
    · rename_i d hd
      obtain ⟨hlt, -⟩ := Array.getElem?_eq_some_iff.1 hd
      split at h
      · exact ⟨i + 1, caps, Nat.le_refl _, hlt, h⟩
      · cases h
    · cases h
  | at_ m p =>
    rw [run_at] at h
    split at h
    · exact ⟨i, caps, Nat.le_refl _, hi, h⟩
    · cases h
  | seq a b iha ihb =>
    obtain ⟨ha, hb⟩ : a.avoids c = true ∧ b.avoids c = true := by simpa [Node.avoids] using hn
    obtain ⟨j, found, hj, hsize, h⟩ := iha ha hi h
    obtain ⟨k, found, hk, hsize, h⟩ := ihb hb hsize h
    exact ⟨k, found, by simp only [Node.width]; omega, hsize, h⟩
  | alt a b iha ihb =>
    obtain ⟨ha, hb⟩ : a.avoids c = true ∧ b.avoids c = true := by simpa [Node.avoids] using hn
    rw [run_alt] at h
    split at h
    · rename_i hr
      obtain rfl := Option.some.inj h
      obtain ⟨j, found, hj, hsize, hgoal⟩ := iha ha hi hr
      exact ⟨j, found, by simp only [Node.width]; omega, hsize, hgoal⟩
    · obtain ⟨j, found, hj, hsize, hgoal⟩ := ihb hb hi h
      exact ⟨j, found, by simp only [Node.width]; omega, hsize, hgoal⟩
  | _ => cases hn

end Within

/-! ## The matches in a text -/

/-- A match, in a text that starts some characters earlier. -/
def Match.later (k : Nat) (m : Match) : Match := ⟨k + m.start, k + m.stop, m.captures⟩

/-- Every match takes a character. -/
def Node.Advances (n : Node) (text : Array Char) : Prop :=
  ∀ i m, i ≤ text.size → n.matchFrom? text i false = some m → i < m.stop ∧ m.stop ≤ text.size

/-- The matches from a position on. -/
def Node.findFrom (n : Node) (text : Array Char) (i : Nat) : List Match :=
  findAllFrom n text false (text.size + 1 - i) i

section Found

variable {n : Node} {c : Char} {text : Array Char} {i : Nat} {m : Match}

theorem matchFrom?_eq (n : Node) (text : Array Char) (i : Nat) :
    n.matchFrom? text i false =
      (n.run text i [] fun j caps => some (j, caps)).map fun r => ⟨i, r.1, r.2⟩ := by
  simp only [Node.matchFrom?, Bool.false_and, Bool.false_eq_true, if_false]
  cases n.run text i [] fun j caps => some (j, caps) <;> rfl

theorem searchFrom?_of_first {fuel k : Nat} (hi : i ≤ k) (hk : k < i + fuel)
    (h : n.matchFrom? text k false = some m)
    (hnone : ∀ j, i ≤ j → j < k → n.matchFrom? text j false = none) :
    n.searchFrom? text false fuel i = some m := by
  induction fuel generalizing i with
  | zero => omega
  | succ fuel ih =>
    rw [Node.searchFrom?]
    rcases Nat.lt_or_eq_of_le hi with hlt | rfl
    · rw [hnone i (Nat.le_refl _) hlt]
      exact ih hlt (by omega) fun j hj => hnone j (Nat.le_of_succ_le hj)
    · rw [h]

/-- **What is found first** matches at its position, and nothing matches at those before it. -/
theorem search?_of_first {k : Nat} (hk : k ≤ text.size) (h : n.matchFrom? text k false = some m)
    (hnone : ∀ j < k, n.matchFrom? text j false = none) : n.search? text = some m :=
  searchFrom?_of_first (Nat.zero_le k) (by omega) h fun j _ => hnone j

theorem search?_of_none (h : ∀ j ≤ text.size, n.matchFrom? text j false = none) :
    n.search? text = none := by
  suffices hfuel : ∀ fuel i, i + fuel ≤ text.size + 1 → n.searchFrom? text false fuel i = none from
    hfuel _ _ (by omega)
  intro fuel
  induction fuel with
  | zero => exact fun _ _ => rfl
  | succ fuel ih =>
    intro i hi
    rw [Node.searchFrom?, h i (by omega)]
    exact ih _ (by omega)

theorem sliceText_append (before middle behind : List Char) :
    sliceText (before ++ (middle ++ behind)).toArray before.length
      (before.length + middle.length) = String.ofList middle := by
  simp [sliceText]

theorem advances_of_avoids (hn : n.avoids c = true) (hwidth : 0 < n.width.1) (text : Array Char) :
    n.Advances text := by
  intro i m hi h
  rw [matchFrom?_eq, Option.map_eq_some_iff] at h
  obtain ⟨r, hr, rfl⟩ := h
  obtain ⟨j, found, hj, hsize, hgoal⟩ := run_takes hn hi hr
  obtain rfl := Option.some.inj hgoal
  exact ⟨Nat.lt_of_lt_of_le (Nat.lt_add_of_pos_right hwidth) hj, hsize⟩

theorem matchFrom?_within (hn : n.avoids c = true) (hc : Text.isWordChar c = false)
    {left middle right : List Char} (hleft : endsInWord left = false)
    (hright : ∀ d ∈ right.head?, d = c) (hi : i ≤ middle.length) :
    n.matchFrom? (left ++ (middle ++ right)).toArray (left.length + i) false =
      (n.matchFrom? middle.toArray i false).map (Match.later left.length) := by
  rw [matchFrom?_eq, matchFrom?_eq,
    run_within hn hc hleft hright hi _ (fun j caps => some (j, caps)) [] fun _ _ _ => rfl,
    Option.map_map, Option.map_map]
  rfl

theorem searchFrom?_advances (hn : n.Advances text) {fuel : Nat} (hsize : i + fuel ≤ text.size + 1)
    (h : n.searchFrom? text false fuel i = some m) : m.start < m.stop ∧ i < m.stop := by
  induction fuel generalizing i with
  | zero => cases h
  | succ fuel ih =>
    rw [Node.searchFrom?] at h
    split at h
    · rename_i found hfound
      obtain rfl := Option.some.inj h
      have hstop := (hn i found (by omega) hfound).1
      rw [matchFrom?_eq, Option.map_eq_some_iff] at hfound
      obtain ⟨r, -, rfl⟩ := hfound
      exact ⟨hstop, hstop⟩
    · have := ih (by omega) h
      omega

/-- Of the matches that advance there are no more than the text is long. -/
theorem findAllFrom_fuel (hn : n.Advances text) {fuel : Nat} (fuel' : Nat)
    (h : text.size + 1 - i ≤ fuel) (h' : text.size + 1 - i ≤ fuel') :
    findAllFrom n text false fuel i = findAllFrom n text false fuel' i := by
  induction fuel generalizing fuel' i with
  | zero =>
    cases fuel' with
    | zero => rfl
    | succ fuel' => rw [findAllFrom, findAllFrom, if_pos (by omega)]
  | succ fuel ih =>
    cases fuel' with
    | zero => rw [findAllFrom, findAllFrom, if_pos (by omega)]
    | succ fuel' =>
      rw [findAllFrom, findAllFrom]
      split
      · rfl
      · cases hsearch : n.searchFrom? text false (text.size + 1 - i) i with
        | none => rfl
        | some m =>
          obtain ⟨hstart, hstop⟩ := searchFrom?_advances hn (by omega) hsearch
          have hmoved : (m.stop == m.start) = false := by simp; omega
          simp only [hmoved]
          rw [ih fuel' (by omega) (by omega)]

theorem findAll_eq (hn : n.Advances text) : n.findAll text = n.findFrom text 0 :=
  findAllFrom_fuel hn _ (by omega) (Nat.le_refl _)

theorem findFrom_of_gt (h : text.size < i) : n.findFrom text i = [] := by
  rw [Node.findFrom, show text.size + 1 - i = 0 by omega, findAllFrom]

/-- **One position**: what matches there is found, and the search goes on behind it. -/
theorem findFrom_step (hn : n.Advances text) (hi : i ≤ text.size) :
    n.findFrom text i =
      match n.matchFrom? text i false with
      | some m => m :: n.findFrom text m.stop
      | none => n.findFrom text (i + 1) := by
  have hfuel : text.size + 1 - i = text.size - i + 1 := by omega
  rw [Node.findFrom, hfuel, findAllFrom, if_neg (by omega), hfuel, Node.searchFrom?]
  cases hmatch : n.matchFrom? text i false with
  | some m =>
    obtain ⟨hstop, hle⟩ := hn i m hi hmatch
    have hstart : m.start = i := by
      rw [matchFrom?_eq, Option.map_eq_some_iff] at hmatch
      obtain ⟨r, -, rfl⟩ := hmatch
      rfl
    have hmoved : (m.stop == m.start) = false := by simp; omega
    simp only [hmoved]
    rw [findAllFrom_fuel hn (text.size + 1 - m.stop) (by omega) (Nat.le_refl _)]
    rfl
  | none =>
    rcases Nat.lt_or_eq_of_le hi with hlt | rfl
    · obtain ⟨k, hk⟩ : ∃ k, text.size - i = k + 1 := ⟨text.size - i - 1, by omega⟩
      have hrest : text.size + 1 - (i + 1) = k + 1 := by omega
      rw [Node.findFrom, hrest, findAllFrom, if_neg (by omega), hrest, hk]
      cases hsearch : n.searchFrom? text false (k + 1) (i + 1) with
      | none => rfl
      | some m =>
        obtain ⟨hstart, hstop⟩ := searchFrom?_advances hn (by omega) hsearch
        have hmoved : (m.stop == m.start) = false := by simp; omega
        simp only [hmoved]
        rw [findAllFrom_fuel hn k (by omega) (by omega)]
    · rw [Nat.sub_self, Node.searchFrom?, findFrom_of_gt (Nat.lt_succ_self _)]

/-- The matches in a stretch between two characters that are avoided stand before those behind
the second. -/
theorem findFrom_within (hn : n.avoids c = true) (hwidth : 0 < n.width.1)
    (hc : Text.isWordChar c = false) (left middle right : List Char)
    (hleft : endsInWord left = false) (hright : ∀ d ∈ right.head?, d = c) (hi : i ≤ middle.length) :
    n.findFrom (left ++ (middle ++ right)).toArray (left.length + i) =
      (n.findFrom middle.toArray i).map (Match.later left.length) ++
        n.findFrom (left ++ (middle ++ right)).toArray (left.length + (middle.length + 1)) := by
  have hadvances := advances_of_avoids hn hwidth
  induction hk : middle.length - i using Nat.strongRecOn generalizing i with
  | ind k ih =>
  subst hk
  rw [findFrom_step (hadvances _) (by simp; omega), matchFrom?_within hn hc hleft hright hi,
    findFrom_step (hadvances middle.toArray) (by simpa using hi)]
  cases hmatch : n.matchFrom? middle.toArray i false with
  | some m =>
    obtain ⟨hstop, hle⟩ := hadvances middle.toArray i m (by simpa using hi) hmatch
    rw [List.size_toArray] at hle
    simp only [Option.map_some, Match.later, List.map_cons, List.cons_append]
    rw [ih _ (by omega) hle rfl]
  | none =>
    simp only [Option.map_none]
    rcases Nat.lt_or_eq_of_le hi with hlt | rfl
    · exact ih _ (by omega) hlt rfl
    · have hend : n.findFrom middle.toArray (middle.length + 1) = [] := findFrom_of_gt (by simp)
      rw [hend]
      rfl

/-- **The matches on the two sides of a character that is avoided are all there are.** -/
theorem length_findAll_append_cons (hn : n.avoids c = true) (hwidth : 0 < n.width.1)
    (hc : Text.isWordChar c = false) (cs ds : List Char) :
    (n.findAll (cs ++ c :: ds).toArray).length =
      (n.findAll cs.toArray).length + (n.findAll ds.toArray).length := by
  have hadvances := advances_of_avoids hn hwidth
  have hfirst := findFrom_within hn hwidth hc [] cs (c :: ds) rfl (by simp) (Nat.zero_le _)
  have hsecond := findFrom_within hn hwidth hc (cs ++ [c]) ds [] (by rwa [endsInWord_concat])
    (by simp) (Nat.zero_le _)
  have hend : n.findFrom (cs ++ [c] ++ (ds ++ [])).toArray
      ((cs ++ [c]).length + (ds.length + 1)) = [] :=
    findFrom_of_gt (by simp)
  rw [hend] at hsecond
  simp only [List.nil_append, List.length_nil, Nat.zero_add, List.append_assoc, List.append_nil,
    List.cons_append, List.length_append, List.length_cons, Nat.add_zero] at hfirst hsecond
  rw [findAll_eq (hadvances _), findAll_eq (hadvances _), findAll_eq (hadvances _), hfirst, hsecond,
    List.length_append, List.length_map, List.length_map]

end Found

end RepairLoop.Pattern
