import Mathlib.Data.Nat.Find
import RepairLoop.Proofs.Pattern.Pieces
import RepairLoop.Proposal.Review
/-!
# Verdicts — where in an answer a verdict is found

A statement of a verdict is a heading and the name of the verdict, which ends there (`States`). A
text can be taken for one in one way only, since what stands behind the heading is found by
passing over it (`Statement.unique`). The pattern matches at a place exactly if a line starts
there and the rest is a statement (`matchFrom_sound`, `matchFrom_complete`), and it is looked for
at every place. So the first line that states a verdict decides (`ofAnswer_of_first`), whether it
is the first of the answer or not.
-/

namespace RepairLoop

open Pattern Text

namespace Verdict

/-- What stands before the word of a verdict. -/
def heading : List Piece :=
  [.spaces, .marks '*', .word "verdict", .marks '*', .spaces, .word ":", .spaces, .marks '*', .spaces]

/-- Something is said in a word of its own: the heading, and the name of the verdict in any
case. -/
structure Statement (v : Verdict) (front word behind : List Char) : Prop where
  clear : v ≠ .unclear
  heading : Reads heading front
  word : word.map Char.toLower = v.name.toList
  ends : startsInWord behind = false

/-- A text starts with a statement of a verdict. -/
def States (v : Verdict) (text : List Char) : Prop :=
  ∃ front word behind, text = front ++ (word ++ behind) ∧ v.Statement front word behind

/-! ## One statement at a place -/

variable {u v : Verdict} {front front' word word' behind behind' rest text : List Char}

/-- What may stand between the words of a statement. -/
def isBetween (c : Char) : Bool := isBlank c || c == '*'

/-- What stands behind the heading, if a text starts with it. -/
def behindHeading (text : List Char) : List Char :=
  (((((text.dropWhile isBetween).drop "verdict".length).dropWhile isBetween).drop 1).dropWhile
    isBetween)

theorem not_isBetween {c : Char} (h : isWordChar c = true ∨ c = ':') : isBetween c = false := by
  rcases h with h | rfl
  · rw [isBetween, Bool.or_eq_false_iff, beq_eq_false_iff_ne]
    refine ⟨Bool.eq_false_iff.2 fun hblank => ?_, ?_⟩
    · rw [not_isWordChar_of_isBlank hblank] at h
      cases h
    · rintro rfl
      exact absurd h (by decide)
  · decide

/-- A letter is part of a word. -/
theorem isWordChar_of_toLower {c x : Char} (h : c.toLower = x) (hx : 97 ≤ x.toNat ∧ x.toNat ≤ 122) :
    isWordChar c = true := by
  have hletter : 65 ≤ c.toNat ∧ c.toNat ≤ 90 ∨ 97 ≤ c.toNat ∧ c.toNat ≤ 122 := by
    subst h
    rcases toLower_cases c with hself | hcapital
    · rw [hself] at hx
      exact .inr hx
    · exact .inl ⟨hcapital.1, hcapital.2.1⟩
  refine isWordChar_of_isAlphanum ?_ (by omega)
  rw [Char.isAlphanum, isAlpha_eq]
  simp only [Bool.or_eq_true, Bool.and_eq_true, decide_eq_true_eq]
  exact .inl hletter

theorem dropWhile_between {cs rest : List Char} (hcs : ∀ c ∈ cs, isBetween c = true)
    (hrest : ∀ c ∈ rest.head?, isBetween c = false) :
    (cs ++ rest).dropWhile isBetween = rest := by
  rw [List.dropWhile_append_of_pos hcs]
  cases rest with
  | nil => rfl
  | cons c rest => exact List.dropWhile_cons_of_neg (by simp [hrest c rfl])

theorem isBetween_of_spaces {cs : List Char} (h : Piece.spaces.Takes cs) :
    ∀ c ∈ cs, isBetween c = true := fun c hc => by rw [isBetween, h c hc, Bool.true_or]

theorem isBetween_of_stars {cs : List Char} (h : (Piece.marks '*').Takes cs) :
    ∀ c ∈ cs, isBetween c = true := fun c hc => by
  have hsmall : c.toLower = '*' := (sameLetter_iff (by decide)).1 (h c hc)
  rw [eq_of_toLower (c := '*') (by decide) hsmall]
  decide

/-- **What stands behind the heading is found by passing over it.** -/
theorem behindHeading_append (h : Reads heading front)
    (hrest : ∀ c ∈ rest.head?, isBetween c = false) : behindHeading (front ++ rest) = rest := by
  obtain ⟨b₁, _, rfl, hb₁, s₁, _, rfl, hs₁, w, _, rfl, hw, s₂, _, rfl, hs₂, b₂, _, rfl, hb₂,
    c, _, rfl, hc, b₃, _, rfl, hb₃, s₃, _, rfl, hs₃, b₄, _, rfl, hb₄, rfl⟩ := h
  -- the first character of a word and the colon stand between nothing
  have hw : List.Forall₂ (fun x c => sameLetter x c = true) ['v', 'e', 'r', 'd', 'i', 'c', 't'] w :=
    hw
  have hlength : w.length = "verdict".length := hw.length_eq.symm
  obtain ⟨d, w, hd, hw', rfl⟩ := List.forall₂_cons_left_iff.1 hw
  obtain ⟨x, _, hx, hnil, rfl⟩ := List.forall₂_cons_left_iff.1 (show List.Forall₂ _ [':'] c from hc)
  obtain rfl := List.forall₂_nil_left_iff.1 hnil
  have hd : isBetween d = false := not_isBetween (.inl
    (isWordChar_of_toLower ((sameLetter_iff (by decide)).1 hd) (by decide)))
  have hx : isBetween x = false := not_isBetween (.inr
    (eq_of_toLower (c := ':') (by decide) ((sameLetter_iff (by decide)).1 hx)))
  have hafter : (b₃ ++ s₃ ++ b₄ ++ rest).dropWhile isBetween = rest :=
    dropWhile_between (List.forall_mem_append.2 ⟨List.forall_mem_append.2
      ⟨isBetween_of_spaces hb₃, isBetween_of_stars hs₃⟩, isBetween_of_spaces hb₄⟩) hrest
  have hcolon : (s₂ ++ b₂ ++ x :: (b₃ ++ s₃ ++ b₄ ++ rest)).dropWhile isBetween =
      x :: (b₃ ++ s₃ ++ b₄ ++ rest) :=
    dropWhile_between (List.forall_mem_append.2
      ⟨isBetween_of_stars hs₂, isBetween_of_spaces hb₂⟩) (by simpa using hx)
  have hword : (b₁ ++ s₁ ++ ((d :: w) ++ (s₂ ++ b₂ ++ x :: (b₃ ++ s₃ ++ b₄ ++ rest)))).dropWhile
      isBetween = (d :: w) ++ (s₂ ++ b₂ ++ x :: (b₃ ++ s₃ ++ b₄ ++ rest)) :=
    dropWhile_between (List.forall_mem_append.2
      ⟨isBetween_of_spaces hb₁, isBetween_of_stars hs₁⟩) (by simpa using hd)
  have hfront : b₁ ++ (s₁ ++ ((d :: w) ++ (s₂ ++ (b₂ ++ ([x] ++ (b₃ ++ (s₃ ++ (b₄ ++ [])))))))) ++
      rest = b₁ ++ s₁ ++ ((d :: w) ++ (s₂ ++ b₂ ++ x :: (b₃ ++ s₃ ++ b₄ ++ rest))) := by
    simp only [List.append_assoc, List.cons_append, List.nil_append]
  rw [hfront, behindHeading, hword, ← hlength, List.drop_left, hcolon, List.drop_one, List.tail_cons,
    hafter]

theorem name_letters (v : Verdict) :
    v.name.toList ≠ [] ∧ ∀ x ∈ v.name.toList, 97 ≤ x.toNat ∧ x.toNat ≤ 122 := by
  cases v <;> simp [name]

/-- The name of a verdict, in any case, is a word of ASCII letters. -/
theorem letters_of_name (h : word.map Char.toLower = v.name.toList) :
    word ≠ [] ∧ ∀ c ∈ word, isWordChar c = true ∧ c.toNat < 128 := by
  refine ⟨?_, fun c hc => ?_⟩
  · rintro rfl
    exact v.name_letters.1 h.symm
  · have hbounds := v.name_letters.2 _ (h ▸ List.mem_map_of_mem hc)
    refine ⟨isWordChar_of_toLower rfl hbounds, ?_⟩
    rcases toLower_cases c with hself | hcapital
    · rw [hself] at hbounds
      omega
    · omega

namespace Statement

theorem behindHeading_eq (h : v.Statement front word behind) :
    behindHeading (front ++ (word ++ behind)) = word ++ behind := by
  refine behindHeading_append h.heading fun c hc => ?_
  obtain ⟨hne, hletters⟩ := letters_of_name h.word
  rw [List.head?_append_of_ne_nil _ hne] at hc
  exact not_isBetween (.inl (hletters c (List.mem_of_mem_head? hc)).1)

/-- **A text can be taken for a statement in one way only.** -/
theorem unique (h : v.Statement front word behind) (h' : u.Statement front' word' behind')
    (he : front ++ (word ++ behind) = front' ++ (word' ++ behind')) :
    v = u ∧ front = front' ∧ word = word' ∧ behind = behind' := by
  have hrest : word ++ behind = word' ++ behind' := by
    rw [← h.behindHeading_eq, he, h'.behindHeading_eq]
  have hfront : front = front' := by
    rw [hrest] at he
    exact List.append_cancel_right he
  have hfirst : v.name.toList.head? = u.name.toList.head? := by
    have hhead := congrArg List.head? hrest
    rw [List.head?_append_of_ne_nil _ (letters_of_name h.word).1,
      List.head?_append_of_ne_nil _ (letters_of_name h'.word).1] at hhead
    rw [← h.word, ← h'.word, List.head?_map, List.head?_map, hhead]
  have hsame : v = u := by
    have hv := h.clear
    have hu := h'.clear
    cases v <;> cases u <;> simp_all [name]
  subst hsame
  have hlength : word.length = word'.length := by
    have hmap : word.map Char.toLower = word'.map Char.toLower := h.word.trans h'.word.symm
    simpa only [List.length_map] using congrArg List.length hmap
  exact ⟨rfl, hfront, List.append_inj hrest hlength⟩

end Statement

theorem States.unique (h : v.States text) (h' : u.States text) : v = u := by
  obtain ⟨front, word, behind, rfl, hstates⟩ := h
  obtain ⟨front', word', behind', he, hstates'⟩ := h'
  exact (hstates.unique hstates' he).1

/-- The word of a verdict is its name in any case. -/
theorem takes_name_iff (hv : v ≠ .unclear) :
    (Piece.word v.name).Takes word ↔ word.map Char.toLower = v.name.toList :=
  Piece.takes_word_iff (by cases v <;> simp_all [name] <;> decide)

end Verdict

namespace Review

open Verdict (States Statement)

variable {before front word behind rest : List Char} {v : Verdict}

/-! ## What the pattern finds at a place -/

/-- What is read behind the heading. -/
def saying : List Node := [.group 1 (anyLit .caseless ["approve", "reject"]), edge]

theorem verdictPattern_eq : verdictPattern =
    row (.at_ .caseless .lineStart :: (Verdict.heading.map Piece.node ++ saying)) := rfl

/-- A place where a line starts. -/
def AtLineStart (before : List Char) : Prop := ∀ c ∈ before.getLast?, c = '\n'

theorem holds_lineStart : Place.lineStart.holds .caseless (before ++ rest).toArray before.length =
    true ↔ AtLineStart before := by
  rcases List.eq_nil_or_concat' before with rfl | ⟨front, c, rfl⟩
  · exact iff_of_true rfl fun _ h => by cases h
  · simp [Place.holds, AtLineStart]

/-- The edge of a word is found behind a letter exactly if no word goes on there. -/
theorem run_edge_word {caps : Captures} {goal : Goal}
    (hword : word.map Char.toLower = v.name.toList) :
    edge.run (before ++ (word ++ behind)).toArray (before.length + word.length) caps goal =
      if startsInWord behind = false then goal (before.length + word.length) caps else none := by
  obtain ⟨hne, hletters⟩ := Verdict.letters_of_name hword
  have hends : endsInWord (before ++ word) = true := by
    rw [endsInWord_append_of_ne_nil hne, endsInWord, List.getLast?_eq_getLast_of_ne_nil hne]
    exact (hletters _ (List.getLast_mem hne)).1
  rw [← List.append_assoc, ← List.length_append, run_edge, hends]
  simp only [bne_iff_ne, ne_eq, eq_comm (a := true), Bool.not_eq_true]

/-- What is found behind a word that starts at a place: its edge, and the word as a group. -/
def wordFrom (text : Array Char) (i : Nat) : Goal := fun j found =>
  edge.run text j ((1, i, j) :: found) fun j found => some (j, found)

theorem run_name_sound {caps : Captures} {r : Nat × Captures} (hv : v ≠ .unclear)
    (h : (lit .caseless v.name).run (before ++ rest).toArray before.length caps
      (wordFrom (before ++ rest).toArray before.length) = some r) :
    ∃ word behind, rest = word ++ behind ∧ word.map Char.toLower = v.name.toList ∧
      startsInWord behind = false ∧
      r = (before.length + word.length, (1, before.length, before.length + word.length) :: caps) := by
  obtain ⟨word, behind, rfl, htaken, hgoal⟩ := Piece.run_sound (p := .word v.name) h
  have hword := (Verdict.takes_name_iff hv).1 htaken
  rw [wordFrom, run_edge_word hword] at hgoal
  split at hgoal
  · rename_i hends
    exact ⟨word, behind, rfl, hword, hends, (Option.some.inj hgoal).symm⟩
  · cases hgoal

theorem run_name_complete {caps : Captures} (hv : v ≠ .unclear)
    (hword : word.map Char.toLower = v.name.toList) (hends : startsInWord behind = false) :
    ((lit .caseless v.name).run (before ++ (word ++ behind)).toArray before.length caps
      (wordFrom (before ++ (word ++ behind)).toArray before.length)).isSome = true := by
  refine Piece.run_complete (p := .word v.name) ((Verdict.takes_name_iff hv).2 hword) ?_
  rw [wordFrom, run_edge_word hword, if_pos hends]
  rfl

theorem run_saying (text : Array Char) (i : Nat) (caps : Captures) :
    (row saying).run text i caps (fun j found => some (j, found)) =
      ((lit .caseless Verdict.approve.name).run text i caps (wordFrom text i)).or
        ((lit .caseless Verdict.reject.name).run text i caps (wordFrom text i)) := by
  have halt (a b : Node) (goal : Goal) : (Node.alt a b).run text i caps goal =
      (a.run text i caps goal).or (b.run text i caps goal) := by
    rw [run_alt]
    cases a.run text i caps goal <;> rfl
  exact halt _ _ _

theorem run_saying_sound {caps : Captures} {r : Nat × Captures}
    (h : (row saying).run (before ++ rest).toArray before.length caps
      (fun j found => some (j, found)) = some r) :
    ∃ (v : Verdict) (word behind : List Char), v ≠ .unclear ∧ rest = word ++ behind ∧
      word.map Char.toLower = v.name.toList ∧ startsInWord behind = false ∧
      r = (before.length + word.length, (1, before.length, before.length + word.length) :: caps) := by
  rw [run_saying, Option.or_eq_some_iff] at h
  rcases h with h | ⟨-, h⟩
  · exact ⟨.approve, _, _, by decide, (run_name_sound (by decide) h).choose_spec.choose_spec⟩
  · exact ⟨.reject, _, _, by decide, (run_name_sound (by decide) h).choose_spec.choose_spec⟩

theorem run_saying_complete {caps : Captures} (hv : v ≠ .unclear)
    (hword : word.map Char.toLower = v.name.toList) (hends : startsInWord behind = false) :
    ((row saying).run (before ++ (word ++ behind)).toArray before.length caps
      fun j found => some (j, found)).isSome = true := by
  have hone : ((lit .caseless v.name).run (before ++ (word ++ behind)).toArray before.length caps
      (wordFrom (before ++ (word ++ behind)).toArray before.length)).isSome = true :=
    run_name_complete hv hword hends
  rw [run_saying, Option.isSome_or, Bool.or_eq_true]
  cases v with
  | unclear => exact absurd rfl hv
  | approve => exact .inl hone
  | reject => exact .inr hone

/-- **What matches at a place is a statement of a verdict** on a line that starts there. -/
theorem matchFrom_sound {m : Match}
    (h : verdictPattern.matchFrom? (before ++ rest).toArray before.length false = some m) :
    AtLineStart before ∧ ∃ (v : Verdict) (front word behind : List Char),
      rest = front ++ (word ++ behind) ∧
      v.Statement front word behind ∧
      m = ⟨before.length, (before ++ front).length + word.length,
        [(1, (before ++ front).length, (before ++ front).length + word.length)]⟩ := by
  rw [matchFrom?_eq, verdictPattern_eq, run_row_cons, run_at, Option.map_eq_some_iff] at h
  obtain ⟨r, hrun, rfl⟩ := h
  split at hrun
  · rename_i hline
    rw [run_row_append] at hrun
    obtain ⟨front, rest, rfl, hfront, hrun⟩ := run_sound hrun
    rw [← List.append_assoc, ← List.length_append] at hrun
    obtain ⟨v, word, behind, hv, rfl, hword, hends, rfl⟩ := run_saying_sound hrun
    exact ⟨holds_lineStart.1 hline, v, front, word, behind, rfl, ⟨hv, hfront, hword, hends⟩, rfl⟩
  · cases hrun

/-- **A statement on a line of its own is matched.** -/
theorem matchFrom_complete (hline : AtLineStart before) (h : v.Statement front word behind) :
    (verdictPattern.matchFrom? (before ++ (front ++ (word ++ behind))).toArray before.length
      false).isSome = true := by
  rw [matchFrom?_eq, verdictPattern_eq, run_row_cons, run_at, if_pos (holds_lineStart.2 hline),
    Option.isSome_map, run_row_append]
  refine run_complete h.heading ?_
  rw [← List.append_assoc, ← List.length_append]
  exact run_saying_complete h.clear h.word h.ends

/-! ## The first statement in an answer -/

/-- **Where a verdict is found**: a statement on a line of its own, before which no line states a
verdict. -/
structure FirstStated (v : Verdict) (text before front word behind : List Char) : Prop where
  parts : text = before ++ (front ++ (word ++ behind))
  line : AtLineStart before
  stated : v.Statement front word behind
  first : ∀ early rest, text = early ++ rest → AtLineStart early → early.length < before.length →
    ∀ u : Verdict, ¬ u.States rest

/-- No line of a text states a verdict. -/
def Unstated (text : List Char) : Prop :=
  ∀ early rest, text = early ++ rest → AtLineStart early → ∀ v : Verdict, ¬ v.States rest

theorem matchFrom_eq_none {i : Nat} {text : List Char} (hi : i ≤ text.length)
    (h : AtLineStart (text.take i) → ∀ v : Verdict, ¬ v.States (text.drop i)) :
    verdictPattern.matchFrom? text.toArray i false = none := by
  by_contra hsome
  obtain ⟨m, hm⟩ := Option.ne_none_iff_exists'.1 hsome
  have hlength : (text.take i).length = i := List.length_take_of_le hi
  rw [← List.take_append_drop i text] at hm
  conv at hm => lhs; arg 3; rw [← hlength]
  obtain ⟨hline, v, front, word, behind, hrest, hstated, -⟩ := matchFrom_sound hm
  exact h hline v ⟨front, word, behind, hrest, hstated⟩

/-- The match of the first statement. -/
theorem search_of_first {text : List Char} (h : FirstStated v text before front word behind) :
    verdictPattern.search? text.toArray =
      some ⟨before.length, (before ++ front).length + word.length,
        [(1, (before ++ front).length, (before ++ front).length + word.length)]⟩ := by
  obtain ⟨m, hm⟩ := Option.isSome_iff_exists.1 (matchFrom_complete h.line h.stated)
  obtain ⟨-, v', front', word', behind', hrest, hstated, rfl⟩ := matchFrom_sound hm
  obtain ⟨-, rfl, rfl, -⟩ := h.stated.unique hstated hrest
  rw [← h.parts] at hm
  have hle : before.length ≤ text.length := by
    rw [h.parts, List.length_append]
    exact Nat.le_add_right _ _
  refine search?_of_first (by simpa using hle) hm fun j hj => ?_
  refine matchFrom_eq_none (by omega) fun hline => h.first _ _ (List.take_append_drop j text).symm
    hline ?_
  rw [List.length_take_of_le (by omega)]
  exact hj

/-- **The first statement decides**, and the rest of the answer is the report. -/
theorem ofAnswer_of_first {answer : String}
    (h : FirstStated v (strip answer).toList before front word behind) :
    ofAnswer answer = ⟨v, strip (String.ofList (before ++ behind))⟩ := by
  have hword : lowerCase (String.ofList word) = v.name := by
    have hletters := (Verdict.letters_of_name h.stated.word).2
    rw [lowerCase_of_ascii (by simpa using fun c hc => (hletters c hc).2), String.toList_ofList,
      h.stated.word, String.ofList_toList]
  have hslice : sliceText (strip answer).toList.toArray (before ++ front).length
      ((before ++ front).length + word.length) = String.ofList word := by
    rw [h.parts, ← List.append_assoc]
    exact sliceText_append _ _ _
  have hbefore : sliceText (strip answer).toList.toArray 0 before.length = String.ofList before := by
    rw [h.parts]
    exact (congrArg (sliceText _ 0 ·) (Nat.zero_add _).symm).trans (sliceText_append [] before _)
  have hbehind : sliceText (strip answer).toList.toArray ((before ++ front).length + word.length)
      (strip answer).toList.toArray.size = String.ofList behind := by
    have hend := sliceText_append (before ++ front ++ word) behind []
    rw [List.append_nil, List.append_assoc _ word, List.append_assoc, ← h.parts,
      ← List.length_append] at hend
    have hsize : (strip answer).toList.toArray.size = (before ++ front ++ word ++ behind).length := by
      rw [List.size_toArray, h.parts]
      simp only [List.append_assoc]
    rw [hsize, ← List.length_append]
    exact hend
  unfold ofAnswer
  simp only [search_of_first h, Match.group?, Captures.get?, List.find?_cons_of_pos, beq_self_eq_true,
    Option.map_some, hslice, hbefore, hbehind, Option.getD_some, hword, String.ofList_append]
  have hclear := h.stated.clear
  cases v with
  | unclear => exact absurd rfl hclear
  | approve => rfl
  | reject => rfl

/-- **Where no line states a verdict** the verdict is unclear, and the answer is the report. -/
theorem ofAnswer_of_unstated {answer : String} (h : Unstated (strip answer).toList) :
    ofAnswer answer = ⟨.unclear, strip answer⟩ := by
  have hnone : verdictPattern.search? (strip answer).toList.toArray = none :=
    search?_of_none fun j hj => matchFrom_eq_none (by simpa using hj) fun hline =>
      h _ _ (List.take_append_drop j _).symm hline
  unfold ofAnswer
  simp only [hnone]

/-- **A text that states a verdict somewhere states one first.** -/
theorem exists_first {text : List Char} (h : ¬ Unstated text) :
    ∃ v before front word behind, FirstStated v text before front word behind := by
  have hsome : ∃ n, ∃ early rest, text = early ++ rest ∧ AtLineStart early ∧
      (∃ v : Verdict, v.States rest) ∧ early.length = n := by
    unfold Unstated at h
    push Not at h
    obtain ⟨early, rest, htext, hline, v, hv⟩ := h
    exact ⟨_, early, rest, htext, hline, ⟨v, hv⟩, rfl⟩
  classical
  obtain ⟨before, rest, htext, hline, ⟨v, front, word, behind, rfl, hstated⟩, hlength⟩ :=
    Nat.find_spec hsome
  refine ⟨v, before, front, word, behind, htext, hline, hstated,
    fun early rest he hstart hlt u hu => ?_⟩
  rw [hlength] at hlt
  exact Nat.find_min hsome hlt ⟨early, rest, he, hstart, ⟨u, hu⟩, rfl⟩

/-- A statement with which a text starts is the first one. -/
theorem first_of_states {text : List Char} (h : v.States text) :
    ∃ front word behind, FirstStated v text [] front word behind := by
  obtain ⟨front, word, behind, rfl, hstated⟩ := h
  exact ⟨front, word, behind, rfl, (fun _ hc => by cases hc), hstated,
    fun _ _ _ _ hlt => absurd hlt (Nat.not_lt_zero _)⟩

/-- A line starts with the text or behind a line feed. -/
theorem unstated_iff {text : List Char} : Unstated text ↔ (∀ v : Verdict, ¬ v.States text) ∧
    ∀ line rest, text = line ++ '\n' :: rest → ∀ v : Verdict, ¬ v.States rest := by
  constructor
  · intro h
    refine ⟨h [] text rfl (fun _ hc => by cases hc), fun line rest htext => ?_⟩
    refine h (line ++ ['\n']) rest (by rw [htext, List.append_assoc]; rfl) fun c hc => ?_
    rw [List.getLast?_concat] at hc
    exact (Option.some.inj hc).symm
  · rintro ⟨hstart, hlater⟩ early rest rfl hline
    rcases List.eq_nil_or_concat' early with rfl | ⟨line, c, rfl⟩
    · exact hstart
    · obtain rfl := hline c (by rw [List.getLast?_concat]; rfl)
      exact hlater line rest (by rw [List.append_assoc]; rfl)

/-- **A verdict is found wherever a line states one.** The verdict of an answer is that of the
first line which states a verdict, with the rest of the answer as the report, and it is unclear
where no line does. So an answer is judged by its start alone, and unclear unless it starts with
a statement, exactly if it starts with one or states none on a later line. -/
theorem ofAnswer_start_iff (answer : String) :
    let text := (strip answer).toList
    (((∀ v : Verdict, v ≠ .unclear → ((ofAnswer answer).verdict = v ↔ v.States text)) ∧
        ((∀ v : Verdict, ¬ v.States text) → ofAnswer answer = ⟨.unclear, strip answer⟩)) ↔
      (∃ v : Verdict, v.States text) ∨
        ∀ line rest, text = line ++ '\n' :: rest → ∀ v : Verdict, ¬ v.States rest) ∧
    (∀ v before front word behind, FirstStated v text before front word behind →
      ofAnswer answer = ⟨v, strip (String.ofList (before ++ behind))⟩) ∧
    (Unstated text → ofAnswer answer = ⟨.unclear, strip answer⟩) := by
  intro text
  refine ⟨⟨fun ⟨hstart, _⟩ => ?_, fun h => ?_⟩, fun _ _ _ _ _ => ofAnswer_of_first,
    ofAnswer_of_unstated⟩
  · by_contra hlater
    push Not at hlater
    obtain ⟨hnone, line, rest, htext, v, hv⟩ := hlater
    have hsome : ¬ Unstated text := fun h => (unstated_iff.1 h).2 line rest htext v hv
    obtain ⟨v, before, front, word, behind, hfirst⟩ := exists_first hsome
    have hverdict : (ofAnswer answer).verdict = v := by rw [ofAnswer_of_first hfirst]
    exact hnone v ((hstart v hfirst.stated.clear).1 hverdict)
  · by_cases hnone : ∀ v : Verdict, ¬ v.States text
    · have hunclear := ofAnswer_of_unstated
        (unstated_iff.2 ⟨hnone, h.resolve_left fun ⟨v, hv⟩ => hnone v hv⟩)
      refine ⟨fun v hv => iff_of_false (fun hverdict => hv ?_) (hnone v), fun _ => hunclear⟩
      rw [← hverdict, hunclear]
    · push Not at hnone
      obtain ⟨v, hv⟩ := hnone
      obtain ⟨front, word, behind, hfirst⟩ := first_of_states hv
      have hverdict : (ofAnswer answer).verdict = v := by rw [ofAnswer_of_first hfirst]
      refine ⟨fun u _ => ?_, fun hnone => absurd hv (hnone v)⟩
      rw [hverdict]
      exact ⟨fun he => he ▸ hv, fun hu => hv.unique hu⟩

/-- The answer starts with a remark, and a later line states a verdict. -/
def remark : String := "Here is my review.\nVerdict: reject, it is too broad."

/-- **The answer does not start with a statement, and a verdict is read from it.** -/
theorem ofAnswer_remark : ofAnswer remark = ⟨.reject, "Here is my review.\n, it is too broad."⟩ ∧
    ∀ v : Verdict, ¬ v.States (strip remark).toList := by
  have hanswer : ofAnswer remark = ⟨.reject, "Here is my review.\n, it is too broad."⟩ := by
    decide +kernel
  have hstart : (verdictPattern.matchFrom? (strip remark).toList.toArray 0 false).isSome = false := by
    decide +kernel
  refine ⟨hanswer, fun v hv => ?_⟩
  obtain ⟨front, word, behind, htext, hstated⟩ := hv
  have hmatch : (verdictPattern.matchFrom? ([] ++ (front ++ (word ++ behind))).toArray 0
      false).isSome = true := matchFrom_complete (fun _ hc => by cases hc) hstated
  rw [List.nil_append, ← htext] at hmatch
  exact absurd hmatch (Bool.eq_false_iff.1 hstart)

end Review

end RepairLoop
