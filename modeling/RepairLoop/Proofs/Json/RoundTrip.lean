import RepairLoop.Proofs.Json.Scalars
/-!
# RoundTrip — a JSON value is read back from its text

A value whose numbers can be read and whose objects have no key twice (`IsReadable`) is read
back from its text on one line, as it was (`parse_render`). The reading spends at each step
less of its fuel than there are characters left, and a part is read back whatever stands
behind it, as long as that does not go on with a number (`Rereads`).
-/

namespace RepairLoop.Json

open Number

/-! ## Values that can be read -/

mutual

/-- Integers are not too long, doubles are finite, and objects have no key twice. -/
def IsReadable : Json → Prop
  | .int n => (Nat.toDigits 10 n.natAbs).length ≤ maxDigits
  | .float x => isFinite x = true
  | .list items => AreReadable items
  | .object ms => (ms.map Prod.fst).Nodup ∧ MembersReadable ms
  | _ => True

/-- All items can be read. -/
def AreReadable : List Json → Prop
  | [] => True
  | j :: rest => IsReadable j ∧ AreReadable rest

/-- The values of all members can be read. -/
def MembersReadable : List (String × Json) → Prop
  | [] => True
  | (_, j) :: rest => IsReadable j ∧ MembersReadable rest

end

/-! ## Texts on one line -/

variable {style : Style} {rest blanks : List Char} {depth fuel : ℕ}

/-- A style that puts all on one line, as it stands, with a comma and a colon that blanks may
follow. -/
structure Style.OneLine (style : Style) : Prop where
  indent : style.indent = none
  sorted : style.sorted = false
  item : ∃ blanks, style.item.toList = ',' :: blanks ∧ ∀ c ∈ blanks, isSpace c = true
  key : ∃ blanks, style.key.toList = ':' :: blanks ∧ ∀ c ∈ blanks, isSpace c = true

theorem Style.spaced_oneLine : Style.spaced.OneLine :=
  ⟨rfl, rfl, ⟨[' '], rfl, by simp [isSpace]⟩, ⟨[' '], rfl, by simp [isSpace]⟩⟩

theorem Style.plain_oneLine : Style.plain.OneLine :=
  ⟨rfl, rfl, ⟨[], rfl, by simp⟩, ⟨[], rfl, by simp⟩⟩

/-- The characters of a value. -/
def chars (style : Style) (depth : ℕ) (j : Json) : List Char := (renderAt style depth j).toList

/-- The characters of items with what stands between them. -/
def itemChars (style : Style) (depth : ℕ) (items : List Json) : List Char :=
  style.item.toList.intercalate ((renderItems style depth items).map String.toList)

/-- The characters of a member. -/
def memberChars (style : Style) (depth : ℕ) (m : String × Json) : List Char :=
  (quotedText style m.1).toList ++ style.key.toList ++ chars style depth m.2

/-- The characters of members with what stands between them. -/
def membersChars (style : Style) (depth : ℕ) (ms : List (String × Json)) : List Char :=
  style.item.toList.intercalate (ms.map (memberChars style depth))

theorem itemChars_cons (j k : Json) (js : List Json) :
    itemChars style depth (j :: k :: js) =
      chars style depth j ++ style.item.toList ++ itemChars style depth (k :: js) := by
  show style.item.toList.intercalate (chars style depth j :: chars style depth k :: _) = _
  rw [List.intercalate_cons_cons]
  rfl

theorem itemChars_singleton (j : Json) : itemChars style depth [j] = chars style depth j :=
  List.intercalate_singleton

theorem membersChars_cons (m m' : String × Json) (ms : List (String × Json)) :
    membersChars style depth (m :: m' :: ms) =
      memberChars style depth m ++ style.item.toList ++ membersChars style depth (m' :: ms) := by
  simp only [membersChars, List.map_cons, List.intercalate_cons_cons]

theorem membersChars_singleton (m : String × Json) :
    membersChars style depth [m] = memberChars style depth m := by
  simp [membersChars]

theorem toList_enclosed (h : style.indent = none) (left right : String) (parts : List String) :
    (enclosed style depth left right parts).toList =
      left.toList ++ style.item.toList.intercalate (parts.map String.toList) ++ right.toList := by
  unfold enclosed
  split
  · rename_i hempty
    obtain rfl := List.isEmpty_iff.1 hempty
    simp
  · simp [newline, h, String.toList_intercalate]

theorem renderMembers_eq (ms : List (String × Json)) :
    renderMembers style depth ms = ms.map fun (k, j) => (k, renderAt style depth j) := by
  induction ms with
  | nil => rfl
  | cons m ms ih => exact congrArg (_ :: ·) ih

theorem chars_null : chars style depth .null = ['n', 'u', 'l', 'l'] := by
  show "null".toList = _
  rfl

theorem chars_true : chars style depth (.bool true) = ['t', 'r', 'u', 'e'] := by
  show "true".toList = _
  rfl

theorem chars_false : chars style depth (.bool false) = ['f', 'a', 'l', 's', 'e'] := by
  show "false".toList = _
  rfl

theorem chars_text (s : String) : chars style depth (.text s) =
    '"' :: (s.toList.flatMap (escaped style.ascii) ++ ['"']) :=
  toList_quotedText ..

theorem chars_list (h : style.OneLine) (items : List Json) :
    chars style depth (.list items) = '[' :: (itemChars style (depth + 1) items ++ [']']) :=
  toList_enclosed h.indent ..

theorem chars_object (h : style.OneLine) (ms : List (String × Json)) :
    chars style depth (.object ms) =
      '\x7b' :: (membersChars style (depth + 1) ms ++ ['\x7d']) := by
  have hparts : ((style.order (renderMembers style (depth + 1) ms)).map
      fun m => quotedText style m.1 ++ style.key ++ m.2).map String.toList =
      ms.map (memberChars style (depth + 1)) := by
    rw [Style.order, h.sorted, renderMembers_eq]
    simp [memberChars, chars]
  refine (toList_enclosed h.indent ..).trans ?_
  rw [hparts]
  rfl

/-! ## Blanks -/

theorem skip_cons {c : Char} (hc : isSpace c = false) (cs : List Char) :
    skip (c :: cs) = c :: cs := by
  simp [skip, hc]

theorem skip_append (h : ∀ c ∈ blanks, isSpace c = true) (cs : List Char) :
    skip (blanks ++ cs) = skip cs :=
  List.dropWhile_append_of_pos h

/-! ## Words -/

theorem literal?_cons (word : String) {w : List Char} {a b : Char} (hword : word.toList = a :: w)
    (hne : b ≠ a) (cs : List Char) : literal? word (b :: cs) = none := by
  have hab : (a == b) = false := by simpa using fun h : a = b => hne h.symm
  rw [literal?, hword]
  simp [List.isPrefixOf, hab]

theorem ne_of_isDigit {c d : Char} (hc : c.isDigit = true) (hd : d.isDigit = false) : c ≠ d := by
  rintro rfl
  rw [hc] at hd
  cases hd

/-- What starts with a digit is read as a number. -/
theorem readValue_digit {c : Char} (hc : c.isDigit = true) (cs : List Char) :
    readValue (fuel + 1) (c :: cs) = readNumber false (c :: cs) := by
  have hnull := literal?_cons "null" rfl (ne_of_isDigit hc (by decide)) cs
  have htrue := literal?_cons "true" rfl (ne_of_isDigit hc (by decide)) cs
  have hfalse := literal?_cons "false" rfl (ne_of_isDigit hc (by decide)) cs
  have hnan := literal?_cons "NaN" rfl (ne_of_isDigit hc (by decide)) cs
  have hinfinity := literal?_cons "Infinity" rfl (ne_of_isDigit hc (by decide)) cs
  rw [readValue]
  · rw [hnull, htrue, hfalse, hnan, hinfinity]
  · exact fun _ h => ne_of_isDigit hc (by decide) (List.cons.inj h).1
  · exact fun _ h => ne_of_isDigit hc (by decide) (List.cons.inj h).1
  · exact fun _ h => ne_of_isDigit hc (by decide) (List.cons.inj h).1
  · exact fun _ h => ne_of_isDigit hc (by decide) (List.cons.inj h).1

/-- So is what has a minus sign before the digit. -/
theorem readValue_signed {c : Char} (negative : Bool) (hc : c.isDigit = true) (cs : List Char) :
    readValue (fuel + 1) ((if negative then ['-'] else []) ++ c :: cs) =
      readNumber negative (c :: cs) := by
  cases negative with
  | false => exact readValue_digit hc cs
  | true =>
    have hinfinity := literal?_cons "Infinity" rfl (ne_of_isDigit hc (by decide)) cs
    show readValue (fuel + 1) ('-' :: c :: cs) = _
    rw [readValue, hinfinity]

/-- The characters of a number: a sign, a digit, and what is read with it. -/
def IsNumber (j : Json) (cs : List Char) : Prop :=
  ∃ negative c ds, cs = (if negative then ['-'] else []) ++ c :: ds ∧ c.isDigit = true ∧
    ∀ rest, Stops rest → readNumber negative (c :: ds ++ rest) = .ok (j, rest)

theorem isNumber_int {n : ℤ} (hn : IsReadable (.int n)) :
    IsNumber (.int n) (chars style depth (.int n)) := by
  have hchars : chars style depth (.int n) =
      (if decide (n < 0) then ['-'] else []) ++ Nat.toDigits 10 n.natAbs := by
    show (toString n).toList = _
    cases n with
    | ofNat n =>
      have hneg : ¬ Int.ofNat n < 0 := by simp
      simp only [decide_eq_true_eq, if_neg hneg, List.nil_append]
      exact congrArg String.toList Nat.repr_eq_ofList_toDigits |>.trans String.toList_ofList
    | negSucc n =>
      have hneg : Int.negSucc n < 0 := Int.negSucc_lt_zero n
      have hdigits : (Nat.repr (n + 1)).toList = Nat.toDigits 10 (n + 1) := by
        rw [Nat.repr_eq_ofList_toDigits, String.toList_ofList]
      simp only [decide_eq_true_eq, if_pos hneg]
      show ("-" ++ Nat.repr (n + 1)).toList = ['-'] ++ Nat.toDigits 10 (n + 1)
      rw [String.toList_append, hdigits]
      rfl
  have hshort : n.natAbs < 10 ^ maxDigits :=
    (Nat.length_toDigits_le_iff (by decide) (by decide)).1 hn
  obtain ⟨c, cs, heq, -⟩ := (isWhole_toDigits n.natAbs).head
  have hdigit : c.isDigit = true := (isWhole_toDigits n.natAbs).digits c (by rw [heq]; simp)
  refine ⟨decide (n < 0), c, cs, by rw [hchars, heq], hdigit, fun rest hrest => ?_⟩
  rw [← heq, readNumber_toDigits hshort hrest]
  congr 3
  by_cases hneg : n < 0
  · rw [if_pos (decide_eq_true hneg)]
    omega
  · rw [if_neg (by simpa using hneg)]
    omega

theorem isNumber_float {x : Float} (hx : IsReadable (.float x)) :
    IsNumber (.float x) (chars style depth (.float x)) := by
  rw [IsReadable, isFinite] at hx
  split at hx
  · rename_i negative m e hdecode
    obtain ⟨c, cs, htext, hc, hread⟩ := readNumber_text hdecode
    refine ⟨negative, c, cs, ?_, hc, hread⟩
    rw [← htext, chars, renderAt, floatText, hdecode]
  · cases hx

/-- A value starts with a character that no list and no object ends with. -/
theorem chars_head (h : style.OneLine) (depth : ℕ) {j : Json} (hj : IsReadable j) :
    ∃ c cs, chars style depth j = c :: cs ∧ isSpace c = false ∧ c ≠ ']' ∧ c ≠ '}' := by
  have hnumber {j : Json} {cs : List Char} (hcs : IsNumber j cs) :
      ∃ c ds, cs = c :: ds ∧ isSpace c = false ∧ c ≠ ']' ∧ c ≠ '}' := by
    obtain ⟨negative, c, ds, rfl, hc, -⟩ := hcs
    cases negative with
    | true => exact ⟨'-', c :: ds, rfl, by decide⟩
    | false =>
      have hspace : isSpace c = false := by
        simp [isSpace, ne_of_isDigit hc (d := ' ') (by decide),
          ne_of_isDigit hc (d := '\t') (by decide), ne_of_isDigit hc (d := '\n') (by decide),
          ne_of_isDigit hc (d := '\r') (by decide)]
      exact ⟨c, ds, rfl, hspace, ne_of_isDigit hc (by decide), ne_of_isDigit hc (by decide)⟩
  cases j with
  | null => exact ⟨'n', ['u', 'l', 'l'], chars_null, by decide⟩
  | bool b =>
    cases b with
    | true => exact ⟨'t', ['r', 'u', 'e'], chars_true, by decide⟩
    | false => exact ⟨'f', ['a', 'l', 's', 'e'], chars_false, by decide⟩
  | int n => exact hnumber (isNumber_int hj)
  | float x => exact hnumber (isNumber_float hj)
  | text s => exact ⟨'"', _, chars_text s, by decide⟩
  | list items => exact ⟨'[', _, chars_list h items, by decide⟩
  | object ms => exact ⟨'\x7b', _, chars_object h ms, by decide⟩

/-! ## Reading -/

theorem stops_cons {c : Char} (hc : c.isDigit = false ∧ c ≠ '.' ∧ c ≠ 'e' ∧ c ≠ 'E')
    (cs : List Char) : Stops (c :: cs) := by
  intro d hd
  obtain rfl : c = d := Option.some.inj hd
  exact hc

theorem readValue_number {j : Json} {cs : List Char} (h : IsNumber j cs) (hrest : Stops rest) :
    readValue (fuel + 1) (cs ++ rest) = .ok (j, rest) := by
  obtain ⟨negative, c, ds, rfl, hc, hread⟩ := h
  rw [List.append_assoc, List.cons_append, readValue_signed negative hc]
  exact hread rest hrest

/-- What is read back with some fuel: a value, items up to the end of their list, and members
up to the end of their object. -/
structure Rereads (style : Style) (fuel : ℕ) : Prop where
  value : ∀ {j depth rest}, IsReadable j → Stops rest → 2 * (chars style depth j).length < fuel →
    readValue fuel (chars style depth j ++ rest) = .ok (j, rest)
  items : ∀ {j js depth rest}, AreReadable (j :: js) →
    2 * (itemChars style depth (j :: js)).length + 1 < fuel →
      readItems fuel (itemChars style depth (j :: js) ++ ']' :: rest) = .ok (j :: js, rest)
  members : ∀ {m ms depth rest}, MembersReadable (m :: ms) →
    2 * (membersChars style depth (m :: ms)).length + 1 < fuel →
      readMembers fuel (membersChars style depth (m :: ms) ++ '\x7d' :: rest) = .ok (m :: ms, rest)

/-- Members with no key twice are as they are. -/
theorem dedup_eq {ms : Members} (h : (ms.map Prod.fst).Nodup) : Members.dedup ms = ms := by
  have hput (acc : Members) (k : String) (v : Json) (hk : k ∉ acc.map Prod.fst) :
      Members.put acc k v = acc ++ [(k, v)] := by
    induction acc with
    | nil => rfl
    | cons m acc ih =>
      obtain ⟨k', v'⟩ := m
      simp only [List.map_cons, List.mem_cons, not_or] at hk
      have hne : (k' == k) = false := by simpa using fun h : k' = k => hk.1 h.symm
      rw [Members.put, hne]
      simp [ih hk.2]
  have hfold (acc : Members) (hall : ((acc ++ ms).map Prod.fst).Nodup) :
      ms.foldl (fun acc (k, v) => Members.put acc k v) acc = acc ++ ms := by
    clear h
    induction ms generalizing acc with
    | nil => simp
    | cons m ms ih =>
      obtain ⟨k, v⟩ := m
      have hk : k ∉ acc.map Prod.fst := by
        rw [List.map_append, List.map_cons, List.nodup_append] at hall
        exact fun hmem => hall.2.2 k hmem k List.mem_cons_self rfl
      rw [List.foldl_cons]
      dsimp only
      rw [hput acc k v hk, ih (acc ++ [(k, v)]) (by simpa using hall)]
      simp
  exact hfold [] (by simpa using h)

theorem itemChars_head (h : style.OneLine) (depth : ℕ) {j : Json} {js : List Json}
    (hj : AreReadable (j :: js)) :
    ∃ c cs, itemChars style depth (j :: js) = c :: cs ∧ isSpace c = false ∧ c ≠ ']' ∧
      c ≠ '\x7d' := by
  rw [AreReadable] at hj
  obtain ⟨c, cs, heq, hc⟩ := chars_head h depth hj.1
  cases js with
  | nil => exact ⟨c, cs, by rw [itemChars_singleton, heq], hc⟩
  | cons k js =>
    refine ⟨c, cs ++ style.item.toList ++ itemChars style depth (k :: js), ?_, hc⟩
    rw [itemChars_cons, heq]
    rfl

theorem memberChars_eq (m : String × Json) : memberChars style depth m =
    '"' :: (m.1.toList.flatMap (escaped style.ascii) ++
      '"' :: (style.key.toList ++ chars style depth m.2)) := by
  rw [memberChars, toList_quotedText]
  simp

theorem membersChars_head (style : Style) (depth : ℕ) (m : String × Json)
    (ms : List (String × Json)) :
    ∃ cs, membersChars style depth (m :: ms) = '"' :: cs := by
  cases ms with
  | nil => exact ⟨_, by rw [membersChars_singleton, memberChars_eq]⟩
  | cons m' ms =>
    rw [membersChars_cons, memberChars_eq, List.cons_append, List.cons_append]
    exact ⟨_, rfl⟩

theorem Rereads.zero : Rereads style 0 :=
  ⟨fun _ _ h => absurd h (Nat.not_lt_zero _), fun _ h => absurd h (Nat.not_lt_zero _),
    fun _ h => absurd h (Nat.not_lt_zero _)⟩

theorem Rereads.succ_value (h : style.OneLine) (ih : Rereads style fuel) {j : Json}
    (hj : IsReadable j)
    (hrest : Stops rest) (hfuel : 2 * (chars style depth j).length < fuel + 1) :
    readValue (fuel + 1) (chars style depth j ++ rest) = .ok (j, rest) := by
  cases j with
  | null =>
    rw [chars_null]
    rfl
  | bool b =>
    cases b with
    | true =>
      rw [chars_true]
      rfl
    | false =>
      rw [chars_false]
      rfl
  | int n => exact readValue_number (isNumber_int hj) hrest
  | float x => exact readValue_number (isNumber_float hj) hrest
  | text s =>
    rw [chars_text, List.cons_append, List.append_assoc, List.singleton_append, readValue,
      readText_quoted]
  | list items =>
    rw [chars_list h] at hfuel ⊢
    rw [List.cons_append, List.append_assoc, List.singleton_append]
    cases items with
    | nil => rfl
    | cons j js =>
      rw [IsReadable] at hj
      obtain ⟨c, cs, hhead, hspace, hclose, -⟩ := itemChars_head h (depth + 1) hj
      have hread : readItems fuel (itemChars style (depth + 1) (j :: js) ++ ']' :: rest) =
          .ok (j :: js, rest) := by
        refine ih.items hj ?_
        simp only [List.length_cons, List.length_append] at hfuel
        omega
      rw [hhead, List.cons_append] at hread ⊢
      rw [readValue, skip_cons hspace]
      split
      · rename_i heq
        exact absurd (List.cons.inj heq).1 hclose
      · rw [hread]
        rfl
  | object ms =>
    rw [chars_object h] at hfuel ⊢
    rw [List.cons_append, List.append_assoc, List.singleton_append]
    cases ms with
    | nil => rfl
    | cons m ms =>
      rw [IsReadable] at hj
      obtain ⟨cs, hhead⟩ := membersChars_head style (depth + 1) m ms
      have hread : readMembers fuel (membersChars style (depth + 1) (m :: ms) ++ '\x7d' :: rest) =
          .ok (m :: ms, rest) := by
        refine ih.members hj.2 ?_
        simp only [List.length_cons, List.length_append] at hfuel
        omega
      rw [hhead, List.cons_append] at hread ⊢
      rw [readValue, skip_cons (by decide)]
      split
      · rename_i heq
        exact absurd (List.cons.inj heq).1 (by decide)
      · rw [hread]
        show Except.ok (Json.object (Members.dedup (m :: ms)), rest) = _
        rw [dedup_eq hj.1]

theorem Rereads.succ_items (h : style.OneLine) (ih : Rereads style fuel) {j : Json} {js : List Json}
    (hj : AreReadable (j :: js))
    (hfuel : 2 * (itemChars style depth (j :: js)).length + 1 < fuel + 1) :
    readItems (fuel + 1) (itemChars style depth (j :: js) ++ ']' :: rest) =
      .ok (j :: js, rest) := by
  rw [AreReadable] at hj
  cases js with
  | nil =>
    rw [itemChars_singleton] at hfuel ⊢
    rw [readItems, ih.value hj.1 (stops_cons (by decide) _) (by omega)]
    rfl
  | cons k js =>
    obtain ⟨blanks, hitem, hblanks⟩ := h.item
    rw [itemChars_cons, hitem] at hfuel ⊢
    simp only [List.length_cons, List.length_append] at hfuel
    obtain ⟨c, cs, hhead, hspace, -⟩ := itemChars_head h depth hj.2
    have hread : readItems fuel (itemChars style depth (k :: js) ++ ']' :: rest) =
        .ok (k :: js, rest) := ih.items hj.2 (by omega)
    have hskip : skip (blanks ++ (itemChars style depth (k :: js) ++ ']' :: rest)) =
        itemChars style depth (k :: js) ++ ']' :: rest := by
      rw [skip_append hblanks, hhead, List.cons_append, skip_cons hspace]
    rw [List.append_assoc, List.append_assoc, List.cons_append, readItems,
      ih.value hj.1 (stops_cons (by decide) _) (by omega)]
    rw [← hskip] at hread
    exact congrArg (· >>= fun r => .ok (j :: r.1, r.2)) hread

/-- What is read of an object once a member of it is read, from what follows that on. -/
def afterMember (fuel : ℕ) (m : String × Json) :
    List Char → Except ReadError (List (String × Json) × List Char)
  | '\x7d' :: rest => .ok ([m], rest)
  | ',' :: rest => do
    let (ms, rest) ← readMembers fuel (skip rest)
    .ok (m :: ms, rest)
  | _ => .error .malformed

theorem Rereads.succ_members (h : style.OneLine) (ih : Rereads style fuel) {m : String × Json}
    {ms : List (String × Json)} (hm : MembersReadable (m :: ms))
    (hfuel : 2 * (membersChars style depth (m :: ms)).length + 1 < fuel + 1) :
    readMembers (fuel + 1) (membersChars style depth (m :: ms) ++ '\x7d' :: rest) =
      .ok (m :: ms, rest) := by
  obtain ⟨key, j⟩ := m
  rw [MembersReadable] at hm
  obtain ⟨blanks, hkey, hblanks⟩ := h.key
  obtain ⟨c, cs, hhead, hspace, -⟩ := chars_head h depth hm.1
  -- a key, a colon, a value, and then what follows
  have hmember (more : List Char) (hmore : Stops more)
      (hlength : 2 * (chars style depth j).length < fuel) :
      readMembers (fuel + 1) (memberChars style depth (key, j) ++ more) =
        afterMember fuel (key, j) (skip more) := by
    have hskip : skip (blanks ++ (chars style depth j ++ more)) = chars style depth j ++ more := by
      rw [skip_append hblanks, hhead, List.cons_append, skip_cons hspace]
    have hread : readValue fuel (chars style depth j ++ more) = .ok (j, more) :=
      ih.value hm.1 hmore hlength
    rw [memberChars_eq, hkey]
    simp only [List.cons_append, List.append_assoc]
    rw [readMembers, readText_quoted]
    simp only [skip_cons (show isSpace ':' = false by decide), hskip, hread]
    rfl
  cases ms with
  | nil =>
    rw [membersChars_singleton] at hfuel ⊢
    have hlength : (chars style depth j).length < (memberChars style depth (key, j)).length := by
      rw [memberChars, hkey]
      simp only [List.length_append, List.length_cons]
      omega
    rw [hmember _ (stops_cons (by decide) _) (by omega)]
    rfl
  | cons m ms =>
    obtain ⟨blanks, hitem, hblanks⟩ := h.item
    obtain ⟨tail, hnext⟩ := membersChars_head style depth m ms
    have hlength : (chars style depth j).length < (memberChars style depth (key, j)).length := by
      rw [memberChars, hkey]
      simp only [List.length_append, List.length_cons]
      omega
    rw [membersChars_cons, hitem] at hfuel ⊢
    simp only [List.length_cons, List.length_append] at hfuel
    have hread : readMembers fuel (membersChars style depth (m :: ms) ++ '\x7d' :: rest) =
        .ok (m :: ms, rest) := ih.members hm.2 (by omega)
    have hskip : skip (blanks ++ (membersChars style depth (m :: ms) ++ '\x7d' :: rest)) =
        membersChars style depth (m :: ms) ++ '\x7d' :: rest := by
      rw [skip_append hblanks, hnext, List.cons_append, skip_cons (by decide)]
    rw [List.append_assoc, List.append_assoc, List.cons_append,
      hmember _ (stops_cons (by decide) _) (by omega), skip_cons (by decide)]
    rw [← hskip] at hread
    exact congrArg (· >>= fun r => .ok ((key, j) :: r.1, r.2)) hread

/-- **What is written is read back**, whatever the fuel suffices for. -/
theorem rereads (h : style.OneLine) (fuel : ℕ) : Rereads style fuel := by
  induction fuel with
  | zero => exact .zero
  | succ fuel ih => exact ⟨ih.succ_value h, ih.succ_items h, ih.succ_members h⟩

/-- **A value is read back from its text on one line.** -/
theorem parse_render (h : style.OneLine) {j : Json} (hj : IsReadable j) :
    parse (render style j) = .ok j := by
  have hread : readValue (2 * (chars style 0 j).length + 2) (chars style 0 j ++ []) = .ok (j, []) :=
    (rereads h _).value hj (fun c hc => by cases hc) (by omega)
  obtain ⟨c, cs, hhead, hspace, -⟩ := chars_head h 0 hj
  rw [List.append_nil] at hread
  unfold parse
  have hchars : (render style j).toList = chars style 0 j := rfl
  have hskip : skip (chars style 0 j) = chars style 0 j := by
    rw [hhead, skip_cons hspace]
  simp only [hchars, hskip, hread]
  rfl

/-! ## What cannot be read -/

/-- **A record with too long a number in it cannot be read.** -/
theorem parse_long {w : List Char} (hw : IsWhole w) (hlong : maxDigits < w.length) :
    parse (String.ofList ("\x7b\"n\": ".toList ++ w ++ ['\x7d'])) =
      .error (.tooManyDigits w.length) := by
  obtain ⟨c, cs, rfl, -⟩ := hw.head
  have hc : c.isDigit = true := hw.digits c List.mem_cons_self
  have hspace : isSpace c = false := by
    have hne {d : Char} (hd : d.isDigit = false) : (c == d) = false :=
      beq_eq_false_iff_ne.2 (ne_of_isDigit hc hd)
    rw [isSpace, hne (by decide), hne (by decide), hne (by decide), hne (by decide)]
    rfl
  set number : List Char := c :: (cs ++ ['\x7d']) with hnumber
  have hskip : skip (' ' :: number) = number := skip_cons hspace _
  have hvalue (fuel : Nat) :
      readValue (fuel + 1) (skip (' ' :: number)) = .error (.tooManyDigits (c :: cs).length) := by
    rw [hskip, hnumber, readValue_digit hc]
    exact readNumber_long hw hlong (stops_cons (by decide) [])
  have hmembers (fuel : Nat) : readMembers (fuel + 2) ('"' :: 'n' :: '"' :: ':' :: ' ' :: number) =
      .error (.tooManyDigits (c :: cs).length) := by
    have hkey : readText (('n' :: '"' :: ':' :: ' ' :: number).length + 1) []
        ('n' :: '"' :: ':' :: ' ' :: number) = some ("n", ':' :: ' ' :: number) := rfl
    have hcolon : skip (':' :: ' ' :: number) = ':' :: ' ' :: number := rfl
    rw [readMembers]
    simp only [hkey, hcolon, hvalue]
    rfl
  have hobject (fuel : Nat) :
      readValue (fuel + 3) ('\x7b' :: '"' :: 'n' :: '"' :: ':' :: ' ' :: number) =
        .error (.tooManyDigits (c :: cs).length) := by
    have hmap : readValue (fuel + 3) ('\x7b' :: '"' :: 'n' :: '"' :: ':' :: ' ' :: number) =
        (readMembers (fuel + 2) ('"' :: 'n' :: '"' :: ':' :: ' ' :: number)).map
          fun (ms, rest) => (.object (Members.dedup ms), rest) := by
      rw [readValue]
      rfl
    rw [hmap, hmembers]
    rfl
  have htext : "\x7b\"n\": ".toList ++ c :: cs ++ ['\x7d'] =
      '\x7b' :: '"' :: 'n' :: '"' :: ':' :: ' ' :: number := rfl
  have hfront : skip ('\x7b' :: '"' :: 'n' :: '"' :: ':' :: ' ' :: number) =
      '\x7b' :: '"' :: 'n' :: '"' :: ':' :: ' ' :: number := rfl
  rw [parse, String.toList_ofList, htext]
  simp only [hfront, List.length_cons, Nat.mul_add, hobject]

end RepairLoop.Json
