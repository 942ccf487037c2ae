import Mathlib.Algebra.Group.Nat.Defs
import Mathlib.Data.List.TakeWhile
import Mathlib.Data.Nat.Init
import RepairLoop.Text.Case
import RepairLoop.Text.Character
import RepairLoop.Text.Word
import RepairLoop.Time.Moment
/-!
# Text — digits, blanks and letters

Numbers are read back from their digits, and the digits of a fixed width are ordered as
the numbers are. A text that ends with a character that is kept has nothing to trim. Letters
agree with letters of ASCII in both cases.
-/

/-!
## Text — numbers are read back from their digits

The digits in which a number is written are decimal digits, and the number
that they write is the number (`decimalNumber?_toDigits`).
-/

namespace RepairLoop.Text

theorem decimalValue?_of_isDigit {c : Char} (hc : c.isDigit = true) :
    decimalValue? c = some (c.toNat - 48) := by
  have hlt : c.toNat < 128 := by
    have := (Char.isDigit_iff_toNat.1 hc).2
    exact Nat.lt_of_le_of_lt this (by decide)
  rw [decimalValue?, if_pos hlt, if_pos hc]

theorem isDecimalDigit_of_isDigit {c : Char} (hc : c.isDigit = true) :
    isDecimalDigit c = true := by
  rw [isDecimalDigit, decimalValue?_of_isDigit hc]
  rfl

/-- Every character of a written number is a digit. -/
theorem isDecimalDigit_of_mem_toDigits {n : Nat} {c : Char} (h : c ∈ Nat.toDigits 10 n) :
    isDecimalDigit c = true :=
  isDecimalDigit_of_isDigit (Nat.isDigit_of_mem_toDigits (by decide) (by decide) h)

theorem foldlM_decimalValue? {cs : List Char} (h : ∀ c ∈ cs, c.isDigit = true) (n : Nat) :
    cs.foldlM (fun n c => (decimalValue? c).map (10 * n + ·)) n =
      some (Nat.ofDigitChars 10 cs n) := by
  induction cs generalizing n with
  | nil => rfl
  | cons c cs ih =>
    rw [List.foldlM_cons, decimalValue?_of_isDigit (h c (by simp)), Nat.ofDigitChars_cons]
    exact ih (fun d hd => h d (by simp [hd])) _

/-- **A number is read back from its digits.** -/
theorem decimalNumber?_toDigits (n : Nat) : decimalNumber? (Nat.toDigits 10 n) = some n := by
  have hdigits : ∀ c ∈ Nat.toDigits 10 n, c.isDigit = true := fun c hc =>
    Nat.isDigit_of_mem_toDigits (by decide) (by decide) hc
  unfold decimalNumber?
  split
  · rename_i h
    exact absurd h Nat.toDigits_ne_nil
  · rw [foldlM_decimalValue? hdigits, Nat.ofDigitChars_ten_toDigits]

end RepairLoop.Text

/-!
## Text — numbers of a fixed width

A number that is filled up with zeros to a width has just so many digits, if it is small
enough, and its last digit stands behind the others (`padded_succ`). Texts that start with
numbers of one width are ordered as the numbers are (`append_lt_append`, `padded_lt`).
-/

namespace RepairLoop.Text

/-- A number with at least `width` digits. -/
def padded (width n : Nat) : List Char :=
  List.replicate (width - (Nat.toDigits 10 n).length) '0' ++ Nat.toDigits 10 n

theorem toList_paddedDigits (width n : Nat) : (paddedDigits width n).toList = padded width n := by
  simp [paddedDigits, padded]

theorem isDigit_of_mem_padded {width n : Nat} {c : Char} (h : c ∈ padded width n) :
    c.isDigit = true := by
  rcases List.mem_append.1 h with h | h
  · rw [(List.mem_replicate.1 h).2]
    decide
  · exact Nat.isDigit_of_mem_toDigits (by decide) (by decide) h

theorem padded_one {n : Nat} (hn : n < 10) : padded 1 n = [Nat.digitChar n] := by
  rw [padded, Nat.toDigits_of_lt_base hn]
  rfl

/-- The last digit stands behind the others. -/
theorem padded_succ (width n : Nat) :
    padded (width + 2) n = padded (width + 1) (n / 10) ++ [Nat.digitChar (n % 10)] := by
  rcases Nat.lt_or_ge n 10 with hlt | hge
  · rw [padded, padded, Nat.div_eq_of_lt hlt, Nat.mod_eq_of_lt hlt, Nat.toDigits_of_lt_base hlt,
      Nat.toDigits_zero]
    simp only [List.length_singleton, Nat.add_sub_cancel]
    rw [show width + 2 - 1 = width + 1 from rfl, List.replicate_succ']
  · rw [padded, padded, Nat.toDigits_of_base_le (by decide) hge]
    simp only [List.length_append, List.length_singleton, List.append_assoc]
    rw [show width + 2 - ((Nat.toDigits 10 (n / 10)).length + 1) =
      width + 1 - (Nat.toDigits 10 (n / 10)).length by omega]

theorem length_padded {width n : Nat} (hn : n < 10 ^ (width + 1)) :
    (padded (width + 1) n).length = width + 1 := by
  induction width generalizing n with
  | zero =>
    rw [padded_one (by simpa using hn)]
    rfl
  | succ width ih =>
    have hdiv : n / 10 < 10 ^ (width + 1) := by
      rw [Nat.div_lt_iff_lt_mul (by decide)]
      exact hn
    rw [padded_succ, List.length_append, ih hdiv]
    rfl

/-- The number is read back from its digits. -/
theorem ofDigitChars_padded (width n : Nat) : Nat.ofDigitChars 10 (padded width n) 0 = n := by
  rw [padded, Nat.ofDigitChars_append]
  simp

/-! ### Order -/

theorem append_lt_append {x y : List Char} (s t : List Char) (hlength : x.length = y.length)
    (h : x < y) : x ++ s < y ++ t := by
  induction x generalizing y with
  | nil =>
    obtain rfl := List.length_eq_zero_iff.1 hlength.symm
    exact absurd h (List.lt_irrefl _)
  | cons a x ih =>
    cases y with
    | nil => cases hlength
    | cons b y =>
      rw [List.cons_append, List.cons_append, List.cons_lt_cons_iff]
      rcases List.cons_lt_cons_iff.1 h with hlt | ⟨heq, hlt⟩
      · exact .inl hlt
      · exact .inr ⟨heq, ih (Nat.succ.inj hlength) hlt⟩

theorem append_lt_append_left (x : List Char) {s t : List Char} (h : s < t) : x ++ s < x ++ t := by
  induction x with
  | nil => exact h
  | cons a x ih => exact List.cons_lt_cons_iff.2 (.inr ⟨rfl, ih⟩)

theorem digitChar_lt {a b : Nat} (h : a < b) (hb : b < 10) : Nat.digitChar a < Nat.digitChar b := by
  rw [Char.lt_def, UInt32.lt_iff_toNat_lt]
  have ha := Nat.toNat_digitChar_of_lt_ten (Nat.lt_trans h hb)
  have hb := Nat.toNat_digitChar_of_lt_ten hb
  rw [Char.toNat] at ha hb
  omega

/-- **Numbers of one width are ordered as their texts are.** -/
theorem padded_lt {width a b : Nat} (h : a < b) (hb : b < 10 ^ (width + 1)) :
    padded (width + 1) a < padded (width + 1) b := by
  induction width generalizing a b with
  | zero =>
    have hb : b < 10 := by simpa using hb
    rw [padded_one (Nat.lt_trans h hb), padded_one hb, List.cons_lt_cons_iff]
    exact .inl (digitChar_lt h hb)
  | succ width ih =>
    have hdiv : b / 10 < 10 ^ (width + 1) := by
      rw [Nat.div_lt_iff_lt_mul (by decide)]
      exact hb
    rw [padded_succ, padded_succ]
    rcases Nat.lt_or_ge (a / 10) (b / 10) with hlt | hge
    · have hdiv' := Nat.lt_trans hlt hdiv
      exact append_lt_append _ _ (by rw [length_padded hdiv', length_padded hdiv]) (ih hlt hdiv)
    · -- the same digits, and then a smaller last one
      have heq : a / 10 = b / 10 := by omega
      rw [heq]
      refine append_lt_append_left _ (List.cons_lt_cons_iff.2 (.inl ?_))
      exact digitChar_lt (by omega) (Nat.mod_lt _ (by decide))

end RepairLoop.Text

/-!
## Text — trimming what has nothing to trim

A text whose last character is kept is kept whole by `dropTrailing`
(`dropTrailing_eq_self`), and what is left of a text ends with a character
that is kept (`kept_of_getLast?_dropTrailing`), so that trimming twice is
trimming once. No character is both a blank and a part of a word
(`not_isWordChar_of_isBlank`).
-/

namespace RepairLoop.Text

variable {p : Char → Bool}

theorem dropTrailing_concat {c : Char} (hc : p c = false) (cs : List Char) :
    dropTrailing p (cs ++ [c]) = cs ++ [c] := by
  induction cs with
  | nil => simp [dropTrailing, hc]
  | cons d cs ih =>
    rw [List.cons_append, dropTrailing, ih]
    split
    · rename_i h
      simp at h
    · rfl

/-- **Where the last character stays, all do.** -/
theorem dropTrailing_eq_self {cs : List Char} (h : ∀ c ∈ cs.getLast?, p c = false) :
    dropTrailing p cs = cs := by
  by_cases hne : cs = []
  · rw [hne, dropTrailing]
  · rw [← List.dropLast_concat_getLast hne]
    exact dropTrailing_concat (h _ (List.getLast?_eq_some_getLast hne)) _

/-- A text without such characters loses none. -/
theorem dropTrailing_of_none {cs : List Char} (h : ∀ c ∈ cs, p c = false) :
    dropTrailing p cs = cs :=
  dropTrailing_eq_self fun c hc => h c (List.mem_of_getLast? hc)

/-- What is left is a part in front. -/
theorem dropTrailing_front (p : Char → Bool) (cs : List Char) : dropTrailing p cs <+: cs := by
  induction cs with
  | nil => exact List.prefix_refl _
  | cons c cs ih =>
    rw [dropTrailing]
    split
    · split
      · exact List.nil_prefix
      · exact ⟨cs, rfl⟩
    · exact List.cons_prefix_cons.2 ⟨rfl, ih⟩

/-- **What is left ends with a character that is kept.** -/
theorem kept_of_getLast?_dropTrailing {cs : List Char} :
    ∀ c ∈ (dropTrailing p cs).getLast?, p c = false := by
  induction cs with
  | nil => simp [dropTrailing]
  | cons d cs ih =>
    intro c hc
    rw [dropTrailing] at hc
    split at hc
    · split at hc
      · simp at hc
      · rename_i hd
        simp only [List.getLast?_singleton, Option.mem_some_iff] at hc
        rw [← hc]
        simpa using hd
    · rename_i hne
      rw [List.getLast?_cons_of_ne_nil (fun h => hne h)] at hc
      exact ih c hc

/-- Nothing is left exactly of a text that is dropped whole. -/
theorem dropTrailing_eq_nil_iff {cs : List Char} :
    dropTrailing p cs = [] ↔ ∀ c ∈ cs, p c = true := by
  induction cs with
  | nil => simp [dropTrailing]
  | cons c cs ih =>
    rw [List.forall_mem_cons, ← ih, dropTrailing]
    split
    · rename_i hnil
      rw [hnil]
      by_cases hc : p c = true <;> simp [hc]
    · rename_i hne
      exact iff_of_false (List.cons_ne_nil _ _) fun hall => hne hall.2

/-- **A character that is no blank is not trimmed away.** -/
theorem trim_ne_nil {cs : List Char} {c : Char} (hc : c ∈ cs) (hb : isBlank c = false) :
    trim cs ≠ [] := by
  intro hnil
  have hrest : ∀ d ∈ cs.dropWhile isBlank, isBlank d = true := dropTrailing_eq_nil_iff.1 hnil
  rw [← @List.takeWhile_append_dropWhile _ isBlank cs, List.mem_append] at hc
  rcases hc with hc | hc
  · exact absurd (List.mem_takeWhile_imp hc) (by simp [hb])
  · exact absurd (hrest c hc) (by simp [hb])

theorem trim_subset (cs : List Char) : trim cs ⊆ cs := fun _ hc =>
  (List.dropWhile_sublist _).subset ((dropTrailing_front _ _).subset hc)

/-- A text that starts and ends with characters that are no blanks is left as
it is. -/
theorem trim_eq_self {cs : List Char} (hhead : ∀ c ∈ cs.head?, isBlank c = false)
    (hlast : ∀ c ∈ cs.getLast?, isBlank c = false) : trim cs = cs := by
  have hlead : dropLeading isBlank cs = cs := by
    cases cs with
    | nil => rfl
    | cons c cs => simp [dropLeading, hhead c rfl]
  rw [trim, hlead, trimRight, dropTrailing_eq_self hlast]

/-- Blanks at the end are not kept. -/
theorem trim_append_of_all (cs : List Char) {blanks : List Char} (h : blanks.all isBlank = true) :
    trim (cs ++ blanks) = trim cs := by
  have hall : ∀ c ∈ blanks, isBlank c = true := List.all_eq_true.1 h
  rw [trim, trim, trimRight, trimRight, dropLeading, dropLeading, List.dropWhile_append]
  split
  · rename_i hempty
    have hlead : cs.dropWhile isBlank = [] := List.isEmpty_iff.1 hempty
    rw [hlead, List.dropWhile_eq_nil_iff.2 hall]
  · exact dropTrailing_append_of_all _ _ _ h

/-- A text and the end of its line come to the text. -/
theorem strip_append_feed (s : String) : strip (s ++ "\n") = strip s := by
  rw [strip, strip, String.toList_append]
  exact congrArg String.ofList (trim_append_of_all _ (by decide))

/-! ## Blanks and words -/

/-- What is found in a table of ranges is one of them, and holds what was looked for. -/
theorem mem_of_rangeSearch {table : Array (Nat × Nat)} {n fuel lo hi : Nat} {r : Nat × Nat}
    (h : rangeSearch table n fuel lo hi = some r) : r ∈ table ∧ r.1 ≤ n ∧ n ≤ r.2 := by
  induction fuel generalizing lo hi with
  | zero => cases h
  | succ fuel ih =>
    rw [rangeSearch] at h
    split at h
    · simp only at h
      split at h
      · cases h
      · rename_i first last hget
        split at h
        · exact ih h
        split at h
        · exact ih h
        · obtain rfl := Option.some.inj h
          exact ⟨Array.mem_of_getElem? hget, by omega, by omega⟩
    · cases h

theorem exists_of_inRanges {table : Array (Nat × Nat)} {n : Nat} (h : inRanges table n = true) :
    ∃ r ∈ table, r.1 ≤ n ∧ n ≤ r.2 := by
  obtain ⟨r, hr⟩ := Option.isSome_iff_exists.1 h
  exact ⟨r, mem_of_rangeSearch hr⟩

/-- The code points of the blanks. -/
def blankPoints : List Nat :=
  [9, 10, 11, 12, 13, 28, 29, 30, 31, 32, 0x85, 0xa0, 0x1680, 0x2000, 0x2001, 0x2002, 0x2003,
    0x2004, 0x2005, 0x2006, 0x2007, 0x2008, 0x2009, 0x200a, 0x2028, 0x2029, 0x202f, 0x205f, 0x3000]

theorem mem_blankPoints_of_isBlank {c : Char} (h : isBlank c = true) : c.toNat ∈ blankPoints := by
  simp only [isBlank, Bool.or_eq_true, Bool.and_eq_true, beq_iff_eq, decide_eq_true_eq] at h
  simp only [blankPoints, List.mem_cons, List.not_mem_nil, or_false]
  omega

/-- The ranges of a list hold none of some code points. -/
def clears (points : List Nat) (l : List (Nat × Nat)) : Bool :=
  l.all fun r => points.all fun n => !(Nat.ble r.1 n && Nat.ble n r.2)

theorem not_between_of_clears {points : List Nat} {l : List (Nat × Nat)}
    (h : clears points l = true) {r : Nat × Nat} (hr : r ∈ l.toArray) {n : Nat} (hn : n ∈ points) :
    ¬(r.1 ≤ n ∧ n ≤ r.2) := by
  have hclear := List.all_eq_true.1 (List.all_eq_true.1 h r (List.mem_toArray.1 hr)) n hn
  rintro ⟨hfirst, hlast⟩
  simp [Nat.ble_eq_true_of_le hfirst, Nat.ble_eq_true_of_le hlast] at hclear

theorem not_between_alphanumericRanges : ∀ r ∈ alphanumericRanges, ∀ n ∈ blankPoints,
    ¬(r.1 ≤ n ∧ n ≤ r.2) := by
  intro r hr n hn
  simp only [alphanumericRanges, Array.mem_append] at hr
  rcases hr with ((((((hr | hr) | hr) | hr) | hr) | hr) | hr) | hr <;>
    exact not_between_of_clears (by decide +kernel) hr hn

theorem isAlpha_eq (c : Char) :
    c.isAlpha = (65 ≤ c.toNat && c.toNat ≤ 90 || 97 ≤ c.toNat && c.toNat ≤ 122) := by
  show (decide ('A'.val ≤ c.val ∧ c.val ≤ 'Z'.val) ||
    decide ('a'.val ≤ c.val) && decide (c.val ≤ 'z'.val)) = _
  simp [UInt32.le_iff_toNat_le]

theorem isDigit_eq (c : Char) : c.isDigit = (48 ≤ c.toNat && c.toNat ≤ 57) := by
  simp [Char.isDigit, UInt32.le_iff_toNat_le]

theorem not_isAlphanum_of_isBlank {c : Char} (h : isBlank c = true) : c.isAlphanum = false := by
  by_contra hc
  simp only [Bool.not_eq_false, Char.isAlphanum, isAlpha_eq, isDigit_eq, Bool.or_eq_true,
    Bool.and_eq_true, decide_eq_true_eq] at hc
  simp only [isBlank, Bool.or_eq_true, Bool.and_eq_true, beq_iff_eq, decide_eq_true_eq] at h
  omega

/-- **No word has a blank in it.** -/
theorem not_isWordChar_of_isBlank {c : Char} (h : isBlank c = true) : isWordChar c = false := by
  have hunder : c ≠ '_' := by
    rintro rfl
    cases h
  rw [isWordChar, beq_eq_false_iff_ne.2 hunder, Bool.false_or, isAlphanumeric]
  split
  · exact not_isAlphanum_of_isBlank h
  · by_contra hrange
    obtain ⟨r, hr, hbetween⟩ := exists_of_inRanges (Bool.not_eq_false _ ▸ hrange)
    exact not_between_alphanumericRanges r hr _ (mem_blankPoints_of_isBlank h) hbetween

end RepairLoop.Text

/-!
## Text — letters in either case

The lower case form of a character beyond ASCII lies beyond ASCII as well, but for the dotted
capital I and the sign of the kelvin (`lowerForm_ascii`). So a character of ASCII other than i, k
and s agrees with itself and its capital alone (`sameLetter_iff`).
-/

namespace RepairLoop.Text

/-- Only the capitals of ASCII have another small form. -/
theorem toLower_cases (c : Char) :
    c.toLower = c ∨ (65 ≤ c.toNat ∧ c.toNat ≤ 90 ∧ c.toLower.toNat = c.toNat + 32) := by
  unfold Char.toLower
  split
  · rename_i h
    have hfirst : 65 ≤ c.toNat := h.1
    have hlast : c.val.toNat ≤ 90 := h.2
    refine .inr ⟨hfirst, hlast, ?_⟩
    show (c.val + 32).toNat = c.val.toNat + 32
    rw [UInt32.toNat_add]
    show (c.val.toNat + 32) % 4294967296 = _
    omega
  · exact .inl rfl

/-- A character that is no letter is the small form of itself alone. -/
theorem eq_of_toLower {c d : Char} (hc : c.isAlpha = false) (h : d.toLower = c.toLower) :
    d = c := by
  have hcode := congrArg Char.toNat h
  simp only [isAlpha_eq, Bool.or_eq_false_iff, Bool.and_eq_false_iff, decide_eq_false_iff_not] at hc
  rcases toLower_cases c with hself | hcapital
  · rcases toLower_cases d with hself' | hcapital'
    · rw [← hself, ← h, hself']
    · rw [hself] at hcode
      omega
  · omega

/-- The search yields what is searched, or a form that one of the runs tells. -/
theorem searchRuns_cases (runs : Array (Nat × Nat × Nat × Nat)) (n fuel lo hi : Nat) :
    searchRuns runs n fuel lo hi = n ∨ ∃ run ∈ runs.toList, run.1 ≤ n ∧ n ≤ run.2.1 ∧
      searchRuns runs n fuel lo hi = run.2.2.2 + (n - run.1) := by
  induction fuel generalizing lo hi with
  | zero => exact .inl rfl
  | succ fuel ih =>
    simp only [searchRuns]
    split
    · split
      · exact .inl rfl
      · rename_i first last step lower hrun
        have hmem := Array.mem_toList_iff.2 (Array.mem_of_getElem? hrun)
        split
        · exact ih _ _
        · split
          · exact ih _ _
          · split
            · exact .inr ⟨_, hmem, by simp only; omega, by simp only; omega, rfl⟩
            · exact .inl rfl
    · exact .inl rfl

/-- No run leads to ASCII from beyond, except to the letters i and k. -/
theorem lowerRuns_ascii : ∀ run ∈ lowerRuns.toList,
    run.2.1 < 128 ∨ 128 ≤ run.2.2.2 ∨ (run.1 = run.2.1 ∧ run.2.2.2 ∈ [105, 107]) := by
  decide +kernel

theorem lowerForm_ascii {n : Nat} (hn : 128 ≤ n) (h : lowerForm n < 128) :
    lowerForm n ∈ [105, 107] := by
  rcases searchRuns_cases lowerRuns n (lowerRuns.size + 1) 0 lowerRuns.size with
    hsame | ⟨run, hrun, hfirst, hlast, hform⟩
  · have hsame : lowerForm n = n := hsame
    omega
  · have hform : lowerForm n = run.2.2.2 + (n - run.1) := hform
    rcases lowerRuns_ascii run hrun with hfar | hfar | ⟨hone, hletter⟩
    · omega
    · omega
    · rw [hform, show n - run.1 = 0 by omega]
      exact hletter

/-- The character of a number, if it is not the null character, has that number. -/
theorem toNat_eq_of_ofNat {n : Nat} {x : Char} (hx : 0 < x.toNat) (h : Char.ofNat n = x) :
    n = x.toNat := by
  by_cases hvalid : n.isValidChar
  · rw [Char.ofNat, dif_pos hvalid] at h
    subst h
    rfl
  · rw [Char.ofNat, dif_neg hvalid] at h
    subst h
    exact absurd hx (by decide)

/-- A character of ASCII, no capital, that no character beyond ASCII agrees with. -/
structure IsPlain (x : Char) : Prop where
  visible : 0 < x.toNat
  ascii : x.toNat < 128
  small : x.toLower = x
  single : x ∉ ['i', 'k', 's']

instance : DecidablePred IsPlain := fun x =>
  decidable_of_iff (0 < x.toNat ∧ x.toNat < 128 ∧ x.toLower = x ∧ x ∉ ['i', 'k', 's'])
    ⟨fun h => ⟨h.1, h.2.1, h.2.2.1, h.2.2.2⟩, fun h => ⟨h.visible, h.ascii, h.small, h.single⟩⟩

theorem IsPlain.toNat_ne {x d : Char} (hx : IsPlain x) (hd : d ∈ ['i', 'k', 's']) :
    x.toNat ≠ d.toNat := fun he => hx.single (Char.toNat_inj.1 he ▸ hd)

theorem IsPlain.siblings {x : Char} (hx : IsPlain x) : caseSiblings x.toNat = [] := by
  have hnone : ∀ n < 128, n ≠ 105 → n ≠ 115 → caseSiblings n = [] := by decide
  exact hnone x.toNat hx.ascii (hx.toNat_ne (d := 'i') (by simp)) (hx.toNat_ne (d := 's') (by simp))

/-- **A plain character agrees with itself and its capital alone.** -/
theorem sameLetter_iff {x c : Char} (hx : IsPlain x) : sameLetter x c = true ↔ c.toLower = x := by
  have hlower : lowerChar x = x := by rw [lowerChar, if_pos hx.ascii, hx.small]
  have hsame : sameLetter x c = true ↔ x = lowerChar c := by
    simp only [sameLetter, hlower, hx.siblings, List.contains_nil, Bool.or_false, beq_iff_eq]
  rw [hsame, lowerChar]
  split
  · exact eq_comm
  · rename_i hfar
    have hself : c.toLower = c := (toLower_cases c).resolve_right (by omega)
    have hascii := hx.ascii
    refine iff_of_false (fun h => ?_) fun h => ?_
    · -- the form would be i or k
      have hcode : lowerForm c.toNat = x.toNat := toNat_eq_of_ofNat hx.visible h.symm
      have hletter : x.toNat ∈ [105, 107] := hcode ▸ lowerForm_ascii (by omega) (by omega)
      rcases List.mem_cons.1 hletter with he | he
      · exact hx.toNat_ne (d := 'i') (by simp) he
      · exact hx.toNat_ne (d := 'k') (by simp) (List.mem_singleton.1 he)
    · rw [hself] at h
      rw [h] at hfar
      exact hfar hascii

end RepairLoop.Text
