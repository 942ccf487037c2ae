import Mathlib.Data.List.Induction
import RepairLoop.Proofs.Time.Written
/-!
# Reread — moments are read back from their texts

A moment in universal time is read back from its text (`Iso.read_isoText`). A moment with
any offset of whole minutes, or with none, is read back from the text in which records
carry it (`Moment.ofText?_wireText`).
-/

namespace RepairLoop

open Text Moment

variable {m : Moment} {r : Int} {n : Nat} {rest : List Char}

/-! ## Numbers at the start of a text -/

theorem Iso.digits?_append {ds : List Char} (hds : ∀ c ∈ ds, c.isDigit = true) (rest : List Char) :
    Iso.digits? ds.length (ds ++ rest) = some (Nat.ofDigitChars 10 ds 0, rest) := by
  induction ds using List.reverseRecOn generalizing rest with
  | nil => rfl
  | append_singleton ds c ih =>
    have hc : c.isDigit = true := hds c (by simp)
    rw [List.length_append, List.append_assoc]
    show Iso.digits? (ds.length + 1) _ = _
    rw [Iso.digits?, ih fun d hd => hds d (by simp [hd])]
    simp [hc, Nat.ofDigitChars_append, Nat.ofDigitChars_cons]

theorem Iso.digits?_pair {n : Nat} (hn : n < 100) (rest : List Char) :
    Iso.digits? 2 (pair n ++ rest) = some (n, rest) := by
  have h := Iso.digits?_append (fun c => isDigit_of_mem_pair hn (c := c)) rest
  rwa [ofDigitChars_pair hn] at h

theorem Iso.digits?_padded {w n : Nat} (hn : n < 10 ^ (w + 1)) (rest : List Char) :
    Iso.digits? (w + 1) (padded (w + 1) n ++ rest) = some (n, rest) := by
  have hdigits : ∀ c ∈ padded (w + 1) n, c.isDigit = true := fun c hc => isDigit_of_mem_padded hc
  have h := Iso.digits?_append hdigits rest
  rwa [ofDigitChars_padded, length_padded hn] at h

theorem twoDigits?_pair {n : Nat} (hn : n < 100) (rest : List Char) :
    twoDigits? (pair n ++ rest) = some (n, rest) := by
  have htens : n / 10 < 10 := by omega
  have hones : n % 10 < 10 := by omega
  have hsum : n / 10 * 10 + n % 10 = n := by omega
  show twoDigits? (Nat.digitChar (n / 10) :: Nat.digitChar (n % 10) :: rest) = _
  simp [twoDigits?, digit?, isDigit_digitChar htens, isDigit_digitChar hones,
    Nat.toNat_digitChar_of_lt_ten htens, Nat.toNat_digitChar_of_lt_ten hones, hsum]

/-! ## The text of a moment in universal time -/

namespace Iso

variable {s f : Nat}

theorem dateLength_chars {e : Date} (he : e.isValid = true) (rest : List Char) :
    dateLength (e.chars ++ rest) = 10 := by
  obtain ⟨⟨-, hy⟩, ⟨-, hm⟩, -, hd⟩ := Date.isValid_iff.1 he
  have hd31 := Date.monthLength_le e.year e.month
  have hmonth : Nat.digitChar (e.month / 10) ≠ 'W' := digitChar_ne (by omega) (by decide)
  rw [Date.chars, padded_four (by omega), padded_two (by omega), padded_two (by omega)]
  simp [dateLength, pair, hmonth]

theorem date?_chars {e : Date} (he : e.isValid = true) (rest : List Char) :
    date? (e.chars ++ rest) 10 = some e := by
  obtain ⟨⟨-, hy⟩, ⟨-, hm⟩, -, hd⟩ := Date.isValid_iff.1 he
  have hd31 := Date.monthLength_le e.year e.month
  have hmonth : Nat.digitChar (e.month / 10) ≠ 'W' := digitChar_ne (by omega) (by decide)
  have hyear := digits?_padded (w := 3) (n := e.year) (by omega)
    ('-' :: (padded 2 e.month ++ '-' :: (padded 2 e.day ++ rest)))
  have hmo := digits?_pair (n := e.month) (by omega) ('-' :: (padded 2 e.day ++ rest))
  have hda := digits?_pair (n := e.day) (by omega) rest
  rw [← padded_two (by omega)] at hda
  simp only [Date.chars, List.append_assoc, List.cons_append, date?, hyear]
  rw [padded_two (by omega : e.month < 100)]
  simp only [pair, List.cons_append, List.nil_append] at hmo ⊢
  simp [hmonth, hmo, hda]

/-- The hour, the minute and the second are read in turn. -/
theorem clockFrom?_pair {left : Nat} {c : Clock} {more : Bool} (hn : n < 100) (hrest : rest ≠ []) :
    clockFrom? more (left + 1) true c (padded 2 n ++ ':' :: rest) =
      clockFrom? more left true (c.put (2 - left) n) rest := by
  rw [padded_two hn, clockFrom?, digits?_pair hn]
  simp [hrest]

/-- The last number of a time stands alone or before a fraction. -/
theorem clockFrom?_last {c : Clock} {more : Bool} (hn : n < 100) (hf : f < 1000000)
    (hc : c.micros = 0) :
    clockFrom? more 1 true c (padded 2 n ++ fractionChars f) =
      some ({ c.put 2 n with micros := f }, more) := by
  rw [padded_two hn, clockFrom?, digits?_pair hn, fractionChars]
  split
  · rename_i hzero
    subst hzero
    cases c
    cases hc
    rfl
  · have hlength : (padded 6 f).length = 6 := length_padded hf
    have hread := digits?_padded (w := 5) hf []
    rw [List.append_nil] at hread
    have hne : padded 6 f ≠ [] := by
      intro hnil
      rw [hnil] at hlength
      cases hlength
    simp [hne, fraction?, hlength, hread, Number.tenTo]

theorem clock?_chars {more : Bool} (hs : s < 86400) (hf : f < 1000000) :
    clock? (clockChars s f) more = some (⟨s / 3600, s / 60 % 60, s % 60, f⟩, more) := by
  have hlast : padded 2 (s % 60) ++ fractionChars f ≠ [] := by simp [padded_ne_nil]
  rw [clock?, clockChars, clockFrom?_pair (by omega) (by simp), clockFrom?_pair (by omega) hlast,
    clockFrom?_last (by omega) hf rfl]
  rfl

/-- No character of a time of day starts an offset. -/
theorem clockChars_noZone {c : Char} (hc : c ∈ clockChars s f) :
    (c == '+' || c == '-' || c == 'Z') = false := by
  have hdigit : c.isDigit = true ∨ c = ':' ∨ c = '.' := by
    unfold clockChars fractionChars at hc
    split at hc
    all_goals
      simp only [List.mem_append, List.mem_cons, List.append_nil] at hc
      grind [isDigit_of_mem_padded]
  rcases hdigit with hdigit | rfl | rfl
  · have hne (z : Char) (hz : z.isDigit = false) : c ≠ z := by
      rintro rfl
      rw [hdigit] at hz
      cases hz
    simp [hne '+' (by decide), hne '-' (by decide), hne 'Z' (by decide)]
  · decide
  · decide

theorem time?_chars (hs : s < 86400) (hf : f < 1000000) :
    time? (clockChars s f ++ "+00:00".toList) =
      some (⟨s / 3600, s / 60 % 60, s % 60, f⟩, some 0) := by
  have hzone : ∀ c ∈ clockChars s f, (!(c == '+' || c == '-' || c == 'Z')) = true := by
    intro c hc
    rw [clockChars_noZone hc]
    rfl
  unfold time?
  simp only [List.takeWhile_append_of_pos hzone, List.dropWhile_append_of_pos hzone]
  have hhead : clockChars s f ++ List.takeWhile (fun c => !(c == '+' || c == '-' || c == 'Z'))
      "+00:00".toList = clockChars s f := by
    rw [show List.takeWhile _ "+00:00".toList = [] by decide, List.append_nil]
  have htail : List.dropWhile (fun c => !(c == '+' || c == '-' || c == 'Z')) "+00:00".toList =
      '+' :: "00:00".toList := by decide
  have hoffset : clock? ['0', '0', ':', '0', '0'] false = some (⟨0, 0, 0, 0⟩, false) := by decide
  rw [hhead, htail]
  simp [clock?_chars hs hf, hoffset]

/-- The moment of a day of the calendar and a time of day. -/
theorem checked_valid {e : Date} {o : Option Int} (he : e.isValid = true) (hs : s < 86400) :
    checked e ⟨s / 3600, s / 60 % 60, s % 60, f⟩ o = .ok (ofDate e s f o) := by
  obtain ⟨⟨hy, hy'⟩, ⟨hm, hm'⟩, hd, hd'⟩ := Date.isValid_iff.1 he
  have hsum : 3600 * (s / 3600) + 60 * (s / 60 % 60) + s % 60 = s := by omega
  have hhour : ¬ 23 < s / 3600 := by omega
  have hminute : ¬ 59 < s / 60 % 60 := by omega
  have hsecond : ¬ 59 < s % 60 := by omega
  unfold checked
  simp only [Bool.or_eq_true, decide_eq_true_eq]
  rw [if_neg (by omega), if_neg (by omega), if_neg (by omega), if_neg hhour, if_neg hminute,
    if_neg hsecond, hsum]

/-- **A moment in universal time is read back from its text.** -/
theorem read_isoText (hr : isRepresentable r = true) :
    read (isoText ⟨r, some 0⟩) = .ok ⟨r, some 0⟩ := by
  have hvalid := Date.ofDays_isValid (dayOf_lt hr)
  have hlength := Date.length_chars hvalid
  have hs := secondOf_lt r
  have hf := microOf_lt r
  have htext : (isoText ⟨r, some 0⟩).toList = (Date.ofDays (dayOf r)).chars ++
      'T' :: (clockChars (secondOf r) (microOf r) ++ "+00:00".toList) := by
    rw [toList_isoText, stampChars, List.append_assoc, List.cons_append]
  have hdrop : (isoText ⟨r, some 0⟩).toList.drop 10 =
      'T' :: (clockChars (secondOf r) (microOf r) ++ "+00:00".toList) := by
    rw [htext, List.drop_append_of_le_length (by omega), List.drop_of_length_le (by omega)]
    rfl
  have hmoment :
      ofDate (Date.ofDays (dayOf r)) (secondOf r) (microOf r) (some 0) = ⟨r, some 0⟩ := by
    rw [ofDate, (Date.ofDays_spec (dayOf r)).2.2.2.2.2, ← parts_eq hr]
  have hlong : ¬ (isoText ⟨r, some 0⟩).toList.length < 7 := by
    rw [htext, List.length_append]
    omega
  have hmore : ¬ ('T' :: (clockChars (secondOf r) (microOf r) ++ "+00:00".toList)).length ≤ 1 := by
    simp
  have hread := date?_chars hvalid ('T' :: (clockChars (secondOf r) (microOf r) ++ "+00:00".toList))
  have hten := dateLength_chars hvalid
    ('T' :: (clockChars (secondOf r) (microOf r) ++ "+00:00".toList))
  rw [← htext] at hread hten
  unfold read
  simp only [hten, if_neg hlong, hread, hdrop, if_neg hmore, List.drop_one, List.tail_cons,
    time?_chars hs hf]
  rw [checked_valid hvalid hs, hmoment]

end Iso

/-! ## The text in which records carry a moment -/

namespace Moment

/-- A moment that records can carry: its year has at most four digits, and its offset, if it
has one, is a number of minutes of less than a day. -/
structure IsWritten (m : Moment) : Prop where
  year : isRepresentable m.reading = true
  minutes : ∀ o, m.offset = some o → o % 60000000 = 0 ∧ o.natAbs < 86400000000

instance (m : Moment) : Decidable m.IsWritten :=
  decidable_of_iff (isRepresentable m.reading = true ∧
      ∀ o ∈ m.offset, o % 60000000 = 0 ∧ o.natAbs < 86400000000)
    ⟨fun h => ⟨h.1, h.2⟩, fun h => ⟨h.1, h.2⟩⟩

/-- The characters of an offset. -/
def offsetChars : Option Int → List Char
  | none => []
  | some o => if o = 0 then ['Z'] else (offsetText o).toList

theorem toList_wireText (m : Moment) :
    m.wireText.toList = stampChars m.reading ++ offsetChars m.offset := by
  obtain ⟨r, o⟩ := m
  cases o with
  | none =>
    simp [wireText, offsetChars, Date.toList_text, toList_clockText, stampChars, date, dayOf]
  | some o =>
    simp only [wireText, offsetChars, String.toList_append, Date.toList_text, toList_clockText,
      stampChars, date, dayOf, beq_iff_eq]
    split
    · simp
    · simp

theorem readDate?_chars {e : Date} (he : e.isValid = true) (rest : List Char) :
    readDate? (e.chars ++ rest) = some (e, rest) := by
  obtain ⟨⟨-, hy⟩, ⟨-, hm⟩, -, hd⟩ := Date.isValid_iff.1 he
  have hd31 := Date.monthLength_le e.year e.month
  have hcentury := twoDigits?_pair (n := e.year / 100) (by omega) []
  have hyear := twoDigits?_pair (n := e.year % 100) (by omega) []
  have hmonth := twoDigits?_pair (n := e.month) (by omega) ('-' :: (pair e.day ++ rest))
  have hday := twoDigits?_pair (n := e.day) (by omega) rest
  have hsum : e.year / 100 * 100 + e.year % 100 = e.year := by omega
  rw [Date.chars, padded_four (by omega), padded_two (by omega), padded_two (by omega)]
  generalize e.year / 100 = a, e.year % 100 = b at *
  simp only [pair, List.cons_append, List.nil_append] at hcentury hyear hmonth hday
  simp [pair, readDate?, hcentury, hyear, hmonth, hday, hsum, he]

theorem readMicros?_padded {f : Nat} (hf : f < 1000000)
    (hrest : ∀ c ∈ rest.head?, c.isDigit = false) :
    readMicros? (padded 6 f ++ rest) = some (f, rest) := by
  have hdigits : ∀ c ∈ padded 6 f, c.isDigit = true := fun c hc => isDigit_of_mem_padded hc
  have htake : rest.takeWhile Char.isDigit = [] := by
    cases rest with
    | nil => rfl
    | cons c rest => simp [hrest c (by simp)]
  have hdrop : rest.dropWhile Char.isDigit = rest := by
    cases rest with
    | nil => rfl
    | cons c rest => simp [hrest c (by simp)]
  have hlength : (padded 6 f).length = 6 := length_padded hf
  have hvalue : (padded 6 f).foldl (fun n c => n * 10 + (c.toNat - 48)) 0 = f := by
    have h := ofDigitChars_padded 6 f
    simp only [Nat.ofDigitChars, Nat.mul_comm 10] at h
    exact h
  unfold readMicros?
  rw [List.takeWhile_append_of_pos hdigits, List.dropWhile_append_of_pos hdigits, htake, hdrop,
    List.append_nil, if_neg (by simp [padded_ne_nil]), List.take_of_length_le (by omega)]
  simp [hlength, List.foldl_map, hvalue]

/-- The sign of an offset. -/
def signChar (o : Int) : Char := if o < 0 then '-' else '+'

/-- There is no offset, or the letter Z, or a sign with hours and minutes. -/
theorem offsetChars_cases {o : Option Int}
    (h : ∀ a, o = some a → a % 60000000 = 0 ∧ a.natAbs < 86400000000) :
    (o = none ∧ offsetChars o = []) ∨ (o = some 0 ∧ offsetChars o = ['Z']) ∨
      ∃ a, o = some a ∧ offsetChars o =
        signChar a ::
          (pair (a.natAbs / 1000000 / 3600) ++ ':' :: pair (a.natAbs / 1000000 / 60 % 60)) := by
  cases o with
  | none => exact .inl ⟨rfl, rfl⟩
  | some a =>
    obtain ⟨hminutes, hday⟩ := h a rfl
    by_cases hzero : a = 0
    · subst hzero
      exact .inr (.inl ⟨rfl, rfl⟩)
    · have hwhole : a.natAbs / 1000000 % 60 = 0 := by omega
      have hrest : a.natAbs % 1000000 = 0 := by omega
      refine .inr (.inr ⟨a, rfl, ?_⟩)
      rw [offsetChars, if_neg hzero, offsetText, ← padded_two (by omega), ← padded_two (by omega)]
      by_cases hneg : a < 0 <;> simp [hneg, hwhole, hrest, toList_paddedDigits, signChar]

theorem signChar_cases (o : Int) : signChar o = '-' ∨ signChar o = '+' := by
  unfold signChar
  split
  · exact .inl rfl
  · exact .inr rfl

theorem readClock?_chars {s f : Nat} (o : Option Int)
    (h : ∀ a, o = some a → a % 60000000 = 0 ∧ a.natAbs < 86400000000) (hs : s < 86400) (hf : f < 1000000) :
    readClock? (clockChars s f ++ offsetChars o) = some (s, f, offsetChars o) := by
  have hsum : s / 3600 * 3600 + s / 60 % 60 * 60 + s % 60 = s := by omega
  have hhour : ¬ 23 < s / 3600 := by omega
  have hminute : ¬ 59 < s / 60 % 60 := by omega
  have hsecond : ¬ 59 < s % 60 := by omega
  have hnext : ∀ c ∈ (offsetChars o).head?, c = 'Z' ∨ c = '-' ∨ c = '+' := by
    intro c hc
    rcases offsetChars_cases h with ⟨-, heq⟩ | ⟨-, heq⟩ | ⟨a, -, heq⟩
    · rw [heq] at hc
      cases hc
    · rw [heq] at hc
      exact .inl (Option.some.inj hc).symm
    · rw [heq] at hc
      obtain rfl := Option.some.inj hc
      exact .inr (signChar_cases a)
  rw [clockChars, padded_two (by omega), padded_two (by omega), padded_two (by omega), readClock?]
  simp only [List.append_assoc, List.cons_append]
  rw [twoDigits?_pair (by omega)]
  simp only [Option.bind_eq_bind, Option.bind_some]
  rw [twoDigits?_pair (by omega)]
  simp only [Option.bind_some, gt_iff_lt, hhour, hminute, decide_false, Bool.or_self,
    Bool.false_eq_true, if_false]
  rw [twoDigits?_pair (by omega)]
  simp only [Option.bind_some, hsecond, if_false, hsum]
  by_cases hzero : f = 0
  · subst hzero
    rw [fractionChars, if_pos rfl, List.nil_append]
    cases hchars : offsetChars o with
    | nil => rfl
    | cons c rest =>
      rcases hnext c (by rw [hchars]; rfl) with rfl | rfl | rfl <;> rfl
  · have hdigit : ∀ c ∈ (offsetChars o).head?, c.isDigit = false := by
      intro c hc
      rcases hnext c hc with rfl | rfl | rfl <;> decide
    rw [fractionChars, if_neg hzero, List.cons_append]
    simp [readMicros?_padded hf hdigit]

/-- An offset of whole minutes is read back. -/
theorem readOffset?_chars {o : Option Int} (h : ∀ a, o = some a → a % 60000000 = 0 ∧ a.natAbs < 86400000000) :
    readOffset? (offsetChars o) = some o := by
  rcases offsetChars_cases h with ⟨rfl, heq⟩ | ⟨rfl, heq⟩ | ⟨a, rfl, heq⟩
  · rw [heq]
    rfl
  · rw [heq]
    rfl
  · obtain ⟨hminutes, hday⟩ := h a rfl
    have hhours : a.natAbs / 1000000 / 3600 < 24 := by omega
    have hminute : ¬ 59 < a.natAbs / 1000000 / 60 % 60 := by omega
    have htotal : (a.natAbs / 1000000 / 3600 * 3600 + a.natAbs / 1000000 / 60 % 60 * 60) * 1000000 =
        a.natAbs := by omega
    generalize a.natAbs / 1000000 / 3600 = x, a.natAbs / 1000000 / 60 % 60 = y at *
    have hfirst := twoDigits?_pair (n := x) (by omega) (':' :: pair y)
    have hrest := twoDigits?_pair (n := y) (by omega) []
    simp only [pair, List.cons_append, List.nil_append] at hfirst hrest heq
    rw [heq]
    -- what is left says that the seconds are fewer than a day has and come to the offset
    by_cases hneg : a < 0
    · simp [signChar, hneg, readOffset?, hfirst, hrest, hminute, second]
      omega
    · simp [signChar, hneg, readOffset?, hfirst, hrest, hminute, second]
      omega

/-- **A moment that records can carry is read back from its text.** -/
theorem ofText?_wireText (hm : m.IsWritten) : ofText? m.wireText = some m := by
  have hvalid := Date.ofDays_isValid (dayOf_lt hm.year)
  have hmoment : ofDate (Date.ofDays (dayOf m.reading)) (secondOf m.reading) (microOf m.reading)
      m.offset = m := by
    rw [ofDate, (Date.ofDays_spec (dayOf m.reading)).2.2.2.2.2, ← parts_eq hm.year]
  have hstamp : readStamp? m.wireText.toList = some m := by
    rw [toList_wireText, stampChars, List.append_assoc, List.cons_append, readStamp?,
      readDate?_chars hvalid]
    simp [readClock?_chars m.offset hm.minutes (secondOf_lt _) (microOf_lt _),
      readOffset?_chars hm.minutes,
      hmoment]
  rw [ofText?]
  simp only [hstamp]

end Moment

end RepairLoop
