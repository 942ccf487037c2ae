import Mathlib.Data.Nat.Init
import Mathlib.Data.String.Basic
import Mathlib.Tactic.ByContra
import RepairLoop.Proofs.Text.Character
import RepairLoop.Time.Iso
import RepairLoop.Time.Moment
/-!
# Written — the texts of moments are ordered as the moments are

Of two moments in universal time the earlier one has the smaller text
(`Moment.isoText_lt`): the date, the hour, the minute and the second have fixed widths,
and a fraction starts with a point, which stands behind the sign of the offset that
follows where there is no fraction.
-/

/-!
## Calendar — days are counted to dates and back

Taking years and then months off a count of days comes to a date of the calendar that has
just so many days before it (`Date.ofDays_spec`). Of two counts the smaller one comes to
the earlier date, by year, month and day (`Date.ofDays_lt`).
-/

namespace RepairLoop

theorem le_yearLength (y : Nat) : 365 ≤ yearLength y := by
  unfold yearLength
  split <;> decide

namespace Date

/-- One if a year is a multiple, and zero otherwise. -/
def met (y k : Nat) : Nat := if y % k = 0 then 1 else 0

theorem succ_div_eq (p k : Nat) : (p + 1) / k = p / k + met (p + 1) k := by
  rw [Nat.succ_div, met]
  simp only [Nat.dvd_iff_mod_eq_zero]

theorem yearLength_eq (y : Nat) : yearLength y = 365 + met y 4 - met y 100 + met y 400 := by
  have hcentury : y % 100 = 0 → y % 4 = 0 := by omega
  have hcycle : y % 400 = 0 → y % 100 = 0 := by omega
  unfold yearLength isLeapYear met
  by_cases h4 : y % 4 = 0
  · by_cases h100 : y % 100 = 0
    · by_cases h400 : y % 400 = 0 <;> simp [h4, h100, h400]
    · simp [h4, h100, mt hcycle h100]
  · simp [h4, mt hcentury h4, mt hcycle (mt hcentury h4)]

/-- A year has the days that stand between its start and that of the next one. -/
theorem daysBeforeYear_succ {y : Nat} (hy : 1 ≤ y) :
    daysBeforeYear (y + 1) = daysBeforeYear y + yearLength y := by
  obtain ⟨p, rfl⟩ := Nat.exists_eq_add_of_le' hy
  have hle : p / 100 ≤ p / 4 := Nat.div_le_div_left (by decide) (by decide)
  have hmet : met (p + 1) 100 ≤ met (p + 1) 4 := by
    have hcentury : (p + 1) % 100 = 0 → (p + 1) % 4 = 0 := by omega
    unfold met
    split
    · have hfourth : (if (p + 1) % 4 = 0 then 1 else 0) = 1 := if_pos (hcentury ‹_›)
      omega
    · exact Nat.zero_le _
  rw [yearLength_eq]
  simp only [daysBeforeYear, Nat.add_sub_cancel, succ_div_eq p]
  omega

theorem daysBeforeYear_le {y z : Nat} (hy : 1 ≤ y) (hlt : y < z) :
    daysBeforeYear y + yearLength y ≤ daysBeforeYear z := by
  induction z, hlt using Nat.le_induction with
  | base => exact Nat.le_of_eq (daysBeforeYear_succ hy).symm
  | succ z hz ih =>
    rw [daysBeforeYear_succ (by omega)]
    omega

theorem daysBeforeMonth_succ {y m : Nat} (hm : 1 ≤ m) :
    daysBeforeMonth y (m + 1) = daysBeforeMonth y m + monthLength y m := by
  obtain ⟨p, rfl⟩ := Nat.exists_eq_add_of_le' hm
  rfl

theorem daysBeforeMonth_le {y m n : Nat} (hm : 1 ≤ m) (hlt : m < n) :
    daysBeforeMonth y m + monthLength y m ≤ daysBeforeMonth y n := by
  induction n, hlt using Nat.le_induction with
  | base => exact Nat.le_of_eq (daysBeforeMonth_succ hm).symm
  | succ n hn ih =>
    rw [daysBeforeMonth_succ (by omega)]
    omega

/-- The months of a year have its days. -/
theorem daysBeforeMonth_thirteen (y : Nat) : daysBeforeMonth y 13 = yearLength y := by
  simp only [daysBeforeMonth, monthLength, yearLength]
  cases isLeapYear y <;> rfl

/-- **Years are taken off** as long as a whole one is left. -/
theorem yearOf_spec {fuel y n : Nat} (hy : 1 ≤ y) (hfuel : n < 365 * (fuel + 1)) :
    1 ≤ (yearOf fuel y n).1 ∧ (yearOf fuel y n).2 < yearLength (yearOf fuel y n).1 ∧
      daysBeforeYear (yearOf fuel y n).1 + (yearOf fuel y n).2 = daysBeforeYear y + n := by
  induction fuel generalizing y n with
  | zero =>
    have := le_yearLength y
    exact ⟨hy, by simp only [yearOf]; omega, rfl⟩
  | succ fuel ih =>
    rw [yearOf]
    split
    · exact ⟨hy, ‹_›, rfl⟩
    · have hlength := le_yearLength y
      obtain ⟨hyear, hrest, hsum⟩ := ih (y := y + 1) (n := n - yearLength y) (by omega) (by omega)
      refine ⟨hyear, hrest, hsum.trans ?_⟩
      rw [daysBeforeYear_succ hy]
      omega

/-- **Months are taken off** in the same way; the year does not end before its days do. -/
theorem monthOf_spec {y fuel m n : Nat} (hm : 1 ≤ m) (hfuel : m + fuel = 12)
    (hn : daysBeforeMonth y m + n < yearLength y) :
    1 ≤ (monthOf y fuel m n).1 ∧ (monthOf y fuel m n).1 ≤ 12 ∧ 1 ≤ (monthOf y fuel m n).2 ∧
      (monthOf y fuel m n).2 ≤ monthLength y (monthOf y fuel m n).1 ∧
      daysBeforeMonth y (monthOf y fuel m n).1 + ((monthOf y fuel m n).2 - 1) =
        daysBeforeMonth y m + n := by
  induction fuel generalizing m n with
  | zero =>
    obtain rfl : m = 12 := by omega
    have hlast : daysBeforeMonth y 13 = daysBeforeMonth y 12 + monthLength y 12 := rfl
    rw [← daysBeforeMonth_thirteen] at hn
    exact ⟨hm, Nat.le_refl _, by simp [monthOf], by simp only [monthOf]; omega, rfl⟩
  | succ fuel ih =>
    rw [monthOf]
    split
    · exact ⟨hm, by omega, by simp, by simp only; omega, rfl⟩
    · have hsucc := daysBeforeMonth_succ (y := y) hm
      obtain ⟨hlow, hhigh, hday, hlast, hsum⟩ :=
        ih (m := m + 1) (n := n - monthLength y m) (by omega) (by omega) (by omega)
      exact ⟨hlow, hhigh, hday, hlast, hsum.trans (by omega)⟩

/-- **A count of days comes to a date of the calendar** that has just so many days before
it. -/
theorem ofDays_spec (n : Nat) :
    1 ≤ (ofDays n).year ∧ 1 ≤ (ofDays n).month ∧ (ofDays n).month ≤ 12 ∧ 1 ≤ (ofDays n).day ∧
      (ofDays n).day ≤ monthLength (ofDays n).year (ofDays n).month ∧ (ofDays n).days = n := by
  obtain ⟨hyear, hrest, hyears⟩ := yearOf_spec (y := 1) (by decide)
    (show n < 365 * (n / 365 + 1) by omega)
  obtain ⟨hlow, hhigh, hday, hlast, hmonths⟩ := monthOf_spec (m := 1) (by decide)
    (show 1 + 11 = 12 from rfl)
    (show daysBeforeMonth (yearOf (n / 365) 1 n).1 1 + (yearOf (n / 365) 1 n).2 < _ by
      simpa [daysBeforeMonth] using hrest)
  refine ⟨hyear, hlow, hhigh, hday, hlast, ?_⟩
  simp only [days, ofDays, daysBeforeMonth, daysBeforeYear] at hyears hmonths ⊢
  omega

theorem ofDays_isValid {n : Nat} (hn : n < limit) : (ofDays n).isValid = true := by
  obtain ⟨hyear, hlow, hhigh, hday, hlast, hdays⟩ := ofDays_spec n
  have hlimit : (ofDays n).year ≤ 9999 := by
    by_contra hlate
    have hle := daysBeforeYear_le (y := 9999) (by decide) (Nat.lt_of_not_le hlate)
    rw [← daysBeforeYear_succ (by decide)] at hle
    have : limit ≤ daysBeforeYear (ofDays n).year := hle
    rw [days] at hdays
    omega
  simp [isValid, hyear, hlimit, hlow, hhigh, hday, hlast]

/-- **The smaller count comes to the earlier date.** -/
theorem ofDays_lt {a b : Nat} (h : a < b) :
    (ofDays a).year < (ofDays b).year ∨ (ofDays a).year = (ofDays b).year ∧
      ((ofDays a).month < (ofDays b).month ∨ (ofDays a).month = (ofDays b).month ∧
        (ofDays a).day < (ofDays b).day) := by
  obtain ⟨hya, hma, hma', hda, hda', ha⟩ := ofDays_spec a
  obtain ⟨hyb, hmb, hmb', hdb, hdb', hb⟩ := ofDays_spec b
  generalize ofDays a = d at *
  generalize ofDays b = e at *
  have hyear (f : Date) (hlow : 1 ≤ f.month) (hhigh : f.month ≤ 12)
      (hlast : f.day ≤ monthLength f.year f.month) (hday : 1 ≤ f.day) :
      daysBeforeMonth f.year f.month + (f.day - 1) < yearLength f.year := by
    have hle := daysBeforeMonth_le (y := f.year) hlow (n := 13) (by omega)
    rw [daysBeforeMonth_thirteen] at hle
    omega
  have hea := hyear d hma hma' hda' hda
  have heb := hyear e hmb hmb' hdb' hdb
  rw [days] at ha hb
  rcases Nat.lt_trichotomy d.year e.year with hlt | heq | hgt
  · exact .inl hlt
  · refine .inr ⟨heq, ?_⟩
    rw [heq] at ha hda'
    rcases Nat.lt_trichotomy d.month e.month with hlt | hmonth | hgt
    · exact .inl hlt
    · refine .inr ⟨hmonth, ?_⟩
      rw [hmonth] at ha
      omega
    · have := daysBeforeMonth_le (y := e.year) hmb hgt
      omega
  · have := daysBeforeYear_le hyb hgt
    omega

end Date

end RepairLoop

namespace RepairLoop

namespace Text

/-- A number of two digits. -/
def pair (n : Nat) : List Char := [Nat.digitChar (n / 10), Nat.digitChar (n % 10)]

theorem padded_two {n : Nat} (hn : n < 100) : padded 2 n = pair n := by
  have hten : n / 10 < 10 := by omega
  rw [padded_succ 0, padded_one hten]
  rfl

theorem padded_pair (width n : Nat) :
    padded (width + 3) n = padded (width + 1) (n / 100) ++ pair (n % 100) := by
  have htens : n / 10 % 10 = n % 100 / 10 := by omega
  have hones : n % 10 = n % 100 % 10 := by omega
  rw [padded_succ (width + 1), padded_succ width, Nat.div_div_eq_div_mul, htens, hones,
    List.append_assoc]
  rfl

theorem padded_four {n : Nat} (hn : n < 10000) :
    padded 4 n = pair (n / 100) ++ pair (n % 100) := by
  rw [padded_pair 1, padded_two (by omega)]

theorem padded_ne_nil (width n : Nat) : padded width n ≠ [] := by
  simp [padded, Nat.toDigits_ne_nil]

theorem isDigit_digitChar {k : Nat} (hk : k < 10) : (Nat.digitChar k).isDigit = true := by
  rw [Nat.isDigit_digitChar]
  exact decide_eq_true hk

theorem digitChar_ne {k : Nat} {c : Char} (hk : k < 10) (hc : c.isDigit = false) :
    Nat.digitChar k ≠ c := by
  rintro rfl
  rw [isDigit_digitChar hk] at hc
  cases hc

theorem isDigit_of_mem_pair {n : Nat} (hn : n < 100) {c : Char} (hc : c ∈ pair n) :
    c.isDigit = true := by
  simp only [pair, List.mem_cons, List.not_mem_nil, or_false] at hc
  rcases hc with rfl | rfl
  · exact isDigit_digitChar (by omega)
  · exact isDigit_digitChar (by omega)

theorem ofDigitChars_pair {n : Nat} (hn : n < 100) : Nat.ofDigitChars 10 (pair n) 0 = n := by
  rw [← padded_two hn, ofDigitChars_padded]

end Text

open Text

/-! ## The parts of a reading -/

namespace Moment

variable {m : Moment} {a b r : Int}

/-- The whole days of a reading. -/
def dayOf (r : Int) : Nat := (r / dayLength).toNat

/-- The whole seconds of a reading since the start of the day. -/
def secondOf (r : Int) : Nat := (r % dayLength).toNat / 1000000

/-- The microseconds of a reading since the start of the second. -/
def microOf (r : Int) : Nat := (r % dayLength).toNat % 1000000

theorem secondOf_lt (r : Int) : secondOf r < 86400 := by
  have hlt : r % dayLength < 86400000000 := Int.emod_lt_of_pos r (by decide)
  unfold secondOf
  omega

theorem microOf_lt (r : Int) : microOf r < 1000000 := Nat.mod_lt _ (by decide)

/-- A reading is the sum of its parts. -/
theorem parts_eq (h : isRepresentable r = true) :
    r = (Int.ofNat (dayOf r) * 86400 + Int.ofNat (secondOf r)) * second +
      Int.ofNat (microOf r) := by
  simp only [isRepresentable, Bool.and_eq_true, decide_eq_true_eq] at h
  have hlength : dayLength = 86400000000 := rfl
  simp only [dayOf, secondOf, microOf, second, hlength, Int.ofNat_eq_natCast]
  omega

theorem dayOf_lt (h : isRepresentable r = true) : dayOf r < Date.limit := by
  simp only [isRepresentable, Bool.and_eq_true, decide_eq_true_eq] at h
  have hlength : dayLength = 86400000000 := rfl
  simp only [hlength, Int.ofNat_eq_natCast, dayOf] at h ⊢
  omega

/-- The earlier of two readings is earlier in the first part that differs. -/
theorem parts_lt (ha : isRepresentable a = true) (hb : isRepresentable b = true) (hlt : a < b) :
    dayOf a < dayOf b ∨ dayOf a = dayOf b ∧
      (secondOf a < secondOf b ∨ secondOf a = secondOf b ∧ microOf a < microOf b) := by
  have hsa := secondOf_lt a
  have hsb := secondOf_lt b
  have hma := microOf_lt a
  have hmb := microOf_lt b
  have hea := parts_eq ha
  have heb := parts_eq hb
  simp only [second, Int.ofNat_eq_natCast] at hea heb
  omega

end Moment

/-! ## The texts -/

namespace Date

/-- The characters of a date. -/
def chars (d : Date) : List Char :=
  padded 4 d.year ++ '-' :: (padded 2 d.month ++ '-' :: padded 2 d.day)

theorem toList_text (d : Date) : d.text.toList = d.chars := by
  simp [text, chars, toList_paddedDigits]

theorem isValid_iff {d : Date} : d.isValid = true ↔
    (1 ≤ d.year ∧ d.year ≤ 9999) ∧ (1 ≤ d.month ∧ d.month ≤ 12) ∧
      1 ≤ d.day ∧ d.day ≤ monthLength d.year d.month := by
  simp [isValid, and_assoc]

theorem monthLength_le (y m : Nat) : monthLength y m ≤ 31 := by
  unfold monthLength
  repeat' split
  all_goals decide

theorem length_chars {d : Date} (hd : d.isValid = true) : d.chars.length = 10 := by
  obtain ⟨⟨-, hy⟩, ⟨-, hm⟩, -, hlast⟩ := isValid_iff.1 hd
  have hd31 := monthLength_le d.year d.month
  rw [chars, padded_four (by omega), padded_two (by omega), padded_two (by omega)]
  rfl

end Date

namespace Moment

/-- The characters of a fraction of a second; no fraction has none. -/
def fractionChars (micros : Nat) : List Char :=
  if micros = 0 then [] else '.' :: padded 6 micros

/-- The characters of a time of day. -/
def clockChars (seconds micros : Nat) : List Char :=
  padded 2 (seconds / 3600) ++ ':' ::
    (padded 2 (seconds / 60 % 60) ++ ':' :: (padded 2 (seconds % 60) ++ fractionChars micros))

/-- The characters of a date and a time of day. -/
def stampChars (r : Int) : List Char :=
  (Date.ofDays (dayOf r)).chars ++ 'T' :: clockChars (secondOf r) (microOf r)

theorem toList_clockText (m : Moment) :
    m.clockText.toList = clockChars (secondOf m.reading) (microOf m.reading) := by
  unfold clockText clockChars fractionChars
  by_cases h : microOf m.reading = 0
  · have h' : (m.reading % dayLength).toNat % 1000000 = 0 := h
    simp [h, h', toList_paddedDigits, secondOf]
  · have h' : (m.reading % dayLength).toNat % 1000000 ≠ 0 := h
    simp [h', toList_paddedDigits, secondOf, microOf]

theorem toList_isoText (r : Int) :
    (isoText ⟨r, some 0⟩).toList = stampChars r ++ "+00:00".toList := by
  have hoffset : (offsetText 0).toList = "+00:00".toList := by decide
  simp only [isoText, String.toList_append, Date.toList_text, toList_clockText, hoffset, stampChars]
  simp [date, dayOf]

/-! ### The order of the texts -/

theorem dateChars_lt {a b : Nat} (h : a < b) (hb : b < Date.limit) (s t : List Char) :
    (Date.ofDays a).chars ++ s < (Date.ofDays b).chars ++ t := by
  have hva := Date.isValid_iff.1 (Date.ofDays_isValid (Nat.lt_trans h hb))
  have hvb := Date.isValid_iff.1 (Date.ofDays_isValid hb)
  have hla := Date.monthLength_le (Date.ofDays a).year (Date.ofDays a).month
  have hlb := Date.monthLength_le (Date.ofDays b).year (Date.ofDays b).month
  have hlt := Date.ofDays_lt h
  generalize Date.ofDays a = d at *
  generalize Date.ofDays b = e at *
  have hlength {w n : Nat} (hn : n < 10 ^ (w + 1)) {k : Nat} (hk : k < 10 ^ (w + 1)) :
      (padded (w + 1) n).length = (padded (w + 1) k).length := by
    rw [length_padded hn, length_padded hk]
  simp only [Date.chars, List.append_assoc, List.cons_append]
  rcases hlt with hlt | ⟨heq, hlt⟩
  · exact append_lt_append _ _ (hlength (by omega) (by omega)) (padded_lt hlt (by omega))
  · rw [heq]
    refine append_lt_append_left _ (List.cons_lt_cons_iff.2 (.inr ⟨rfl, ?_⟩))
    rcases hlt with hlt | ⟨heq, hlt⟩
    · exact append_lt_append _ _ (hlength (by omega) (by omega)) (padded_lt hlt (by omega))
    · rw [heq]
      refine append_lt_append_left _ (List.cons_lt_cons_iff.2 (.inr ⟨rfl, ?_⟩))
      exact append_lt_append _ _ (hlength (by omega) (by omega)) (padded_lt hlt (by omega))

/-- A fraction stands behind no fraction, since a point stands behind a sign. -/
theorem fractionChars_lt {a b : Nat} (h : a < b) (hb : b < 1000000) :
    fractionChars a ++ "+00:00".toList < fractionChars b ++ "+00:00".toList := by
  have hpos : b ≠ 0 := by omega
  rw [fractionChars, fractionChars, if_neg hpos]
  split
  · exact List.cons_lt_cons_iff.2 (.inl (by decide))
  · refine List.cons_lt_cons_iff.2 (.inr ⟨rfl, ?_⟩)
    have ha : a < 10 ^ 6 := by omega
    exact append_lt_append _ _ (by rw [length_padded ha, length_padded hb]) (padded_lt h hb)

theorem clockChars_lt {s t f g : Nat} (ht : t < 86400) (hg : g < 1000000)
    (h : s < t ∨ s = t ∧ f < g) :
    clockChars s f ++ "+00:00".toList < clockChars t g ++ "+00:00".toList := by
  have hlength {n k : Nat} (hn : n < 10 ^ 2) (hk : k < 10 ^ 2) :
      (padded 2 n).length = (padded 2 k).length := by
    rw [length_padded hn, length_padded hk]
  simp only [clockChars, List.append_assoc, List.cons_append]
  rcases Nat.lt_trichotomy (s / 3600) (t / 3600) with hlt | heq | hgt
  · exact append_lt_append _ _ (hlength (by omega) (by omega)) (padded_lt hlt (by omega))
  · rw [heq]
    refine append_lt_append_left _ (List.cons_lt_cons_iff.2 (.inr ⟨rfl, ?_⟩))
    rcases Nat.lt_trichotomy (s / 60 % 60) (t / 60 % 60) with hlt | heq | hgt
    · exact append_lt_append _ _ (hlength (by omega) (by omega)) (padded_lt hlt (by omega))
    · rw [heq]
      refine append_lt_append_left _ (List.cons_lt_cons_iff.2 (.inr ⟨rfl, ?_⟩))
      rcases Nat.lt_trichotomy (s % 60) (t % 60) with hlt | heq | hgt
      · exact append_lt_append _ _ (hlength (by omega) (by omega)) (padded_lt hlt (by omega))
      · rw [heq]
        have hsame : s = t := by omega
        have hfrac : f < g := by omega
        exact append_lt_append_left _ (fractionChars_lt hfrac hg)
      · omega
    · omega
  · omega

/-- **The earlier of two moments in universal time has the smaller text.** -/
theorem isoText_lt (ha : isRepresentable a = true) (hb : isRepresentable b = true) (hlt : a < b) :
    isoText ⟨a, some 0⟩ < isoText ⟨b, some 0⟩ := by
  rw [String.lt_iff_toList_lt, toList_isoText, toList_isoText]
  simp only [stampChars, List.append_assoc, List.cons_append]
  rcases parts_lt ha hb hlt with hday | ⟨hday, hrest⟩
  · exact dateChars_lt hday (dayOf_lt hb) _ _
  · rw [hday]
    refine append_lt_append_left _ (List.cons_lt_cons_iff.2 (.inr ⟨rfl, ?_⟩))
    exact clockChars_lt (secondOf_lt b) (microOf_lt b) hrest

/-- **Texts are ordered as the moments are.** -/
theorem isoText_le_iff (ha : isRepresentable a = true) (hb : isRepresentable b = true) :
    isoText ⟨a, some 0⟩ ≤ isoText ⟨b, some 0⟩ ↔ a ≤ b := by
  constructor
  · intro hle
    by_contra hgt
    exact String.not_lt.2 hle (isoText_lt hb ha (by omega))
  · intro hle
    rcases Int.lt_or_eq_of_le hle with hlt | rfl
    · exact String.not_lt.1 fun hgt =>
        String.lt_irrefl _ (String.lt_trans hgt (isoText_lt ha hb hlt))
    · exact String.le_refl _

end Moment

end RepairLoop
