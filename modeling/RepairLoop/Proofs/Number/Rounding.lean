import Mathlib
import RepairLoop.Number.Decimal
/-!
# Rounding — which fractions come to a double

A double is a significand and a power of two (`Double`). Around it lie the fractions that
are nearer to it than to its neighbours (`Near`); below a power of two the neighbour is half
as far as above. A fraction that is near a double comes to the bits of that double
(`nearestBits_of_near`), and the bits come to the double itself (`nearest_of_near`).
-/

namespace RepairLoop.Number

variable {m num den n d q : ℕ} {e s : ℤ} {v : ℚ}

/-! ## Division to the nearest integer -/

/-- The quotient comes to an integer at most a half away, at a half to an even one. -/
theorem roundDiv_eq (hd : 0 < d) (hlow : 2 * q * d ≤ 2 * n + d) (hhigh : 2 * n ≤ (2 * q + 1) * d)
    (htie : q % 2 = 0 ∨ (2 * q * d < 2 * n + d ∧ 2 * n < (2 * q + 1) * d)) :
    roundDiv n d = q := by
  have hn : n = d * (n / d) + n % d := (Nat.div_add_mod n d).symm
  have hr : n % d < d := Nat.mod_lt n hd
  unfold roundDiv
  generalize n / d = k at *
  generalize n % d = r at *
  subst hn
  dsimp only
  have hle : q ≤ k + 1 := by
    by_contra hgt
    have : k + 2 ≤ q := by omega
    nlinarith
  have hge : k ≤ q := by
    by_contra hlt
    have : q + 1 ≤ k := by omega
    nlinarith
  rcases Nat.eq_or_lt_of_le hge with rfl | hlt
  · -- the integer below: what is left over is at most a half
    have hhalf : 2 * r ≤ d := by nlinarith
    split
    · rfl
    · have htied : 2 * r = d := by omega
      rw [if_neg (by omega), if_pos]
      rcases htie with heven | ⟨-, hstrict⟩
      · exact heven
      · nlinarith
  · -- the integer above: what is left over is at least a half
    obtain rfl : q = k + 1 := by omega
    have hhalf : d ≤ 2 * r := by nlinarith
    rw [if_neg (by omega)]
    split
    · rfl
    · have htied : 2 * r = d := by omega
      rw [if_neg]
      rcases htie with heven | ⟨hstrict, -⟩
      · omega
      · nlinarith

/-! ## Doubles and what is near them -/

/-- A finite double: a significand of at most 53 bits, of less only at the least power. -/
structure Double (m : ℕ) (e : ℤ) : Prop where
  bits : m < 2 ^ 53
  least : -1074 ≤ e
  most : e ≤ 971
  full : m < 2 ^ 52 → e = -1074

/-- Where the fractions start that come to a double, in quarters of its last place. -/
def lowEnd (m : ℕ) (e : ℤ) : ℕ :=
  if m = twoTo 52 && e > -1074 then 4 * m - 1 else 4 * m - 2

/-- Where they end. -/
def highEnd (m : ℕ) : ℕ := 4 * m + 2

/-- A fraction is near a double. The ends belong to doubles with an even significand. -/
structure Near (m : ℕ) (e : ℤ) (v : ℚ) : Prop where
  low : (lowEnd m e : ℚ) * 2 ^ (e - 2) ≤ v
  high : v ≤ (highEnd m : ℚ) * 2 ^ (e - 2)
  tie : m % 2 = 0 ∨ ((lowEnd m e : ℚ) * 2 ^ (e - 2) < v ∧ v < (highEnd m : ℚ) * 2 ^ (e - 2))

/-- The bits of a double without its sign. -/
def bitsOf (m : ℕ) (e : ℤ) : ℕ :=
  if m < twoTo 52 then m else ((e + 1075).toNat <<< 52) + (m - twoTo 52)

/-! ## The power of two of a fraction -/

/-- A fraction counted in a power of two. -/
theorem shiftFraction_spec (num : ℕ) (s : ℤ) (hden : 0 < den) :
    0 < (shiftFraction num den s).2 ∧
      ((shiftFraction num den s).1 : ℚ) = num / den * 2 ^ (-s) * (shiftFraction num den s).2 := by
  have hden' : (den : ℚ) ≠ 0 := by positivity
  unfold shiftFraction
  split
  · rename_i hs
    obtain ⟨k, rfl⟩ := Int.eq_ofNat_of_zero_le hs
    refine ⟨by simp [Nat.shiftLeft_eq, hden], ?_⟩
    simp only [Int.toNat_natCast, Nat.shiftLeft_eq, Nat.cast_mul, Nat.cast_pow, Nat.cast_ofNat,
      zpow_neg, zpow_natCast]
    field_simp
  · rename_i hs
    obtain ⟨k, hk⟩ := Int.eq_ofNat_of_zero_le (show 0 ≤ -s by omega)
    refine ⟨hden, ?_⟩
    simp only [hk, Int.toNat_natCast, Nat.shiftLeft_eq, Nat.cast_mul, Nat.cast_pow,
      Nat.cast_ofNat, zpow_natCast]
    field_simp

/-- The power of two in which a fraction has a significand of 53 bits. -/
def powerOf (num den : ℕ) : ℤ :=
  let s := (Nat.log2 num : ℤ) - (Nat.log2 den : ℤ) - 53
  if (shiftFraction num den s).1 / (shiftFraction num den s).2 ≥ twoTo 53 then s + 1 else s

/-- A fraction counted in a power of two is at least a whole number. -/
theorem le_shiftFraction_iff (num : ℕ) (s : ℤ) (hden : 0 < den) (k : ℕ) :
    k ≤ (shiftFraction num den s).1 / (shiftFraction num den s).2 ↔
      (k : ℚ) * 2 ^ s ≤ num / den := by
  obtain ⟨hpos, hvalue⟩ := shiftFraction_spec num s hden
  have hposq : (0 : ℚ) < (shiftFraction num den s).2 := by exact_mod_cast hpos
  rw [Nat.le_div_iff_mul_le hpos, ← @Nat.cast_le ℚ, Nat.cast_mul, hvalue,
    mul_le_mul_iff_left₀ hposq,
    zpow_neg, ← div_eq_mul_inv, le_div_iff₀ (by positivity)]

theorem powerOf_spec (hnum : num ≠ 0) (hden : 0 < den) :
    2 ^ 52 * (2 : ℚ) ^ powerOf num den ≤ num / den ∧
      (num / den : ℚ) < 2 ^ 53 * (2 : ℚ) ^ powerOf num den := by
  have hden0 : den ≠ 0 := by omega
  have hdenq : (0 : ℚ) < den := by exact_mod_cast hden
  have hnumlow : (2 : ℚ) ^ num.log2 ≤ num := by exact_mod_cast Nat.log2_self_le hnum
  have hnumhigh : (num : ℚ) < 2 ^ (num.log2 + 1) := by exact_mod_cast Nat.lt_log2_self
  have hdenlow : (2 : ℚ) ^ den.log2 ≤ den := by exact_mod_cast Nat.log2_self_le hden0
  have hdenhigh : (den : ℚ) < 2 ^ (den.log2 + 1) := by exact_mod_cast Nat.lt_log2_self
  unfold powerOf
  generalize hs : (num.log2 : ℤ) - den.log2 - 53 = s
  have hlow : (2 : ℚ) ^ (s + 52) ≤ num / den := by
    have hexp : s + 52 = (num.log2 : ℤ) - (den.log2 + 1 : ℕ) := by push_cast; omega
    rw [hexp, zpow_sub₀ two_ne_zero, zpow_natCast, zpow_natCast]
    exact div_le_div₀ (by positivity) hnumlow hdenq hdenhigh.le
  have hhigh : (num / den : ℚ) < 2 ^ (s + 54) := by
    have hexp : s + 54 = ((num.log2 + 1 : ℕ) : ℤ) - den.log2 := by push_cast; omega
    rw [hexp, zpow_sub₀ two_ne_zero, zpow_natCast, zpow_natCast]
    exact div_lt_div₀ hnumhigh hdenlow (by positivity) (by positivity)
  have hfloor := le_shiftFraction_iff num s hden (twoTo 53)
  have htwo : ((twoTo 53 : ℕ) : ℚ) = 2 ^ 53 := by norm_num [twoTo]
  rw [htwo] at hfloor
  have hshift (k : ℕ) : (2 : ℚ) ^ (s + k) = 2 ^ k * 2 ^ s := by
    rw [zpow_add₀ two_ne_zero, zpow_natCast, mul_comm]
  dsimp only
  split
  · rename_i hle
    have hle := hfloor.1 hle
    have hsucc := hshift 1
    have hall := hshift 54
    push_cast at hsucc hall
    rw [hsucc]
    exact ⟨by linarith, by linarith⟩
  · rename_i hlt
    have hlt := lt_of_not_ge (mt hfloor.2 hlt)
    have hall := hshift 52
    push_cast at hall
    exact ⟨by linarith, hlt⟩

/-! ## What a fraction comes to -/

/-- The bits of a rounded significand; one that has got a bit more is halved. -/
def packed (q : ℕ) (s : ℤ) : ℕ :=
  if q ≥ twoTo 52 then
    let (q, s) := if q = twoTo 53 then (twoTo 52, s + 1) else (q, s)
    if s > 971 then 2047 <<< 52
    else ((s + 1075).toNat <<< 52) + (q - twoTo 52)
  else q

theorem nearestBits_eq (hnum : num ≠ 0) :
    nearestBits num den = packed
      (roundDiv (shiftFraction num den (max (powerOf num den) (-1074))).1
        (shiftFraction num den (max (powerOf num den) (-1074))).2)
      (max (powerOf num den) (-1074)) := by
  unfold nearestBits
  rw [if_neg hnum]
  rfl

/-- A fraction that is at most a half away from a multiple comes to it. -/
theorem roundDiv_shiftFraction (hden : 0 < den) (hlow : (q - 1 / 2 : ℚ) * 2 ^ s ≤ num / den)
    (hhigh : (num / den : ℚ) ≤ (q + 1 / 2) * 2 ^ s)
    (htie : q % 2 = 0 ∨ ((q - 1 / 2 : ℚ) * 2 ^ s < num / den ∧
      (num / den : ℚ) < (q + 1 / 2) * 2 ^ s)) :
    roundDiv (shiftFraction num den s).1 (shiftFraction num den s).2 = q := by
  obtain ⟨hpos, hvalue⟩ := shiftFraction_spec num s hden
  generalize (shiftFraction num den s).1 = n at *
  generalize (shiftFraction num den s).2 = d at *
  have hposq : (0 : ℚ) < d := by exact_mod_cast hpos
  have hpow : (0 : ℚ) < 2 ^ s := by positivity
  have hscaled : (num / den : ℚ) = n / d * 2 ^ s := by
    rw [hvalue, zpow_neg]
    field_simp
  rw [hscaled] at hlow hhigh htie
  rw [mul_le_mul_iff_left₀ hpow] at hlow hhigh
  rw [mul_lt_mul_iff_left₀ hpow, mul_lt_mul_iff_left₀ hpow, lt_div_iff₀ hposq,
    div_lt_iff₀ hposq] at htie
  rw [le_div_iff₀ hposq] at hlow
  rw [div_le_iff₀ hposq] at hhigh
  refine roundDiv_eq hpos ?_ ?_ (htie.imp_right fun h => ⟨?_, ?_⟩)
  · qify
    linarith
  · qify
    linarith
  · qify
    linarith [h.1]
  · qify
    linarith [h.2]

/-- The ends of what is near a double lie at most half a place away. -/
theorem Near.within (h : Near m e v) (hm : 0 < m) :
    (m - 1 / 2 : ℚ) * 2 ^ e ≤ v ∧ v ≤ (m + 1 / 2) * 2 ^ e ∧
      (m % 2 = 0 ∨ ((m - 1 / 2 : ℚ) * 2 ^ e < v ∧ v < (m + 1 / 2) * 2 ^ e)) := by
  have hquarter : (2 : ℚ) ^ (e - 2) = 2 ^ e / 4 := by
    rw [zpow_sub₀ two_ne_zero]
    norm_num
  have hpow : (0 : ℚ) < 2 ^ e := by positivity
  have hend : (4 * m - 2 : ℚ) ≤ lowEnd m e := by
    have hnat : 4 * m ≤ lowEnd m e + 2 := by
      unfold lowEnd
      split <;> omega
    have hcast : (4 * m : ℚ) ≤ lowEnd m e + 2 := by exact_mod_cast hnat
    linarith
  have hlow := h.low
  have hhigh := h.high
  have htie := h.tie
  simp only [hquarter, highEnd, Nat.cast_add, Nat.cast_mul, Nat.cast_ofNat] at hlow hhigh htie
  refine ⟨by nlinarith, by linarith, htie.imp_right fun ⟨hl, hh⟩ => ⟨by nlinarith, by linarith⟩⟩

/-- Below a power of two the end lies a quarter of a place away. -/
theorem Near.quarter (h : Near m e v) (hm : m = 2 ^ 52) (he : -1074 < e) :
    (2 ^ 53 - 1 / 2 : ℚ) * 2 ^ (e - 1) ≤ v := by
  have hlow := h.low
  have hend : lowEnd m e = 4 * 2 ^ 52 - 1 := by
    unfold lowEnd
    rw [if_pos (by simp [hm, he, twoTo]), hm]
  have hhalf : (2 : ℚ) ^ (e - 1) = 2 ^ (e - 2) * 2 := by
    rw [← zpow_add_one₀ two_ne_zero]
    congr 1
    omega
  rw [hend] at hlow
  rw [hhalf]
  push_cast at hlow
  norm_num at hlow ⊢
  linarith

theorem pow_lt_iff {a b : ℤ} : (2 : ℚ) ^ a < 2 ^ b ↔ a < b :=
  zpow_lt_zpow_iff_right₀ one_lt_two

theorem packed_double (hx : Double m e) : packed m e = bitsOf m e := by
  have htop : m ≠ twoTo 53 := Nat.ne_of_lt hx.bits
  have hmost : ¬ e > 971 := by have := hx.most; omega
  unfold packed bitsOf
  by_cases hfull : m < twoTo 52
  · rw [if_neg (by omega), if_pos hfull]
  · rw [if_pos (by omega), if_neg hfull]
    simp only [if_neg htop, if_neg hmost]

/-- A significand that has got a bit more is the least one of the next power. -/
theorem packed_carry (he : e ≤ 971) : packed (2 ^ 53) (e - 1) = bitsOf (2 ^ 52) e := by
  have hmost : ¬ e > 971 := by omega
  have hcarry : (2 ^ 53 : ℕ) = twoTo 53 := rfl
  unfold packed bitsOf
  rw [if_pos (show 2 ^ 53 ≥ twoTo 52 by decide), if_neg (show ¬ 2 ^ 52 < twoTo 52 by decide)]
  simp only [if_pos hcarry, sub_add_cancel, if_neg hmost]
  rfl

/-- **A fraction near a double comes to its bits.** -/
theorem nearestBits_of_near (hx : Double m e) (hm : 0 < m) (hden : 0 < den)
    (h : Near m e (num / den)) : nearestBits num den = bitsOf m e := by
  obtain ⟨hlow, hhigh, htie⟩ := h.within hm
  have hpow : (0 : ℚ) < 2 ^ e := by positivity
  have hsucc : (2 : ℚ) ^ (e + 1) = 2 ^ e * 2 := zpow_add_one₀ two_ne_zero e
  have hmq : (1 : ℚ) ≤ m := by exact_mod_cast hm
  have hbits : (m : ℚ) + 1 ≤ 2 ^ 53 := by exact_mod_cast hx.bits
  have hnum : num ≠ 0 := by
    rintro rfl
    simp only [Nat.cast_zero, zero_div] at hlow
    nlinarith
  obtain ⟨hplow, hphigh⟩ := powerOf_spec hnum hden
  have hleast := hx.least
  rw [nearestBits_eq hnum]
  generalize powerOf num den = s at *
  have hs : s ≤ e := by
    by_contra hgt
    have hgt : (2 : ℚ) ^ (e + 1) ≤ 2 ^ s := zpow_le_zpow_right₀ one_le_two (by omega)
    nlinarith
  by_cases hown : max s (-1074) = e
  · -- the fraction is counted in the power of two of the double
    rw [hown, roundDiv_shiftFraction hden hlow hhigh htie, packed_double hx]
  · -- it lies below the least significand, and the power of two below is there
    have hshort : (num / den : ℚ) < 2 ^ 52 * 2 ^ e := by
      by_contra hfull
      have hge : (2 : ℚ) ^ e < 2 ^ (s + 1) := by
        rw [zpow_add_one₀ two_ne_zero]
        linarith
      have := pow_lt_iff.1 hge
      omega
    have he : -1074 < e := by omega
    have hm52 : m = 2 ^ 52 := by
      have hfull : 2 ^ 52 ≤ m := by
        by_contra hlt
        have := hx.full (by omega)
        omega
      have hle : (m : ℚ) < 2 ^ 52 + 1 := by nlinarith
      have hle : m < 2 ^ 52 + 1 := by exact_mod_cast hle
      omega
    have hquarter := h.quarter hm52 he
    have hhalf : (2 : ℚ) ^ e = 2 ^ (e - 1) * 2 := by
      rw [← zpow_add_one₀ two_ne_zero, sub_add_cancel]
    have hpow' : (0 : ℚ) < 2 ^ (e - 1) := by positivity
    have hs' : max s (-1074) = e - 1 := by
      have hlt : (2 : ℚ) ^ (e - 1) < 2 ^ (s + 1) := by
        rw [zpow_add_one₀ two_ne_zero]
        nlinarith
      have := pow_lt_iff.1 hlt
      omega
    rw [hs', roundDiv_shiftFraction (q := 2 ^ 53) hden (by push_cast; linarith)
      (by push_cast; nlinarith) (.inl (by decide)), packed_carry hx.most, hm52]

/-! ## Doubles are known by their bits -/

variable {x : Float} {negative : Bool}

/-- A finite double is made of its sign, its significand and its power of two. -/
theorem decode_finite (h : decode x = .finite negative m e) :
    Double m e ∧ x.toBits.toNat = if negative then bitsOf m e + twoTo 63 else bitsOf m e := by
  have htwo : twoTo 52 = 4503599627370496 := rfl
  have hsign : twoTo 63 = 9223372036854775808 := rfl
  have hsize : x.toBits.toNat < 18446744073709551616 := x.toBits.toNat_lt
  unfold decode at h
  generalize x.toBits.toNat = b at *
  simp only [Nat.shiftRight_eq_div_pow, htwo, hsign] at h
  norm_num at h
  split at h
  · split at h <;> cases h
  · split at h
    · rename_i hexp
      cases h
      refine ⟨⟨by omega, by omega, by omega, fun _ => rfl⟩, ?_⟩
      have hown : bitsOf (b % 4503599627370496) (-1074) = b % 4503599627370496 := by
        rw [bitsOf, htwo, if_pos (by omega)]
      rw [hown, hsign]
      by_cases hneg : 9223372036854775808 ≤ b
      · rw [if_pos (decide_eq_true hneg)]
        omega
      · rw [if_neg (by simpa using hneg)]
        omega
    · rename_i hmost hexp
      cases h
      refine ⟨⟨by omega, by omega, by omega, fun _ => by omega⟩, ?_⟩
      have hown : bitsOf (b % 4503599627370496 + 4503599627370496)
          ((b : ℤ) / 4503599627370496 % 2048 - 1075) = b % 9223372036854775808 := by
        rw [bitsOf, htwo, if_neg (by omega), Nat.shiftLeft_eq]
        omega
      rw [hown, hsign]
      by_cases hneg : 9223372036854775808 ≤ b
      · rw [if_pos (decide_eq_true hneg)]
        omega
      · rw [if_neg (by simpa using hneg)]
        omega

/-- **A fraction near a double comes to the double.** -/
theorem nearest_of_near (hx : decode x = .finite negative m e) (hm : 0 < m) (hden : 0 < den)
    (h : Near m e (num / den)) : nearest negative num den = x := by
  obtain ⟨hdouble, hbits⟩ := decode_finite hx
  unfold nearest
  dsimp only
  rw [nearestBits_of_near hdouble hm hden h, ← hbits, UInt64.ofNat_toNat, Float.ofBits_toBits]

/-- Nothing comes to the zero of either sign. -/
theorem nearest_zero (hx : decode x = .finite negative 0 e) : nearest negative 0 den = x := by
  obtain ⟨-, hbits⟩ := decode_finite hx
  have hzero : bitsOf 0 e = 0 := rfl
  unfold nearest
  dsimp only
  rw [nearestBits, if_pos rfl]
  rw [hzero] at hbits
  rw [← hbits, UInt64.ofNat_toNat, Float.ofBits_toBits]

/-! ## Finite doubles -/

/-- Doubles of one form are one. -/
theorem eq_of_unpack {x y : Float} (h : x.toModel.unpack = y.toModel.unpack) : x = y := by
  have hbits := (Float.Model.UnpackedFloat.unpack_inj_of_valid x.toModel.valid
    y.toModel.valid).1 h
  exact Float.toBits_inj.1 (UInt64.toBitVec_inj.1 hbits)

theorem isNaN_of_isFinite {x : Float} (h : isFinite x = true) : x.isNaN = false := by
  rw [Float.isNaN_eq_decide_eq_nan, decide_eq_false_iff_not]
  rintro rfl
  revert h
  decide +kernel

theorem isInf_of_isFinite {x : Float} (h : isFinite x = true) : x.isInf = false := by
  by_contra hinf
  rw [Bool.not_eq_false] at hinf
  obtain ⟨s, hs⟩ : ∃ s, x.toModel.unpack = .infinity s := by
    unfold Float.isInf Float.Model.isInf Float.Model.UnpackedFloat.isInf at hinf
    split at hinf
    · rename_i s hs
      exact ⟨s, hs⟩
    · cases hinf
  cases s with
  | positive =>
    obtain rfl : x = 1.0 / 0.0 := eq_of_unpack (hs.trans (by rfl))
    exact absurd h (by decide +kernel)
  | negative =>
    obtain rfl : x = -1.0 / 0.0 := eq_of_unpack (hs.trans (by rfl))
    exact absurd h (by decide +kernel)

end RepairLoop.Number
