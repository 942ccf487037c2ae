import RepairLoop.Proofs.Number.Rounding
/-!
# Order — doubles compare as the numbers that they stand for

A double is compared by its parts: first the sign, then the power of two, then the significand.
The parts are those that `decode` finds (`unpack_of_finite`), and of two doubles the one with the
greater power is the greater one, since only at the least power the first bit of a significand may
be missing (`Double.lt_iff`). Together they say that `<` is the order of the values
(`lt_iff_value`). That is so of finite doubles only. A product of two doubles between zero and one
is finite (`isFinite_mul`): it cannot grow out of the powers that a double has.
-/

namespace RepairLoop.Number

open Float.Model (Format)
open Float.Model.UnpackedFloat

variable {x y : Float} {m n : ℕ} {a b : ℤ} {negative : Bool}

/-! ## The parts of a double -/

/-- The bits of a double. -/
abbrev bits (x : Float) : BitVec Format.binary64.numBits := x.toModel.toBits.toBitVec

/-- A sign. -/
def signOf (negative : Bool) : Sign := if negative then .negative else .positive

theorem toNat_mantissa (x : Float) :
    (unpackMantissa (bits x)).toNat = x.toBits.toNat % twoTo 52 := by
  simp [unpackMantissa, bits, BitVec.extractLsb, twoTo]
  rfl

theorem toNat_exponent (x : Float) :
    (unpackExponent (bits x)).toNat = (x.toBits.toNat >>> 52) % 2048 := by
  simp [unpackExponent, bits, BitVec.extractLsb]
  rfl

/-- The greatest power of two is left to what is not finite. -/
theorem exponent_iff (x : Float) :
    unpackExponent (bits x) = -1#11 ↔ (x.toBits.toNat >>> 52) % 2048 = 2047 := by
  rw [← toNat_exponent]
  exact BitVec.toNat_inj.symm

theorem sign_eq (x : Float) : Sign.ofBitVec (unpackSign (bits x)) =
    signOf (x.toBits.toNat ≥ twoTo 63) := by
  have hsize : x.toBits.toNat < 2 ^ 64 := x.toBits.toNat_lt
  have hsign : (unpackSign (bits x)).toNat = x.toBits.toNat / 2 ^ 63 := by
    simp only [unpackSign, bits, BitVec.extractLsb, BitVec.toNat_cast, BitVec.extractLsb'_toNat,
      Nat.shiftRight_eq_div_pow]
    show x.toBits.toNat / 2 ^ 63 % 2 ^ 1 = _
    omega
  have htwo : twoTo 63 = 2 ^ 63 := rfl
  rw [Sign.ofBitVec, signOf, htwo]
  by_cases h : 2 ^ 63 ≤ x.toBits.toNat
  · rw [if_neg, if_pos (by simpa using h)]
    intro hzero
    rw [hzero] at hsign
    simp at hsign
    omega
  · rw [if_pos, if_neg (by simpa using h)]
    apply BitVec.eq_of_toNat_eq
    rw [hsign]
    simp
    omega

/-- **The parts that a finite double is compared by are those that it decodes to.** Zero has no
power of two. -/
theorem unpack_of_finite (h : decode x = .finite negative m a) :
    (m = 0 ∧ x.toModel.unpack = .zero (signOf negative)) ∨
      ∃ hm : 0 < m, x.toModel.unpack = .finite (signOf negative) m a hm := by
  unfold decode at h
  simp only [← toNat_mantissa, ← toNat_exponent] at h
  show (_ ∧ unpack .binary64 (bits x) = _) ∨ ∃ hm : 0 < m, unpack .binary64 (bits x) = _
  unfold unpack
  simp only [sign_eq x]
  have hleast : unpackExponent (bits x) = 0#11 ↔ (unpackExponent (bits x)).toNat = 0 :=
    BitVec.toNat_inj.symm
  have hnothing : unpackMantissa (bits x) = 0#52 ↔ (unpackMantissa (bits x)).toNat = 0 :=
    BitVec.toNat_inj.symm
  split at h
  · split at h <;> cases h
  · rename_i hnot
    rw [if_neg (by rwa [exponent_iff, ← toNat_exponent])]
    split at h
    · rename_i hzero
      rw [if_pos (hleast.2 hzero)]
      cases h
      by_cases hf : unpackMantissa (bits x) = 0#52
      · rw [dif_pos hf]
        exact .inl ⟨hnothing.1 hf, rfl⟩
      · rw [dif_neg hf]
        refine .inr ⟨Nat.pos_of_ne_zero (mt hnothing.2 hf), ?_⟩
        simp only [hzero]
        rfl
    · rename_i hzero
      rw [if_neg (mt hleast.1 hzero)]
      cases h
      have htwo : twoTo 52 = 2 ^ 52 := rfl
      refine .inr ⟨by omega, ?_⟩
      have happend : (1#1 ++ unpackMantissa (bits x)).toNat =
          (unpackMantissa (bits x)).toNat + twoTo 52 := by
        rw [BitVec.toNat_append, htwo]
        show 1 <<< 52 ||| _ = _
        rw [Nat.shiftLeft_eq, one_mul, ← Nat.mul_one (2 ^ 52),
          ← Nat.two_pow_add_eq_or_of_lt (unpackMantissa (bits x)).isLt 1, Nat.add_comm]
      simp only [happend]
      rfl

/-! ## Values -/

/-- The fraction that a sign, a significand and a power of two stand for. -/
def amount (negative : Bool) (m : ℕ) (e : ℤ) : ℚ := if negative then -(m * 2 ^ e) else m * 2 ^ e

theorem valueOf?_finite (h : decode x = .finite negative m a) :
    valueOf? x = some (amount negative m a) := by
  unfold valueOf?
  rw [h]
  have hfraction : ((fractionOf m a).1 : ℚ) / ((fractionOf m a).2 : ℕ) = m * 2 ^ a := by
    unfold fractionOf twoTo
    split
    · rename_i ha
      obtain ⟨k, rfl⟩ := Int.eq_ofNat_of_zero_le ha
      simp
    · rename_i ha
      obtain ⟨k, hk⟩ := Int.eq_ofNat_of_zero_le (show 0 ≤ -a by omega)
      obtain rfl : a = -(k : ℤ) := by omega
      simp [div_eq_mul_inv]
  simp only [amount, ← hfraction]

/-- The number that a double stands for; zero for what stands for none. -/
def value (x : Float) : ℚ := (valueOf? x).getD 0

theorem value_finite (h : decode x = .finite negative m a) : value x = amount negative m a := by
  rw [value, valueOf?_finite h, Option.getD_some]

theorem amount_zero (negative : Bool) (a : ℤ) : amount negative 0 a = 0 := by
  simp [amount]

theorem amount_pos (hm : 0 < m) : 0 < amount false m a := by
  unfold amount
  have : (0 : ℚ) < m := by exact_mod_cast hm
  simp only [Bool.false_eq_true, if_false]
  positivity

theorem amount_neg : amount true m a = -amount false m a := by
  simp [amount]

/-- A greater power of two makes the greater double, whatever the significands are. -/
theorem Double.lt_of_power (h : Double m a) (h' : Double n b) (hab : a < b) :
    (m : ℚ) * 2 ^ a < n * 2 ^ b := by
  have hbits : (m : ℚ) < 2 ^ 53 := by exact_mod_cast h.bits
  have hfull : (2 : ℚ) ^ 52 ≤ n := by
    have hleast := h.least
    have hn : 2 ^ 52 ≤ n := by
      by_contra hlt
      have := h'.full (by omega)
      omega
    exact_mod_cast hn
  calc (m : ℚ) * 2 ^ a < 2 ^ 53 * 2 ^ a := by gcongr
    _ = 2 ^ 52 * 2 ^ (a + 1) := by rw [zpow_add_one₀ two_ne_zero]; ring
    _ ≤ 2 ^ 52 * 2 ^ b := by gcongr; exacts [one_le_two, hab]
    _ ≤ n * 2 ^ b := by gcongr

/-- **Doubles are ordered by their powers of two**, and of one power by their significands. -/
theorem Double.lt_iff (h : Double m a) (h' : Double n b) :
    (m : ℚ) * 2 ^ a < n * 2 ^ b ↔ a < b ∨ (a = b ∧ m < n) := by
  rcases lt_trichotomy a b with hab | rfl | hab
  · exact iff_of_true (h.lt_of_power h' hab) (.inl hab)
  · have hpos : (0 : ℚ) < 2 ^ a := by positivity
    simp [mul_lt_mul_iff_left₀ hpos]
  · refine iff_of_false (h'.lt_of_power h hab).not_gt ?_
    omega

/-! ## The order -/

theorem compare_lex {e e' : ℤ} {m m' : ℕ} :
    ((compare e e').then (compare m m') = .lt ↔ e < e' ∨ (e = e' ∧ m < m')) := by
  rw [Ordering.then_eq_lt, compare_lt_iff_lt, compare_eq_iff_eq, compare_lt_iff_lt]

theorem compare_lex_gt {e e' : ℤ} {m m' : ℕ} :
    ((compare e e').then (compare m m') = .gt ↔ e' < e ∨ (e' = e ∧ m' < m)) := by
  rw [Ordering.then_eq_gt, compare_gt_iff_gt, compare_eq_iff_eq, compare_gt_iff_gt, eq_comm]

theorem lt_iff_unpack {x y : Float} :
    x < y ↔ x.toModel.unpack.compare y.toModel.unpack = some .lt := by
  show decide ((x.toModel.unpack.compare y.toModel.unpack == some .lt) = true) = true ↔ _
  simp

theorem isFinite_iff : isFinite x = true ↔ ∃ negative m e, decode x = .finite negative m e := by
  unfold isFinite
  split
  · rename_i negative m e h
    exact ⟨fun _ => ⟨negative, m, e, h⟩, fun _ => rfl⟩
  · rename_i h
    refine ⟨fun h => by simp at h, ?_⟩
    rintro ⟨negative, m, e, hfinite⟩
    exact absurd hfinite (h negative m e)

theorem amount_false_lt (h : Double m a) (h' : Double n b) :
    amount false m a < amount false n b ↔ a < b ∨ (a = b ∧ m < n) := by
  simpa only [amount, Bool.false_eq_true, if_false] using h.lt_iff h'

/-- **Finite doubles are compared as the numbers that they stand for.** -/
theorem lt_iff_value (hx : isFinite x = true) (hy : isFinite y = true) :
    x < y ↔ value x < value y := by
  obtain ⟨s, m, a, hx⟩ := isFinite_iff.1 hx
  obtain ⟨t, n, b, hy⟩ := isFinite_iff.1 hy
  have hdouble := (decode_finite hx).1
  have hdouble' := (decode_finite hy).1
  rw [lt_iff_unpack, value_finite hx, value_finite hy]
  rcases unpack_of_finite hx with ⟨rfl, hux⟩ | ⟨hm, hux⟩ <;>
    rcases unpack_of_finite hy with ⟨rfl, huy⟩ | ⟨hn, huy⟩ <;> rw [hux, huy]
  · simp [Float.Model.UnpackedFloat.compare, amount_zero]
  · have hpos := amount_pos (a := b) hn
    cases t <;>
      simp [Float.Model.UnpackedFloat.compare, signOf, amount_zero, amount_neg, hpos, hpos.le]
  · have hpos := amount_pos (a := a) hm
    cases s <;>
      simp [Float.Model.UnpackedFloat.compare, signOf, amount_zero, amount_neg, hpos, hpos.le]
  · have hpos := amount_pos (a := a) hm
    have hpos' := amount_pos (a := b) hn
    cases s <;> cases t
    · -- both above zero
      rw [amount_false_lt hdouble hdouble', ← compare_lex]
      simp [Float.Model.UnpackedFloat.compare, signOf]
    · have : ¬ amount false m a < amount true n b := by rw [amount_neg]; linarith
      simp [Float.Model.UnpackedFloat.compare, signOf, this]
    · have : amount true m a < amount false n b := by rw [amount_neg]; linarith
      simp [Float.Model.UnpackedFloat.compare, signOf, this]
    · -- both below zero: the other way round
      rw [amount_neg, amount_neg, neg_lt_neg_iff, amount_false_lt hdouble' hdouble,
        ← compare_lex_gt]
      simp [Float.Model.UnpackedFloat.compare, signOf]

/-! ## Products of scores -/

theorem le_iff_unpack {x y : Float} :
    x ≤ y ↔ (x.toModel.unpack.compare y.toModel.unpack).any (·.isLE) = true := by
  show decide ((x.toModel.unpack.compare y.toModel.unpack).any (·.isLE) = true) = true ↔ _
  simp

theorem unpack_zero : (0.0 : Float).toModel.unpack = .zero .positive := by
  rfl

theorem unpack_one : (1.0 : Float).toModel.unpack =
    .finite .positive (2 ^ 52) (-52) (by decide) := by
  rfl

/-- What the parts of a double between zero and one are: the greatest has the power of one. -/
inductive Small : Float.Model.UnpackedFloat → Prop where
  | zero (s : Sign) : Small (.zero s)
  | finite (s : Sign) {m : ℕ} {e : ℤ} (hm : 0 < m) (hbits : m < 2 ^ 53) (he : e ≤ -52) :
      Small (.finite s m e hm)

theorem isFinite_of_exponent (h : unpackExponent (bits x) ≠ -1#11) : isFinite x = true := by
  rw [Ne, exponent_iff] at h
  refine isFinite_iff.2 ?_
  unfold decode
  simp only [h, if_false]
  split_ifs <;> exact ⟨_, _, _, rfl⟩

theorem unpack_of_exponent (h : unpackExponent (bits x) = -1#11) :
    x.toModel.unpack = .notANumber ∨ ∃ s, x.toModel.unpack = .infinity s := by
  show unpack .binary64 (bits x) = _ ∨ ∃ s, unpack .binary64 (bits x) = _
  unfold unpack
  rw [if_pos h]
  split_ifs
  · exact .inr ⟨_, rfl⟩
  · exact .inl rfl

theorem isFinite_of_within (hleast : 0.0 ≤ x) (hmost : x ≤ 1.0) : isFinite x = true := by
  apply isFinite_of_exponent
  intro he
  rw [le_iff_unpack, unpack_zero] at hleast
  rw [le_iff_unpack, unpack_one] at hmost
  rcases unpack_of_exponent he with hx | ⟨s, hx⟩ <;> rw [hx] at hleast hmost
  · exact absurd hleast (by decide)
  · cases s
    · exact absurd hleast (by decide)
    · exact absurd hmost (by decide)

theorem small_of_within (hleast : 0.0 ≤ x) (hmost : x ≤ 1.0) : Small x.toModel.unpack := by
  obtain ⟨negative, m, e, hx⟩ := isFinite_iff.1 (isFinite_of_within hleast hmost)
  have hdouble := (decode_finite hx).1
  rw [le_iff_unpack, unpack_zero] at hleast
  rw [le_iff_unpack, unpack_one] at hmost
  rcases unpack_of_finite hx with ⟨-, hu⟩ | ⟨hm, hu⟩ <;> rw [hu] at hleast hmost ⊢
  · exact .zero _
  · refine .finite _ hm hdouble.bits ?_
    cases negative
    · by_contra hgt
      have : compare e (-52) = .gt := compare_gt_iff_gt.2 (by omega)
      simp [Float.Model.UnpackedFloat.compare, signOf, this] at hmost
    · exact absurd hleast (by simp [Float.Model.UnpackedFloat.compare, signOf])

/-! The product of two significands has at most 106 bits. It is shifted to 53 and rounded, and
shifted once more if a bit was carried; each time the power of two grows by what is shifted out.
The bounds are not sharp: it is enough that the power stays far below the greatest one. -/

theorem mantissa_shift_le (em : ExtendedMantissa) (k : ℕ) :
    (em >>> k).mantissa ≤ em.mantissa := by
  show (k.repeat ExtendedMantissa.shiftRightOne em).mantissa ≤ _
  induction k with
  | zero => exact le_rfl
  | succ k ih => exact (Nat.div_le_self _ 2).trans ih

theorem roundedMantissa_le (em : ExtendedMantissa) : em.roundedMantissa ≤ em.mantissa + 1 := by
  obtain ⟨m, _ | _, _ | _⟩ := em <;>
    simp [ExtendedMantissa.roundedMantissa, ExtendedMantissa.accuracy, Accuracy.roundToNearestEven]
  omega

theorem mantissa_shiftToTarget_le (f : Format) (m : ℕ) (e : ℤ) :
    (shiftToTargetExponent f m e .exact).1.mantissa ≤ m :=
  mantissa_shift_le _ _

/-- A significand is shifted only as far as it has more than 53 bits, or the power is too low. -/
theorem exponent_shiftToTarget_le {k : ℕ} (hm : m < 2 ^ (k + 1)) {e b : ℤ} (he : e ≤ b)
    (hk : k + 1 + e ≤ b + 53) (hb : -1074 ≤ b) :
    (shiftToTargetExponent .binary64 m e .exact).2 ≤ b := by
  have hlog : m.log2 < k + 1 := by
    rcases Nat.eq_zero_or_pos m with rfl | hpos
    · simp
    · exact (Nat.log2_lt hpos.ne').2 hm
  show e + ((max (((m.log2 : ℕ) : ℤ) + 1 + e - 53) (-1074) - e).toNat : ℤ) ≤ b
  omega

/-- What comes to a finite double when it is packed. -/
inductive Fits : Float.Model.UnpackedFloat → Prop where
  | zero (s : Sign) : Fits (.zero s)
  | finite (s : Sign) {m : ℕ} {e : ℤ} (hm : 0 < m) (he : e ≤ 3) : Fits (.finite s m e hm)

theorem Fits.exponent {u : Float.Model.UnpackedFloat} (h : Fits u) :
    unpackExponent (pack .binary64 u) ≠ -1#11 := by
  cases h with
  | zero s =>
    rw [pack, packedZero, unpackExponent_packComponents]
    decide
  | finite s hm he =>
    rename_i m e
    rw [pack]
    have hbiased : (e + Format.binary64.exponentBias + 52).toNat < 2 ^ 11 - 1 := by
      show (e + 1023 + 52).toNat < _
      omega
    dsimp only
    rw [if_neg (by omega)]
    split_ifs
    · rw [unpackExponent_packComponents, Ne, ← BitVec.toNat_inj, BitVec.toNat_ofNat,
        Nat.mod_eq_of_lt (by omega)]
      exact hbiased.ne
    · rw [unpackExponent_packComponents]
      decide

theorem Small.mul_fits {u v : Float.Model.UnpackedFloat} (hu : Small u) (hv : Small v) :
    Fits (mul .binary64 u v) := by
  cases hu with
  | zero s => cases hv <;> exact .zero _
  | finite s hm hbits he =>
    cases hv with
    | zero => exact .zero _
    | finite t hn hbits' he' =>
      rename_i m e n e'
      have hproduct : m * n < 2 ^ (105 + 1) := by
        calc m * n < 2 ^ 53 * 2 ^ 53 := Nat.mul_lt_mul_of_lt_of_lt hbits hbits'
          _ = 2 ^ (105 + 1) := by norm_num
      have hfirst := exponent_shiftToTarget_le hproduct (e := e + e') (b := -51) (by omega)
        (by push_cast; omega) (by omega)
      have hkept := mantissa_shiftToTarget_le .binary64 (m * n) (e + e')
      rw [mul, roundWithAccuracy]
      generalize shiftToTargetExponent .binary64 (m * n) (e + e') .exact = first at *
      have hrounded : first.1.roundedMantissa < 2 ^ (106 + 1) := by
        have := roundedMantissa_le first.1
        omega
      have hsecond := exponent_shiftToTarget_le hrounded (e := first.2) (b := 3) (by omega)
        (by push_cast; omega) (by omega)
      dsimp only
      split_ifs
      · exact .zero _
      · exact .finite _ _ hsecond

/-- **The product of two doubles between zero and one is finite.** -/
theorem isFinite_mul (hx : 0.0 ≤ x ∧ x ≤ 1.0) (hy : 0.0 ≤ y ∧ y ≤ 1.0) :
    isFinite (x * y) = true :=
  isFinite_of_exponent
    ((small_of_within hx.1 hx.2).mul_fits (small_of_within hy.1 hy.2)).exponent

end RepairLoop.Number

/-!
## Places — rounding to decimal places keeps the order

Rounding to the nearest integer, a half going to the even neighbour, never takes a smaller
fraction to a larger integer than a larger one (`roundDiv_mono`): where two fractions are
rounded across each other they are the same half. So rounding to decimal places keeps the
order of what is not negative (`roundRat_mono`), and zero and one are what they were.
-/

namespace RepairLoop.Number

variable {n d n' d' : ℕ} {r s : ℚ}

/-- The nearest integer is at most a half away, at a half it is even. -/
theorem roundDiv_spec (n : ℕ) (hd : 0 < d) :
    2 * roundDiv n d * d ≤ 2 * n + d ∧ 2 * n ≤ (2 * roundDiv n d + 1) * d ∧
      (roundDiv n d % 2 = 0 ∨
        (2 * roundDiv n d * d < 2 * n + d ∧ 2 * n < (2 * roundDiv n d + 1) * d)) := by
  have hn : n = d * (n / d) + n % d := (Nat.div_add_mod n d).symm
  have hr : n % d < d := Nat.mod_lt n hd
  unfold roundDiv
  generalize n / d = q at *
  generalize n % d = r at *
  subst hn
  dsimp only
  have hbelow : 2 * (d * q + r) = 2 * q * d + 2 * r := by ring
  have habove : 2 * (q + 1) * d = 2 * q * d + 2 * d := by ring
  have hhalf : (2 * q + 1) * d = 2 * q * d + d := by ring
  have hnext : (2 * (q + 1) + 1) * d = 2 * q * d + 3 * d := by ring
  split
  · omega
  · split
    · omega
    · split <;> omega

/-- **Rounding to the nearest integer keeps the order of fractions.** -/
theorem roundDiv_mono (hd : 0 < d) (hd' : 0 < d') (h : n * d' ≤ n' * d) :
    roundDiv n d ≤ roundDiv n' d' := by
  obtain ⟨hlow, -, htie⟩ := roundDiv_spec n hd
  obtain ⟨-, hhigh, htie'⟩ := roundDiv_spec n' hd'
  generalize roundDiv n d = q at *
  generalize roundDiv n' d' = q' at *
  by_contra hlt
  obtain ⟨k, rfl⟩ : ∃ k, q = q' + 1 + k := ⟨q - (q' + 1), by omega⟩
  have hpos : 0 < d * d' := Nat.mul_pos hd hd'
  have hleft := Nat.mul_le_mul_right d' hlow
  have hright := Nat.mul_le_mul_right d hhigh
  -- both fractions are the half between the two integers, of which one is even
  have hk : k = 0 := by
    by_contra hk
    have : d * d' ≤ k * (d * d') := Nat.le_mul_of_pos_left _ (by omega)
    nlinarith
  subst hk
  rcases htie with heven | ⟨hstrict, -⟩
  · rcases htie' with heven' | ⟨-, hstrict⟩
    · omega
    · have hstrict := Nat.mul_lt_mul_of_pos_right hstrict hd
      nlinarith
  · have hstrict := Nat.mul_lt_mul_of_pos_right hstrict hd'
    nlinarith

theorem roundRat_of_nonneg (places : ℕ) (hr : 0 ≤ r) :
    roundRat places r = roundDiv (r.num.natAbs * tenTo places) r.den / (tenTo places : ℕ) := by
  unfold roundRat
  rw [if_neg (not_lt.2 hr)]

/-- **Rounding to decimal places keeps the order** of what is not negative. -/
theorem roundRat_mono (places : ℕ) (hr : 0 ≤ r) (h : r ≤ s) : roundRat places r ≤ roundRat places s := by
  rw [roundRat_of_nonneg places hr, roundRat_of_nonneg places (hr.trans h)]
  have hnum : r.num.natAbs * s.den ≤ s.num.natAbs * r.den := by
    have hle := (Rat.le_iff r s).1 h
    rw [← Int.natAbs_of_nonneg (Rat.num_nonneg.2 hr),
      ← Int.natAbs_of_nonneg (Rat.num_nonneg.2 (hr.trans h))] at hle
    exact_mod_cast hle
  have hround : roundDiv (r.num.natAbs * tenTo places) r.den ≤
      roundDiv (s.num.natAbs * tenTo places) s.den :=
    roundDiv_mono r.den_pos s.den_pos (by nlinarith)
  gcongr

theorem roundRat_zero (places : ℕ) : roundRat places 0 = 0 := by
  simp [roundRat, roundDiv]

theorem roundRat_one (places : ℕ) : roundRat places 1 = 1 := by
  have hten : ((tenTo places : ℕ) : ℚ) ≠ 0 := by
    have : tenTo places ≠ 0 := (Nat.pow_pos (by decide)).ne'
    exact_mod_cast this
  rw [roundRat_of_nonneg places zero_le_one]
  simp [roundDiv, Nat.mod_one, hten]

/-- Between zero and one nothing is rounded out of there. -/
theorem roundRat_mem (places : ℕ) (hr : 0 ≤ r) (h : r ≤ 1) :
    0 ≤ roundRat places r ∧ roundRat places r ≤ 1 := by
  constructor
  · simpa only [roundRat_zero] using roundRat_mono places le_rfl hr
  · simpa only [roundRat_one] using roundRat_mono places hr h

end RepairLoop.Number
