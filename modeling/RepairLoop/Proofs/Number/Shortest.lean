import RepairLoop.Proofs.Number.Rounding
/-!
# Shortest — the digits in which a double is written read back

The search for the fewest digits looks through finer and finer grids of decimals, and takes
a point of the first one that has a point near the double. It does not run out of grids: the
seventeenth one is so fine that one of the two points around the double is near it
(`shortest_spec`). The decimal that is found comes to the double (`ofDecimal_of_near`).
-/

namespace RepairLoop.Number

variable {m num den d k fuel : ℕ} {lo v hi : ℕ} {e s point : ℤ} {closed : Bool}

theorem tenTo_pos (k : ℕ) : 0 < tenTo k := Nat.pow_pos (by decide)

theorem twoTo_pos (k : ℕ) : 0 < twoTo k := Nat.pow_pos (by decide)

theorem cast_tenTo (k : ℕ) : ((tenTo k : ℕ) : ℚ) = 10 ^ (k : ℤ) := by
  rw [zpow_natCast]
  exact Nat.cast_pow 10 k

/-! ## Grids -/

/-- A fraction counted in a power of ten. -/
theorem scaled_spec (num : ℕ) (s : ℤ) (hden : 0 < den) :
    0 < (scaled num den s).2 ∧
      ((scaled num den s).1 : ℚ) = num / den * 10 ^ (-s) * (scaled num den s).2 := by
  have hden' : (den : ℚ) ≠ 0 := by positivity
  unfold scaled
  split
  · rename_i hs
    obtain ⟨k, rfl⟩ := Int.eq_ofNat_of_zero_le hs
    refine ⟨by simp [tenTo, hden], ?_⟩
    simp only [Int.toNat_natCast, Nat.cast_mul, cast_tenTo, zpow_neg]
    field_simp
  · rename_i hs
    obtain ⟨k, hk⟩ := Int.eq_ofNat_of_zero_le (show 0 ≤ -s by omega)
    refine ⟨hden, ?_⟩
    simp only [hk, Int.toNat_natCast, Nat.cast_mul, cast_tenTo]
    field_simp

/-- The fractions of one denominator are counted in one unit. -/
theorem scaled_snd (num num' : ℕ) : (scaled num den s).2 = (scaled num' den s).2 := by
  unfold scaled
  split <;> rfl

/-- A point of a grid lies between two fractions; the ends belong or not. -/
def Between (lo hi : ℚ) (closed : Bool) (x : ℚ) : Prop :=
  lo ≤ x ∧ x ≤ hi ∧ (closed = true ∨ (lo < x ∧ x < hi))

/-- The grid's test of a point. -/
def isInside (lo v hi den : ℕ) (closed : Bool) (s : ℤ) (d : ℕ) : Bool :=
  if closed then
    (scaled lo den s).1 ≤ d * (scaled v den s).2 && d * (scaled v den s).2 ≤ (scaled hi den s).1
  else (scaled lo den s).1 < d * (scaled v den s).2 && d * (scaled v den s).2 < (scaled hi den s).1

theorem isInside_iff (hden : 0 < den) :
    isInside lo v hi den closed s d = true ↔
      Between (lo / den) (hi / den) closed ((d : ℚ) * 10 ^ s) := by
  obtain ⟨hpos, -⟩ := scaled_spec v s hden
  have hlo := (scaled_spec lo s hden).2
  have hhi := (scaled_spec hi s hden).2
  rw [scaled_snd lo v] at hlo
  rw [scaled_snd hi v] at hhi
  have hposq : (0 : ℚ) < (scaled v den s).2 := by exact_mod_cast hpos
  have hpow : (0 : ℚ) < 10 ^ s := by positivity
  have hle (x : ℕ) (y : ℚ) :
      y * 10 ^ (-s) * (scaled v den s).2 ≤ ((x * (scaled v den s).2 : ℕ) : ℚ) ↔
        y ≤ x * 10 ^ s := by
    rw [Nat.cast_mul, mul_le_mul_iff_left₀ hposq, zpow_neg, ← div_eq_mul_inv, div_le_iff₀ hpow]
  have hge (x : ℕ) (y : ℚ) :
      ((x * (scaled v den s).2 : ℕ) : ℚ) ≤ y * 10 ^ (-s) * (scaled v den s).2 ↔
        x * 10 ^ s ≤ y := by
    rw [Nat.cast_mul, mul_le_mul_iff_left₀ hposq, zpow_neg, ← div_eq_mul_inv, le_div_iff₀ hpow]
  have hlole : (scaled lo den s).1 ≤ d * (scaled v den s).2 ↔ (lo / den : ℚ) ≤ d * 10 ^ s := by
    rw [← @Nat.cast_le ℚ, hlo, hle]
  have hhige : d * (scaled v den s).2 ≤ (scaled hi den s).1 ↔ (d * 10 ^ s : ℚ) ≤ hi / den := by
    rw [← @Nat.cast_le ℚ, hhi, hge]
  have hlolt : (scaled lo den s).1 < d * (scaled v den s).2 ↔ (lo / den : ℚ) < d * 10 ^ s := by
    rw [← not_le, ← not_le, ← @Nat.cast_le ℚ, hlo, hge]
  have hhigt : d * (scaled v den s).2 < (scaled hi den s).1 ↔ (d * 10 ^ s : ℚ) < hi / den := by
    rw [← not_le, ← not_le, ← @Nat.cast_le ℚ, hhi, hle]
  unfold isInside Between
  cases closed with
  | true => simp [hlole, hhige]
  | false =>
    simp only [Bool.false_eq_true, if_false, Bool.and_eq_true, decide_eq_true_eq, hlolt, hhigt,
      false_or]
    constructor
    · intro h
      exact ⟨h.1.le, h.2.le, h⟩
    · intro h
      exact h.2.2

/-- The point of a grid that is taken for `a / b`, of the one below and the one above it, if
it is known which of them lie inside: of both the nearer one, and of two that are equally near
the even one. -/
def chosen (a b : ℕ) : Bool → Bool → Option ℕ
  | true, false => some (a / b)
  | false, true => some (a / b + 1)
  | false, false => none
  | true, true =>
    let below := a / b
    let down := a - below * b
    let up := (below + 1) * b - a
    if down < up then some below
    else if up < down then some (below + 1)
    else if below % 2 = 0 then some below else some (below + 1)

/-- What is hit lies inside, and there is a hit where one of the points around the middle
lies inside. -/
theorem gridHit?_cases (lo v hi den : ℕ) (closed : Bool) (s : ℤ) :
    (∃ d, gridHit? lo v hi den closed s = some d ∧ isInside lo v hi den closed s d = true) ∨
      (gridHit? lo v hi den closed s = none ∧
        isInside lo v hi den closed s ((scaled v den s).1 / (scaled v den s).2) = false ∧
        isInside lo v hi den closed s ((scaled v den s).1 / (scaled v den s).2 + 1) = false) := by
  have hhit : gridHit? lo v hi den closed s =
      chosen (scaled v den s).1 (scaled v den s).2
        (isInside lo v hi den closed s ((scaled v den s).1 / (scaled v den s).2))
        (isInside lo v hi den closed s ((scaled v den s).1 / (scaled v den s).2 + 1)) := by
    rfl
  rw [hhit]
  cases hbelow : isInside lo v hi den closed s ((scaled v den s).1 / (scaled v den s).2) <;>
    cases habove : isInside lo v hi den closed s ((scaled v den s).1 / (scaled v den s).2 + 1)
  · exact .inr ⟨rfl, rfl, rfl⟩
  · exact .inl ⟨_, rfl, habove⟩
  · exact .inl ⟨_, rfl, hbelow⟩
  · dsimp only [chosen]
    split
    · exact .inl ⟨_, rfl, hbelow⟩
    · split
      · exact .inl ⟨_, rfl, habove⟩
      · split
        · exact .inl ⟨_, rfl, hbelow⟩
        · exact .inl ⟨_, rfl, habove⟩

/-- **A fine grid has a hit**: one of the two points around the middle is at most half a step
away from it. -/
theorem exists_gridHit? (hden : 0 < den) (hlo : (10 : ℚ) ^ s / 2 < v / den - lo / den)
    (hhi : (10 : ℚ) ^ s / 2 < hi / den - v / den) :
    ∃ d, gridHit? lo v hi den closed s = some d := by
  rcases gridHit?_cases lo v hi den closed s with ⟨d, hd, -⟩ | ⟨-, hbelow, habove⟩
  · exact ⟨d, hd⟩
  · exfalso
    obtain ⟨hpos, hvalue⟩ := scaled_spec v s hden
    rw [← Bool.not_eq_true, isInside_iff hden] at hbelow habove
    generalize (scaled v den s).1 = a at *
    generalize (scaled v den s).2 = b at *
    have hposq : (0 : ℚ) < b := by exact_mod_cast hpos
    have hpow : (0 : ℚ) < 10 ^ s := by positivity
    have hmiddle : (v / den : ℚ) = a / b * 10 ^ s := by
      rw [hvalue, zpow_neg]
      field_simp
    have hfloor : ((a / b : ℕ) : ℚ) ≤ a / b := Nat.cast_div_le
    have hceil : (a / b : ℚ) < (a / b : ℕ) + 1 := by
      rw [div_lt_iff₀ hposq]
      exact_mod_cast Nat.lt_mul_of_div_lt (Nat.lt_succ_self _) hpos
    rw [Nat.cast_add, Nat.cast_one] at habove
    generalize ((a / b : ℕ) : ℚ) = k at *
    rw [hmiddle] at hlo hhi
    by_cases hhalf : (a / b : ℚ) ≤ k + 1 / 2
    · exact hbelow ⟨by nlinarith, by nlinarith, .inr ⟨by nlinarith, by nlinarith⟩⟩
    · exact habove ⟨by nlinarith, by nlinarith, .inr ⟨by nlinarith, by nlinarith⟩⟩

/-- The search ends with a hit if there is one among the grids. -/
theorem shortestFrom_hit {j : ℕ} (hfrom : k ≤ j) (hto : j < k + fuel)
    (hhit : gridHit? lo v hi den closed (point - j) = some d) (hd : d ≠ 0) :
    ∃ d s, shortestFrom lo v hi den closed point fuel k = normalised d s ∧ d ≠ 0 ∧
      gridHit? lo v hi den closed s = some d := by
  induction fuel generalizing k with
  | zero => omega
  | succ fuel ih =>
    rw [shortestFrom]
    have hlater (hne : k ≠ j) := ih (k := k + 1) (by omega) (by omega)
    split
    · rename_i d' hd'
      by_cases hzero : d' = 0
      · rw [if_pos hzero]
        refine hlater fun heq => ?_
        subst heq
        rw [hhit] at hd'
        exact hd ((Option.some.inj hd').trans hzero)
      · rw [if_neg hzero]
        exact ⟨d', _, rfl, hzero, hd'⟩
    · rename_i hnone
      refine hlater fun heq => ?_
      subst heq
      rw [hhit] at hnone
      cases hnone

/-! ## The place of the point -/

/-- A number has no more digits than its size asks for. -/
theorem pow_length_toDigits_le {n : ℕ} (hn : 0 < n) :
    10 ^ ((Nat.toDigits 10 n).length - 1) ≤ n := by
  by_contra hlt
  have hlength : 0 < (Nat.toDigits 10 n).length :=
    List.length_pos_iff.2 Nat.toDigits_ne_nil
  rcases Nat.eq_zero_or_pos ((Nat.toDigits 10 n).length - 1) with hzero | hpos
  · rw [hzero] at hlt
    omega
  · have := (Nat.length_toDigits_le_iff (by decide) hpos).2 (Nat.lt_of_not_le hlt)
    omega

/-- The first digit of a fraction is not before its place. -/
theorem pointOf_spec (hden : 0 < den) (hnum : den ≤ num * tenTo 400) :
    (10 : ℚ) ^ (pointOf num den - 1) ≤ num / den := by
  have hpos : 0 < num * tenTo 400 / den := Nat.div_pos hnum hden
  have hle := pow_length_toDigits_le hpos
  have hlength : 0 < (Nat.toDigits 10 (num * tenTo 400 / den)).length :=
    List.length_pos_iff.2 Nat.toDigits_ne_nil
  have hten : ((tenTo 400 : ℕ) : ℚ) = (10 : ℚ) ^ (400 : ℤ) := cast_tenTo 400
  have hdigits : (((Nat.toDigits 10 (num * tenTo 400 / den)).length - 1 : ℕ) : ℤ) =
      pointOf num den - 1 + 400 := by
    unfold pointOf digitsOf
    omega
  have hcast : (10 : ℚ) ^ (pointOf num den - 1 + 400) ≤ ((num * tenTo 400 / den : ℕ) : ℚ) := by
    rw [← hdigits, zpow_natCast]
    exact_mod_cast hle
  have hfloor : ((num * tenTo 400 / den : ℕ) : ℚ) ≤ ((num * tenTo 400 : ℕ) : ℚ) / den :=
    Nat.cast_div_le
  have hscaled :
      (10 : ℚ) ^ (pointOf num den - 1) * 10 ^ (400 : ℤ) ≤ num / den * 10 ^ (400 : ℤ) := by
    rw [← zpow_add₀ (by norm_num), ← hten]
    refine hcast.trans (hfloor.trans (le_of_eq ?_))
    rw [Nat.cast_mul]
    ring
  exact le_of_mul_le_mul_right hscaled (by positivity)

/-! ## The fewest digits -/

/-- The unit of the search, a quarter of the last place, as a fraction. -/
def quarter (e : ℤ) : ℕ × ℕ :=
  if e ≥ 2 then (twoTo (e - 2).toNat, 1) else (1, twoTo (2 - e).toNat)

theorem quarter_spec (e : ℤ) :
    0 < (quarter e).2 ∧ ((quarter e).1 : ℚ) / (quarter e).2 = 2 ^ (e - 2) := by
  unfold quarter
  split
  · rename_i he
    obtain ⟨k, hk⟩ := Int.eq_ofNat_of_zero_le (show 0 ≤ e - 2 by omega)
    refine ⟨Nat.one_pos, ?_⟩
    simp [hk, twoTo]
  · rename_i he
    obtain ⟨k, hk⟩ := Int.eq_ofNat_of_zero_le (show 0 ≤ 2 - e by omega)
    have hk' : e - 2 = -(k : ℤ) := by omega
    refine ⟨by simp [twoTo], ?_⟩
    simp [hk, hk', twoTo]

theorem shortest_eq (hm : m ≠ 0) (e : ℤ) :
    shortest m e = shortestFrom (lowEnd m e * (quarter e).1) (4 * m * (quarter e).1)
      (highEnd m * (quarter e).1) (quarter e).2 (m % 2 == 0)
      (pointOf (4 * m * (quarter e).1) (quarter e).2) 18 1 := by
  unfold shortest
  rw [if_neg hm]
  rfl

theorem twoTo_le_tenTo {j : ℕ} (h : k ≤ 3 * j) : twoTo k ≤ tenTo j := by
  have hpow : 2 ^ k ≤ 2 ^ (3 * j) := Nat.pow_le_pow_right (by decide) h
  rw [Nat.pow_mul] at hpow
  exact hpow.trans (Nat.pow_le_pow_left (by decide) j)

/-- No double has a quarter so small that its first digit is out of sight. -/
theorem quarter_le (hx : Double m e) (hm : 0 < m) :
    (quarter e).2 ≤ 4 * m * (quarter e).1 * tenTo 400 := by
  have hle : (quarter e).2 ≤ tenTo 400 := by
    have hleast := hx.least
    unfold quarter
    split
    · exact tenTo_pos 400
    · exact twoTo_le_tenTo (by omega)
  have hpos : 0 < (quarter e).1 := by
    unfold quarter
    split
    · exact twoTo_pos _
    · exact Nat.one_pos
  exact hle.trans (Nat.le_mul_of_pos_left _ (Nat.mul_pos (by omega) hpos))

/-- The sixteenth decimal place behind the first digit is finer than the room below and
above a double. -/
theorem step_lt_room (hx : Double m e) (hm : 0 < m) {u step : ℚ} (hu : 0 < u)
    (hstep : step * 10 ^ 16 ≤ 4 * m * u) :
    step / 2 < 4 * m * u - lowEnd m e * u ∧ step / 2 < highEnd m * u - 4 * m * u := by
  have hbits : (m : ℚ) < 2 ^ 53 := by exact_mod_cast hx.bits
  have hroom : step / 2 < 2 * u := by nlinarith
  refine ⟨?_, by unfold highEnd; push_cast; linarith⟩
  unfold lowEnd
  split
  · rename_i hpower
    simp only [Bool.and_eq_true, decide_eq_true_eq] at hpower
    have hm52 : m = 2 ^ 52 := hpower.1
    have hcast : ((4 * m - 1 : ℕ) : ℚ) = 4 * m - 1 := by
      rw [Nat.cast_sub (by omega)]
      push_cast
      ring
    have hmq : (m : ℚ) = 2 ^ 52 := by exact_mod_cast hm52
    rw [hcast, hmq]
    rw [hmq] at hstep
    norm_num at hstep ⊢
    linarith
  · have hcast : ((4 * m - 2 : ℕ) : ℚ) = 4 * m - 2 := by
      rw [Nat.cast_sub (by omega)]
      push_cast
      ring
    rw [hcast]
    linarith

/-- **The fewest digits are near the double.** -/
theorem shortest_spec (hx : Double m e) (hm : 0 < m) :
    ∃ d s, shortest m e = normalised d s ∧ d ≠ 0 ∧ Near m e ((d : ℚ) * 10 ^ s) := by
  obtain ⟨hden, hunit⟩ := quarter_spec e
  rw [shortest_eq (by omega)]
  have hunits (k : ℕ) : ((k * (quarter e).1 : ℕ) : ℚ) / (quarter e).2 = k * 2 ^ (e - 2) := by
    rw [Nat.cast_mul, mul_div_assoc, hunit]
  have hnear (d : ℕ) (s : ℤ) (hhit : gridHit? (lowEnd m e * (quarter e).1) (4 * m * (quarter e).1)
      (highEnd m * (quarter e).1) (quarter e).2 (m % 2 == 0) s = some d) :
      Near m e ((d : ℚ) * 10 ^ s) := by
    rcases gridHit?_cases (lowEnd m e * (quarter e).1) (4 * m * (quarter e).1)
      (highEnd m * (quarter e).1) (quarter e).2 (m % 2 == 0) s with ⟨d', hd', hin⟩ | ⟨hnone, -⟩
    · rw [hhit] at hd'
      obtain rfl := Option.some.inj hd'
      obtain ⟨hlow, hhigh, htie⟩ := (isInside_iff hden).1 hin
      rw [hunits, hunits] at htie
      rw [hunits] at hlow hhigh
      exact ⟨hlow, hhigh, htie.imp_left fun h => by simpa using h⟩
    · rw [hhit] at hnone
      cases hnone
  have hpoint := pointOf_spec hden (quarter_le hx hm)
  generalize pointOf (4 * m * (quarter e).1) (quarter e).2 = point at *
  have hstep : (10 : ℚ) ^ (point - (17 : ℕ)) * 10 ^ 16 ≤ 4 * m * 2 ^ (e - 2) := by
    have hexp : (10 : ℚ) ^ (point - (17 : ℕ)) * 10 ^ (16 : ℤ) = 10 ^ (point - 1) := by
      rw [← zpow_add₀ (by norm_num)]
      congr 1
      push_cast
      ring
    have hunits4 := hunits (4 * m)
    push_cast at hunits4 hpoint
    rw [hunits4, ← hexp] at hpoint
    exact_mod_cast hpoint
  obtain ⟨hbelow, habove⟩ := step_lt_room hx hm (by positivity) hstep
  obtain ⟨d, hd⟩ : ∃ d, gridHit? (lowEnd m e * (quarter e).1) (4 * m * (quarter e).1)
      (highEnd m * (quarter e).1) (quarter e).2 (m % 2 == 0) (point - (17 : ℕ)) = some d := by
    refine exists_gridHit? hden ?_ ?_
    · rw [hunits, hunits]
      push_cast
      exact hbelow
    · rw [hunits, hunits]
      push_cast
      exact habove
  have hpos : d ≠ 0 := by
    rintro rfl
    have hlow := (hnear 0 _ hd).low
    have hend : 0 < lowEnd m e := by
      unfold lowEnd
      split <;> omega
    have hendq : (0 : ℚ) < lowEnd m e * 2 ^ (e - 2) := by positivity
    simp only [Nat.cast_zero, zero_mul] at hlow
    linarith
  obtain ⟨d, s, hshort, hne, hhit⟩ := shortestFrom_hit (by decide : 1 ≤ 17)
    (by decide : 17 < 1 + 18) hd hpos
  exact ⟨d, s, hshort, hne, hnear d s hhit⟩

/-! ## Reading the digits -/

variable {x : Float} {negative : Bool} {a : ℕ} {b : ℤ}

theorem eight_pow_le (k : ℕ) : (2 : ℚ) ^ (3 * k : ℤ) ≤ 10 ^ (k : ℤ) := by
  rw [zpow_mul, zpow_natCast, zpow_natCast]
  exact pow_le_pow_left₀ (by positivity) (by norm_num) k

/-- What is near a double is neither too large nor too small to be read. -/
theorem Near.bounds (hx : Double m e) (hm : 0 < m) {v : ℚ} (h : Near m e v) :
    2 ^ (-1075 : ℤ) ≤ v ∧ v ≤ 2 ^ (1024 : ℤ) := by
  obtain ⟨hlow, hhigh, -⟩ := h.within hm
  have hmq : (1 : ℚ) ≤ m := by exact_mod_cast hm
  have hbits : (m : ℚ) + 1 ≤ 2 ^ 53 := by exact_mod_cast hx.bits
  have hpow : (0 : ℚ) < 2 ^ e := by positivity
  constructor
  · have hleast : (2 : ℚ) ^ (-1075 : ℤ) ≤ 2 ^ (e - 1) :=
      zpow_le_zpow_right₀ one_le_two (by have := hx.least; omega)
    have hhalf : (2 : ℚ) ^ (e - 1) * 2 = 2 ^ e := by
      rw [← zpow_add_one₀ two_ne_zero, sub_add_cancel]
    nlinarith
  · have hmost : (2 : ℚ) ^ (e + 53) ≤ 2 ^ (1024 : ℤ) :=
      zpow_le_zpow_right₀ one_le_two (by have := hx.most; omega)
    have hfull : (2 : ℚ) ^ (e + 53) = 2 ^ e * 2 ^ 53 := by
      rw [zpow_add₀ two_ne_zero]
      rfl
    have htop : ((m : ℚ) + 1 / 2) * 2 ^ e ≤ 2 ^ 53 * 2 ^ e :=
      mul_le_mul_of_nonneg_right (by linarith) hpow.le
    rw [hfull, mul_comm] at hmost
    exact hhigh.trans (htop.trans hmost)

/-- **A decimal near a double is read as the double.** -/
theorem ofDecimal_of_near (hx : decode x = .finite negative m e) (hm : 0 < m)
    (h : Near m e ((a : ℚ) * 10 ^ b)) : ofDecimal negative a b = x := by
  obtain ⟨hdouble, -⟩ := decode_finite hx
  obtain ⟨hlow, hhigh⟩ := h.bounds hdouble hm
  have hten : (1 : ℚ) < 10 := by norm_num
  have ha : a ≠ 0 := by
    rintro rfl
    have : (0 : ℚ) < 2 ^ (-1075 : ℤ) := by positivity
    simp only [Nat.cast_zero, zero_mul] at hlow
    linarith
  have haq : (1 : ℚ) ≤ a := by exact_mod_cast Nat.one_le_iff_ne_zero.2 ha
  have hlarge : ¬ b > 400 := by
    intro hb
    have hlt : (2 : ℚ) ^ (1024 : ℤ) < a * 10 ^ b :=
      calc (2 : ℚ) ^ (1024 : ℤ) < 2 ^ (3 * (401 : ℕ) : ℤ) := pow_lt_iff.2 (by decide)
        _ ≤ 10 ^ ((401 : ℕ) : ℤ) := eight_pow_le 401
        _ ≤ 10 ^ b := zpow_le_zpow_right₀ hten.le (by omega)
        _ ≤ a * 10 ^ b := le_mul_of_one_le_left (by positivity) haq
    exact absurd hhigh (not_le.2 hlt)
  have hsmall : ¬ b + ((Nat.log2 a : ℤ) / 3 + 1) < -400 := by
    intro hb
    have hdigits : (a : ℚ) < 10 ^ ((Nat.log2 a / 3 + 1 : ℕ) : ℤ) := by
      have hlt : a < 2 ^ (3 * (Nat.log2 a / 3 + 1)) :=
        Nat.lt_log2_self.trans_le (Nat.pow_le_pow_right (by decide) (by omega))
      have hltq : (a : ℚ) < 2 ^ (3 * (Nat.log2 a / 3 + 1)) := by exact_mod_cast hlt
      refine lt_of_lt_of_le hltq (le_trans (le_of_eq ?_) (eight_pow_le (Nat.log2 a / 3 + 1)))
      rw [← zpow_natCast]
      push_cast
      rfl
    have hlt : (a : ℚ) * 10 ^ b < 2 ^ (-1075 : ℤ) :=
      calc (a : ℚ) * 10 ^ b < 10 ^ ((Nat.log2 a / 3 + 1 : ℕ) : ℤ) * 10 ^ b :=
            mul_lt_mul_of_pos_right hdigits (by positivity)
        _ = 10 ^ (((Nat.log2 a / 3 + 1 : ℕ) : ℤ) + b) := (zpow_add₀ (by norm_num) _ _).symm
        _ ≤ 10 ^ (-((400 : ℕ) : ℤ)) := zpow_le_zpow_right₀ hten.le (by omega)
        _ ≤ 2 ^ (-(3 * (400 : ℕ) : ℤ)) := by
            rw [zpow_neg, zpow_neg]
            exact inv_anti₀ (by positivity) (eight_pow_le 400)
        _ < 2 ^ (-1075 : ℤ) := pow_lt_iff.2 (by decide)
    exact absurd hlow (not_le.2 hlt)
  unfold ofDecimal
  dsimp only
  rw [if_neg ha, if_neg hlarge, if_neg hsmall]
  split
  · rename_i hb
    obtain ⟨k, rfl⟩ := Int.eq_ofNat_of_zero_le hb
    refine nearest_of_near hx hm Nat.one_pos ?_
    rw [Int.toNat_natCast, Nat.cast_mul, cast_tenTo, Nat.cast_one, div_one]
    exact h
  · rename_i hb
    obtain ⟨k, hk⟩ := Int.eq_ofNat_of_zero_le (show 0 ≤ -b by omega)
    refine nearest_of_near hx hm (tenTo_pos _) ?_
    rw [hk, Int.toNat_natCast, cast_tenTo, ← hk, zpow_neg, div_inv_eq_mul]
    exact h

/-! ## The digits of a decimal -/

/-- The digits of a decimal do not start with a zero, and with the place of the point they
say the number. -/
structure Decimal.Says (t : Decimal) (v : ℚ) : Prop where
  isDigit : ∀ c ∈ t.digits, c.isDigit = true
  head : ∃ c rest, t.digits = c :: rest ∧ c ≠ '0'
  value : (Nat.ofDigitChars 10 t.digits 0 : ℚ) * 10 ^ (t.point - t.digits.length) = v

theorem head_toDigits {n : ℕ} (hn : 0 < n) : ∃ c rest, Nat.toDigits 10 n = c :: rest ∧ c ≠ '0' := by
  induction n using Nat.strong_induction_on with
  | _ n ih =>
    rcases Nat.lt_or_ge n 10 with hlt | hge
    · refine ⟨Nat.digitChar n, [], Nat.toDigits_of_lt_base hlt, ?_⟩
      intro hzero
      have hvalue := Nat.toNat_digitChar_of_lt_ten hlt
      rw [hzero] at hvalue
      simp at hvalue
      omega
    · obtain ⟨c, rest, heq, hc⟩ := ih (n / 10) (by omega) (by omega)
      refine ⟨c, rest ++ [Nat.digitChar (n % 10)], ?_, hc⟩
      rw [Nat.toDigits_of_base_le (by decide) hge, heq, List.cons_append]

/-- Zeros at the end of a number are factors of ten. -/
theorem ofDigitChars_zeros (cs : List Char) (k : ℕ) :
    Nat.ofDigitChars 10 (cs ++ zeros k) 0 = Nat.ofDigitChars 10 cs 0 * 10 ^ k := by
  induction k with
  | zero => simp [zeros]
  | succ k ih =>
    rw [zeros, List.replicate_succ', ← List.append_assoc, Nat.ofDigitChars_append]
    change Nat.ofDigitChars 10 (cs ++ zeros k) 0 = _ at ih
    rw [show List.replicate k '0' = zeros k from rfl, ih, Nat.pow_succ]
    simp [Nat.ofDigitChars_cons]
    ring

/-- Zeros are taken from the end of the digits. -/
theorem normalised_eq (d : ℕ) (s : ℤ) : ∃ ds k, Nat.toDigits 10 d = ds ++ zeros k ∧
    normalised d s = ⟨ds, s + (ds.length + k : ℕ)⟩ := by
  have hall := List.takeWhile_append_dropWhile (p := (· == '0')) (l := (Nat.toDigits 10 d).reverse)
  have hzeros : ((Nat.toDigits 10 d).reverse.takeWhile (· == '0')).reverse =
      zeros ((Nat.toDigits 10 d).reverse.takeWhile (· == '0')).length := by
    rw [zeros, List.eq_replicate_iff]
    refine ⟨by simp, fun c hc => ?_⟩
    simpa using List.mem_takeWhile_imp (List.mem_reverse.1 hc)
  refine ⟨((Nat.toDigits 10 d).reverse.dropWhile (· == '0')).reverse,
    ((Nat.toDigits 10 d).reverse.takeWhile (· == '0')).length, ?_, ?_⟩
  · rw [← hzeros, ← List.reverse_append, hall, List.reverse_reverse]
  · have hlength := congrArg List.length hall
    rw [List.length_append, List.length_reverse] at hlength
    rw [normalised, digitsOf, ← hlength, List.length_reverse, Nat.add_comm]

/-- **A grid point without its trailing zeros still says the number.** -/
theorem normalised_says (hd : d ≠ 0) (s : ℤ) : (normalised d s).Says (d * 10 ^ s) := by
  obtain ⟨ds, k, hsplit, heq⟩ := normalised_eq d s
  have hvalue : Nat.ofDigitChars 10 (Nat.toDigits 10 d) 0 = d := Nat.ofDigitChars_ten_toDigits
  obtain ⟨c, rest, hhead, hc⟩ := head_toDigits (Nat.pos_of_ne_zero hd)
  have hdigits : ∀ c ∈ Nat.toDigits 10 d, c.isDigit = true := fun c hc =>
    Nat.isDigit_of_mem_toDigits (by decide) (by decide) hc
  rw [hsplit] at hvalue hhead hdigits
  rw [heq]
  refine ⟨fun c hc => hdigits c (List.mem_append_left _ hc), ?_, ?_⟩
  · cases ds with
    | nil =>
      exfalso
      have hmem : c ∈ zeros k := by
        rw [← List.nil_append (zeros k), hhead]
        exact List.mem_cons_self
      exact hc (List.mem_replicate.1 hmem).2
    | cons c' ds =>
      rw [List.cons_append, List.cons.injEq] at hhead
      exact ⟨c', ds, rfl, hhead.1 ▸ hc⟩
  · rw [ofDigitChars_zeros] at hvalue
    have hexp : s + ((ds.length + k : ℕ) : ℤ) - ds.length = s + k := by
      push_cast
      ring
    show (Nat.ofDigitChars 10 ds 0 : ℚ) * 10 ^ (s + ((ds.length + k : ℕ) : ℤ) - ds.length) = _
    rw [hexp, zpow_add₀ (by norm_num), zpow_natCast, ← hvalue]
    push_cast
    ring

end RepairLoop.Number
