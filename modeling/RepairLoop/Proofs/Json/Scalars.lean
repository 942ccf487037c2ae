import RepairLoop.Json.Parser
import RepairLoop.Json.Printer
import RepairLoop.Proofs.Number.Shortest
/-!
# Scalars — texts and numbers are read back

Both are read back from what is printed of them, a number where nothing behind it goes on
with it.
-/

/-!
## Texts — a text is read back from between its quotes

A character stands for itself, or is written as an escape of one letter or of one or two units
of four hexadecimal digits. In each form one step of the reading takes it back
(`readText_escaped`), so a quoted text is read back as it was (`readText_quoted`).
-/

namespace RepairLoop.Json

variable {ascii : Bool} {acc rest more : List Char} {fuel n : Nat}

/-! ## Units of four digits -/

theorem hexValue?_digitChar {k : Nat} (hk : k < 16) : hexValue? (Nat.digitChar k) = some k := by
  have hall : ∀ k : Fin 16, hexValue? (Nat.digitChar k) = some k.val := by decide
  exact hall ⟨k, hk⟩

theorem hexDigits_four (n : Nat) : Text.hexDigits 4 n = [Nat.digitChar (n / 4096 % 16),
    Nat.digitChar (n / 256 % 16), Nat.digitChar (n / 16 % 16), Nat.digitChar (n % 16)] := by
  simp only [Text.hexDigits, Nat.div_div_eq_div_mul, List.nil_append, List.cons_append]

/-- A unit is read back from its digits. -/
theorem unit?_hexDigits (hn : n < 65536) : unit? (Text.hexDigits 4 n ++ rest) = some (n, rest) := by
  have hvalue (k : Nat) := hexValue?_digitChar (Nat.mod_lt k (show 0 < 16 by decide))
  have hsum : n / 4096 % 16 * 4096 + n / 256 % 16 * 256 + n / 16 % 16 * 16 + n % 16 = n := by omega
  rw [hexDigits_four]
  simp [unit?, hvalue, hsum]

/-- No character is half of a pair of units. -/
theorem toNat_cases (c : Char) : c.toNat < 0xd800 ∨ 0xe000 ≤ c.toNat ∧ c.toNat < 0x110000 := by
  have h : c.toNat < 0xd800 ∨ 0xdfff < c.toNat ∧ c.toNat < 0x110000 := c.valid
  omega

/-! ## One character -/

theorem readText_unit (hn : n < 65536) (hsingle : ¬ (0xd800 ≤ n ∧ n < 0xe000)) :
    readText (fuel + 1) acc (unitEscape n ++ more) = readText fuel (Char.ofNat n :: acc) more := by
  have hhigh : (decide (0xd800 ≤ n) && decide (n < 0xdc00)) = false := by
    simp only [Bool.and_eq_false_iff, decide_eq_false_iff_not]
    omega
  have hlow : (decide (0xdc00 ≤ n) && decide (n < 0xe000)) = false := by
    simp only [Bool.and_eq_false_iff, decide_eq_false_iff_not]
    omega
  show readText (fuel + 1) acc ('\\' :: 'u' :: (Text.hexDigits 4 n ++ more)) = _
  rw [readText, unit?_hexDigits hn]
  simp only [Option.bind_eq_bind, Option.bind_some, hhigh, hlow, Bool.false_eq_true, if_false]

theorem readText_pair (hn : n < 0x100000) :
    readText (fuel + 1) acc
        (unitEscape (0xd800 + n / 0x400) ++ (unitEscape (0xdc00 + n % 0x400) ++ more)) =
      readText fuel (Char.ofNat (0x10000 + n) :: acc) more := by
  have hhigh :
      (decide (0xd800 ≤ 0xd800 + n / 0x400) && decide (0xd800 + n / 0x400 < 0xdc00)) = true := by
    simp only [Bool.and_eq_true, decide_eq_true_eq]
    omega
  have hlow :
      (decide (0xdc00 ≤ 0xdc00 + n % 0x400) && decide (0xdc00 + n % 0x400 < 0xe000)) = true := by
    simp only [Bool.and_eq_true, decide_eq_true_eq]
    omega
  have hsum : 0x10000 + (0xd800 + n / 0x400 - 0xd800) * 0x400 + (0xdc00 + n % 0x400 - 0xdc00) =
      0x10000 + n := by omega
  show readText (fuel + 1) acc ('\\' :: 'u' :: (Text.hexDigits 4 (0xd800 + n / 0x400) ++
    ('\\' :: 'u' :: (Text.hexDigits 4 (0xdc00 + n % 0x400) ++ more)))) = _
  rw [readText, unit?_hexDigits (by omega)]
  simp only [Option.bind_eq_bind, Option.bind_some, hhigh, if_true]
  rw [unit?_hexDigits (by omega)]
  simp only [Option.bind_some, hlow, if_true, hsum]

/-- **One step of the reading takes a character back.** -/
theorem readText_escaped (c : Char) :
    readText (fuel + 1) acc (escaped ascii c ++ more) = readText fuel (c :: acc) more := by
  have hvalid := toNat_cases c
  have hof : Char.ofNat c.toNat = c := Char.ofNat_toNat c
  unfold escaped
  dsimp only
  split
  · rename_i h
    obtain rfl : c = '"' := by simpa using h
    rfl
  split
  · rename_i h
    obtain rfl : c = '\\' := by simpa using h
    rfl
  split
  · rename_i h
    obtain rfl : c = '\n' := by simpa using h
    rfl
  split
  · rename_i h
    obtain rfl : c = '\r' := by simpa using h
    rfl
  split
  · rename_i h
    obtain rfl : c = '\t' := by simpa using h
    rfl
  split
  · rename_i h
    have h : c.toNat = 8 := by simpa using h
    rw [← hof, h]
    rfl
  split
  · rename_i h
    have h : c.toNat = 12 := by simpa using h
    rw [← hof, h]
    rfl
  split
  · rename_i hquote hslash _ _ _ _ _ hshown
    have hquote : c ≠ '"' := by simpa using hquote
    have hslash : c ≠ '\\' := by simpa using hslash
    have hlow : ¬ c.toNat < 32 := by
      simp only [Bool.and_eq_true, decide_eq_true_eq] at hshown
      omega
    rw [List.singleton_append, readText]
    · simp [hlow, hslash]
    · exact hquote
    · rintro tail rfl
      exact absurd rfl hslash
    · rintro d tail rfl
      exact absurd rfl hslash
  split
  · rename_i hsmall
    rw [readText_unit hsmall (by omega), hof]
  · rename_i hlarge
    have hsum : 0x10000 + (c.toNat - 0x10000) = c.toNat := by omega
    rw [List.append_assoc, readText_pair (by omega), hsum, hof]

/-! ## Whole texts -/

theorem length_escaped_pos (ascii : Bool) (c : Char) : 0 < (escaped ascii c).length := by
  unfold escaped unitEscape
  dsimp only
  repeat' split
  all_goals simp

theorem length_le_flatMap (ascii : Bool) (cs : List Char) :
    cs.length ≤ (cs.flatMap (escaped ascii)).length := by
  induction cs with
  | nil => exact Nat.le_refl _
  | cons c cs ih =>
    have hpos := length_escaped_pos ascii c
    rw [List.flatMap_cons, List.length_append, List.length_cons]
    omega

theorem readText_flatMap (cs : List Char) (hfuel : cs.length < fuel) :
    readText fuel acc (cs.flatMap (escaped ascii) ++ '"' :: rest) =
      some (String.ofList (acc.reverse ++ cs), rest) := by
  induction cs generalizing fuel acc with
  | nil =>
    obtain ⟨fuel, rfl⟩ := Nat.exists_eq_succ_of_ne_zero (Nat.ne_of_gt hfuel)
    rw [List.flatMap_nil, List.nil_append, List.append_nil, readText]
  | cons c cs ih =>
    obtain ⟨fuel, rfl⟩ := Nat.exists_eq_succ_of_ne_zero (Nat.ne_of_gt (Nat.zero_lt_of_lt hfuel))
    rw [List.flatMap_cons, List.append_assoc, readText_escaped, ih (Nat.lt_of_succ_lt_succ hfuel),
      List.reverse_cons, List.append_assoc, List.singleton_append]

theorem toList_quotedText (style : Style) (s : String) :
    (quotedText style s).toList = '"' :: (s.toList.flatMap (escaped style.ascii) ++ ['"']) := by
  simp [quotedText]

/-- **A text is read back from between its quotes.** -/
theorem readText_quoted (s : String) (rest : List Char) :
    readText ((s.toList.flatMap (escaped ascii) ++ '"' :: rest).length + 1) []
        (s.toList.flatMap (escaped ascii) ++ '"' :: rest) = some (s, rest) := by
  have hlength := length_le_flatMap ascii s.toList
  rw [readText_flatMap s.toList (by rw [List.length_append]; omega)]
  simp

end RepairLoop.Json

/-!
## Numbers — numbers are read back from their texts

An integer is read back from its digits (`readNumber_toDigits`), and a finite double from the
fewest digits that come to it, positional or with an exponent (`readNumber_text`). What
follows a number must not go on with it (`Stops`).
-/

namespace RepairLoop.Json

open Number

variable {negative : Bool} {rest w f ds : List Char} {v : ℚ} {x : Float} {m n : ℕ} {e : ℤ}

/-- All characters are digits. -/
def AllDigits (cs : List Char) : Prop := ∀ c ∈ cs, c.isDigit = true

/-- No digit follows. -/
def NoDigit (rest : List Char) : Prop := ∀ c ∈ rest.head?, c.isDigit = false

/-- Nothing follows that goes on with a number. -/
def Stops (rest : List Char) : Prop :=
  ∀ c ∈ rest.head?, c.isDigit = false ∧ c ≠ '.' ∧ c ≠ 'e' ∧ c ≠ 'E'

theorem Stops.noDigit (h : Stops rest) : NoDigit rest := fun c hc => (h c hc).1

/-- The digits before the point: a zero alone, or digits that do not start with one. -/
structure IsWhole (w : List Char) : Prop where
  digits : AllDigits w
  head : ∃ c cs, w = c :: cs ∧ (c ≠ '0' ∨ cs = [])

theorem natural_eq (ds : List Char) : natural ds = Nat.ofDigitChars 10 ds 0 := rfl

theorem digits_append (hds : AllDigits ds) (hrest : NoDigit rest) :
    digits (ds ++ rest) = (ds, rest) := by
  have htake : rest.takeWhile Char.isDigit = [] := by
    cases rest with
    | nil => rfl
    | cons c rest => simp [hrest c (by simp)]
  have hdrop : rest.dropWhile Char.isDigit = rest := by
    cases rest with
    | nil => rfl
    | cons c rest => simp [hrest c (by simp)]
  rw [digits, List.span_eq_takeWhile_dropWhile, List.takeWhile_append_of_pos hds,
    List.dropWhile_append_of_pos hds, htake, hdrop, List.append_nil]

/-! ## The parts of a number -/

/-- The part before the point as the reading takes it. -/
def wholeOf (cs : List Char) : List Char × List Char :=
  match cs with
  | '0' :: rest => (['0'], rest)
  | _ => digits cs

theorem wholeOf_append (hw : IsWhole w) (hrest : NoDigit rest) :
    wholeOf (w ++ rest) = (w, rest) := by
  obtain ⟨c, cs, rfl, hc⟩ := hw.head
  by_cases hzero : c = '0'
  · obtain rfl := hc.resolve_left (not_not_intro hzero)
    subst hzero
    rfl
  · rw [wholeOf]
    · exact digits_append hw.digits hrest
    · rintro tail htail
      exact hzero (List.cons.inj htail).1

/-- The characters of a fraction, if there is one. -/
def pointChars (f : List Char) : List Char :=
  if f = [] then [] else '.' :: f

theorem fraction_append (hf : AllDigits f) (hrest : NoDigit rest) (hpoint : '.' ∉ rest.head?) :
    fraction (pointChars f ++ rest) = (f, rest) := by
  unfold pointChars
  split
  · rename_i hnil
    subst hnil
    rw [List.nil_append, fraction]
    rintro tail rfl
    exact hpoint rfl
  · rename_i hne
    rw [List.cons_append, fraction]
    rw [digits_append hf hrest]
    cases f with
    | nil => exact absurd rfl hne
    | cons c f => rfl

theorem exponent?_stops (h : Stops rest) : exponent? rest = none := by
  cases rest with
  | nil => rfl
  | cons c rest =>
    obtain ⟨-, -, he, hE⟩ := h c rfl
    simp [exponent?, he, hE]

/-- The sign of an exponent. -/
def signChar (negative : Bool) : Char := if negative then '-' else '+'

theorem exponent?_append (hds : AllDigits ds) (hne : ds ≠ []) (hrest : NoDigit rest)
    (negative : Bool) :
    exponent? ('e' :: signChar negative :: ds ++ rest) =
      some (if negative then -(natural ds : ℤ) else natural ds, rest) := by
  have hread := digits_append hds hrest
  cases ds with
  | nil => exact absurd rfl hne
  | cons d ds =>
    rw [List.cons_append] at hread
    cases negative <;> simp [exponent?, signChar, hread]

/-! ## Numbers of the three shapes -/

theorem readNumber_eq (negative : Bool) (cs : List Char) :
    readNumber negative cs = match wholeOf cs with
      | ([], _) => .error .malformed
      | (ds, rest) =>
        let (frac, rest) := fraction rest
        match exponent? rest with
        | some (e, rest) =>
          .ok (.float (Number.ofDecimal negative (natural (ds ++ frac)) (e - frac.length)), rest)
        | none =>
          if frac.isEmpty then
            if ds.length > maxDigits then .error (.tooManyDigits ds.length)
            else
              let n : Int := natural ds
              .ok (.int (if negative then -n else n), rest)
          else
            .ok (.float (Number.ofDecimal negative (natural (ds ++ frac))
              (-(frac.length : Int))), rest) :=
  rfl

theorem head_pointChars (hrest : NoDigit rest) : NoDigit (pointChars f ++ rest) := by
  unfold pointChars
  split
  · exact hrest
  · intro c hc
    obtain rfl : '.' = c := Option.some.inj hc
    decide

/-- Digits alone are an integer. -/
theorem readNumber_whole (hw : IsWhole w) (hshort : w.length ≤ maxDigits) (hrest : Stops rest) :
    readNumber negative (w ++ rest) =
      .ok (.int (if negative then -(natural w : ℤ) else natural w), rest) := by
  have hpoint : '.' ∉ rest.head? := fun h => (hrest '.' h).2.1 rfl
  have hfraction :=
    fraction_append (f := []) (fun c hc => absurd hc List.not_mem_nil) hrest.noDigit hpoint
  rw [pointChars, if_pos rfl, List.nil_append] at hfraction
  obtain ⟨c, cs, rfl, -⟩ := hw.head
  rw [readNumber_eq, wholeOf_append hw hrest.noDigit]
  simp only [hfraction, exponent?_stops hrest, List.isEmpty_nil, if_true,
    if_neg (Nat.not_lt.2 hshort),
    gt_iff_lt]

/-- **Too many digits are no integer**, and no text that may be read otherwise. -/
theorem readNumber_long (hw : IsWhole w) (hlong : maxDigits < w.length) (hrest : Stops rest) :
    readNumber negative (w ++ rest) = .error (.tooManyDigits w.length) := by
  have hpoint : '.' ∉ rest.head? := fun h => (hrest '.' h).2.1 rfl
  have hfraction :=
    fraction_append (f := []) (fun c hc => absurd hc List.not_mem_nil) hrest.noDigit hpoint
  rw [pointChars, if_pos rfl, List.nil_append] at hfraction
  obtain ⟨c, cs, rfl, -⟩ := hw.head
  rw [readNumber_eq, wholeOf_append hw hrest.noDigit]
  simp only [hfraction, exponent?_stops hrest, List.isEmpty_nil, if_true, gt_iff_lt, if_pos hlong]

/-- Digits with a point between them are a double. -/
theorem readNumber_pointed (negative : Bool) (hw : IsWhole w) (hf : AllDigits f) (hne : f ≠ [])
    (hrest : Stops rest) :
    readNumber negative (w ++ '.' :: f ++ rest) =
      .ok (.float (ofDecimal negative (natural (w ++ f)) (-(f.length : ℤ))), rest) := by
  have hpoint : '.' ∉ rest.head? := fun h => (hrest '.' h).2.1 rfl
  have hchars : w ++ '.' :: f ++ rest = w ++ (pointChars f ++ rest) := by
    rw [pointChars, if_neg hne, List.append_assoc]
  have hempty : f.isEmpty = false := by simpa using hne
  obtain ⟨c, cs, rfl, -⟩ := hw.head
  rw [hchars, readNumber_eq, wholeOf_append hw (head_pointChars hrest.noDigit)]
  simp [fraction_append hf hrest.noDigit hpoint, exponent?_stops hrest, hempty]

/-- Digits with an exponent are a double. -/
theorem readNumber_exponential (hw : IsWhole w) (hf : AllDigits f) (hds : AllDigits ds)
    (hne : ds ≠ [])
    (hrest : NoDigit rest) (down : Bool) :
    readNumber negative (w ++ pointChars f ++ 'e' :: signChar down :: ds ++ rest) =
      .ok (.float (ofDecimal negative (natural (w ++ f))
        ((if down then -(natural ds : ℤ) else natural ds) - f.length)), rest) := by
  have hnext : NoDigit ('e' :: signChar down :: ds ++ rest) := by
    intro c hc
    obtain rfl : 'e' = c := Option.some.inj hc
    decide
  have hpoint : '.' ∉ ('e' :: signChar down :: ds ++ rest).head? := by
    intro h
    cases h
  have hchars : w ++ pointChars f ++ 'e' :: signChar down :: ds ++ rest =
      w ++ (pointChars f ++ ('e' :: signChar down :: ds ++ rest)) := by
    simp
  obtain ⟨c, cs, rfl, -⟩ := hw.head
  rw [hchars, readNumber_eq, wholeOf_append hw (head_pointChars hnext)]
  simp only [fraction_append hf hnext hpoint, exponent?_append hds hne hrest]

/-! ## Integers -/

theorem isWhole_toDigits (n : ℕ) : IsWhole (Nat.toDigits 10 n) := by
  refine ⟨fun c hc => Nat.isDigit_of_mem_toDigits (by decide) (by decide) hc, ?_⟩
  rcases Nat.eq_zero_or_pos n with rfl | hn
  · exact ⟨'0', [], rfl, .inr rfl⟩
  · obtain ⟨c, cs, heq, hc⟩ := head_toDigits hn
    exact ⟨c, cs, heq, .inl hc⟩

/-- **An integer is read back from its digits.** -/
theorem readNumber_toDigits (hn : n < 10 ^ maxDigits) (hrest : Stops rest) :
    readNumber negative (Nat.toDigits 10 n ++ rest) =
      .ok (.int (if negative then -(n : ℤ) else n), rest) := by
  have hshort : (Nat.toDigits 10 n).length ≤ maxDigits :=
    (Nat.length_toDigits_le_iff (by decide) (by decide)).2 hn
  rw [readNumber_whole (isWhole_toDigits n) hshort hrest, natural_eq, Nat.ofDigitChars_ten_toDigits]

/-! ## Doubles -/

theorem allDigits_zeros (k : ℕ) : AllDigits (zeros k) := by
  intro c hc
  rw [(List.mem_replicate.1 hc).2]
  decide

theorem ofDigitChars_zeros_append (k : ℕ) (cs : List Char) :
    Nat.ofDigitChars 10 (zeros k ++ cs) 0 = Nat.ofDigitChars 10 cs 0 := by
  have hzeros := ofDigitChars_zeros [] k
  rw [List.nil_append, Nat.ofDigitChars_nil, Nat.zero_mul] at hzeros
  rw [Nat.ofDigitChars_append, hzeros]

theorem IsWhole.append (hw : IsWhole w) (hhead : w.head? ≠ some '0') (hds : AllDigits ds) :
    IsWhole (w ++ ds) := by
  obtain ⟨c, cs, rfl, -⟩ := hw.head
  refine ⟨fun d hd => ?_, c, cs ++ ds, rfl, .inl fun h => hhead (by rw [h]; rfl)⟩
  rcases List.mem_append.1 hd with hd | hd
  · exact hw.digits d hd
  · exact hds d hd

/-- **Digits with a point in its place say the number.** -/
theorem pointed_says {t : Decimal} (ht : t.Says v) :
    ∃ w f, pointed t.digits t.point true = w ++ '.' :: f ∧
    IsWhole w ∧ AllDigits f ∧ f ≠ [] ∧ (natural (w ++ f) : ℚ) * 10 ^ (-(f.length : ℤ)) = v := by
  obtain ⟨c, cs, hhead, hc⟩ := ht.head
  have hvalue := ht.value
  have hdigits : AllDigits t.digits := ht.isDigit
  have hwhole : IsWhole t.digits := ⟨hdigits, c, cs, hhead, .inl hc⟩
  have hfirst : t.digits.head? ≠ some '0' := by
    rw [hhead]
    exact fun h => hc (Option.some.inj h)
  have hne : t.digits ≠ [] := by
    rw [hhead]
    exact List.cons_ne_nil _ _
  generalize t.digits = ds at *
  generalize t.point = point at *
  unfold pointed
  split
  · -- the point stands before the digits
    rename_i hpoint
    obtain ⟨k, hk⟩ := Int.eq_ofNat_of_zero_le (show 0 ≤ -point by omega)
    refine ⟨['0'], zeros k ++ ds, by rw [hk]; rfl, ⟨fun c hc => ?_, '0', [], rfl, .inr rfl⟩,
      fun c hc => ?_, by simp [hne], ?_⟩
    · rw [List.mem_singleton.1 hc]
      decide
    · rcases List.mem_append.1 hc with hc | hc
      · exact allDigits_zeros k c hc
      · exact hdigits c hc
    · have hexp : -((zeros k ++ ds).length : ℤ) = point - ds.length := by
        rw [List.length_append, zeros, List.length_replicate]
        omega
      have hzero : natural (['0'] ++ (zeros k ++ ds)) = Nat.ofDigitChars 10 ds 0 := by
        rw [natural_eq, ← ofDigitChars_zeros_append (k + 1) ds]
        rfl
      rw [hexp, hzero, hvalue]
  · rename_i hpoint
    obtain ⟨k, rfl⟩ := Int.eq_ofNat_of_zero_le (show 0 ≤ point by omega)
    have hpos : 0 < k := by omega
    dsimp only
    rw [Int.toNat_natCast]
    split
    · -- it stands behind them
      rename_i hlong
      refine ⟨ds ++ zeros (k - ds.length), ['0'], rfl, hwhole.append hfirst (allDigits_zeros _),
        fun c hc => ?_, by simp, ?_⟩
      · rw [List.mem_singleton.1 hc]
        decide
      · have hvalue' : natural (ds ++ zeros (k - ds.length) ++ ['0']) =
            Nat.ofDigitChars 10 ds 0 * 10 ^ (k - ds.length + 1) := by
          rw [natural_eq, ← ofDigitChars_zeros, List.append_assoc, zeros, zeros,
            List.replicate_succ']
        have hexp : ((k : ℤ) - ds.length) = ((k - ds.length : ℕ) : ℤ) := by omega
        rw [hvalue', ← hvalue, hexp, zpow_natCast]
        simp
        ring
    · -- it stands between them
      rename_i hshort
      have hsplit := List.take_append_drop k ds
      have hlength : (ds.drop k).length = ds.length - k := List.length_drop
      refine ⟨ds.take k, ds.drop k, rfl, ⟨fun c hc => hdigits c (List.mem_of_mem_take hc), c,
        cs.take (k - 1), ?_, .inl hc⟩, fun c hc => hdigits c (List.mem_of_mem_drop hc), ?_, ?_⟩
      · rw [hhead, ← List.take_succ_cons]
        congr 1
        omega
      · intro hnil
        rw [hnil, List.length_nil] at hlength
        omega
      · rw [hsplit, hlength, natural_eq, ← hvalue]
        congr 2
        omega

/-- **Digits with an exponent say the number.** -/
theorem exponential_says {t : Decimal} (ht : t.Says v) : ∃ w f down ds,
    exponential t.digits t.point = w ++ pointChars f ++ 'e' :: signChar down :: ds ∧
      IsWhole w ∧ AllDigits f ∧ AllDigits ds ∧ ds ≠ [] ∧
      (natural (w ++ f) : ℚ) *
        10 ^ ((if down then -(natural ds : ℤ) else natural ds) - f.length) = v := by
  obtain ⟨c, cs, hhead, hc⟩ := ht.head
  have hvalue := ht.value
  have hdigits := ht.isDigit
  rw [hhead] at hvalue hdigits
  have hpower : natural (digitsOf (t.point - 1).natAbs) = (t.point - 1).natAbs :=
    Nat.ofDigitChars_ten_toDigits
  have hpowerDigits : AllDigits (digitsOf (t.point - 1).natAbs) := (isWhole_toDigits _).digits
  have hpowerZero : natural ('0' :: digitsOf (t.point - 1).natAbs) = (t.point - 1).natAbs :=
    (ofDigitChars_zeros_append 1 _).trans hpower
  refine ⟨[c], cs, decide (t.point - 1 < 0),
    if (digitsOf (t.point - 1).natAbs).length < 2 then '0' :: digitsOf (t.point - 1).natAbs
      else digitsOf (t.point - 1).natAbs, ?_, ⟨?_, c, [], rfl, .inl hc⟩, ?_, ?_, ?_, ?_⟩
  · rw [hhead]
    unfold exponential
    cases cs <;> simp [pointChars, signChar]
  · intro d hd
    exact hdigits d (List.mem_cons.2 (.inl (List.mem_singleton.1 hd)))
  · intro d hd
    exact hdigits d (List.mem_cons_of_mem _ hd)
  · split
    · intro d hd
      rcases List.mem_cons.1 hd with rfl | hd
      · decide
      · exact hpowerDigits d hd
    · exact hpowerDigits
  · split
    · exact List.cons_ne_nil _ _
    · exact Nat.toDigits_ne_nil
  · have hnatural : natural (if (digitsOf (t.point - 1).natAbs).length < 2 then
        '0' :: digitsOf (t.point - 1).natAbs else digitsOf (t.point - 1).natAbs) =
        (t.point - 1).natAbs := by
      split
      · exact hpowerZero
      · exact hpower
    have hexp : (if decide (t.point - 1 < 0) = true then -((t.point - 1).natAbs : ℤ)
        else (t.point - 1).natAbs) - cs.length = t.point - (c :: cs).length := by
      rw [List.length_cons, Nat.cast_succ]
      split
      · rename_i hneg
        have := of_decide_eq_true hneg
        omega
      · rename_i hneg
        have : ¬ t.point - 1 < 0 := fun h => hneg (decide_eq_true h)
        omega
    rw [hnatural, hexp]
    exact hvalue

/-- **A finite double is read back from its text.** -/
theorem readNumber_text (hx : decode x = .finite negative m e) :
    ∃ c cs, (Number.text x).toList = (if negative then ['-'] else []) ++ c :: cs ∧
      c.isDigit = true ∧
      ∀ rest, Stops rest → readNumber negative (c :: cs ++ rest) = .ok (.float x, rest) := by
  have htext (cs : List Char) :
      (signed negative cs).toList = (if negative then ['-'] else []) ++ cs := by
    cases negative <;> simp [signed]
  have hhead {w : List Char} (hw : IsWhole w) (more : List Char) :
      ∃ c cs, w ++ more = c :: cs ∧ c.isDigit = true := by
    obtain ⟨c, cs, rfl, -⟩ := hw.head
    exact ⟨c, cs ++ more, rfl, hw.digits c List.mem_cons_self⟩
  unfold Number.text
  rw [hx]
  dsimp only
  rcases Nat.eq_zero_or_pos m with rfl | hm
  · -- zero has no digits that could be sought
    refine ⟨'0', ['.', '0'], htext _, by decide, fun rest hrest => ?_⟩
    have hw : IsWhole ['0'] := ⟨allDigits_zeros 1, '0', [], rfl, .inr rfl⟩
    have hread := readNumber_pointed (f := ['0']) negative hw (allDigits_zeros 1)
      (by simp) hrest
    rw [show natural (['0'] ++ ['0']) = 0 from rfl, ofDecimal, if_pos rfl, nearest_zero hx] at hread
    exact hread
  · obtain ⟨d, s, hshort, hd, hnear⟩ := shortest_spec (decode_finite hx).1 hm
    have hsays := normalised_says hd s
    rw [← hshort] at hsays
    split
    · obtain ⟨w, f, hchars, hw, hf, hne, hvalue⟩ := pointed_says hsays
      obtain ⟨c, cs, heq, hc⟩ := hhead hw ('.' :: f)
      rw [← hvalue] at hnear
      refine ⟨c, cs, by rw [htext, hchars, heq], hc, fun rest hrest => ?_⟩
      rw [← heq, readNumber_pointed negative hw hf hne hrest, ofDecimal_of_near hx hm hnear]
    · obtain ⟨w, f, down, ds, hchars, hw, hf, hds, hne, hvalue⟩ := exponential_says hsays
      obtain ⟨c, cs, heq, hc⟩ := hhead hw (pointChars f ++ 'e' :: signChar down :: ds)
      rw [← hvalue] at hnear
      refine ⟨c, cs, by rw [htext, hchars, ← heq, List.append_assoc], hc, fun rest hrest => ?_⟩
      rw [← heq, ← List.append_assoc, readNumber_exponential hw hf hds hne hrest.noDigit,
        ofDecimal_of_near hx hm hnear]

end RepairLoop.Json
