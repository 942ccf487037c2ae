import RepairLoop.Proofs.Time.Reread
import RepairLoop.Schema.Scalar
/-!
# Taken — the moments that records take

What is taken for a moment is a date of the calendar with a time of day and an offset of whole
minutes, or a count from the start of 1970 that stays in the calendar. So every moment that is
read from a value of JSON can be written and read again (`Moment.taken_isWritten`).
-/

namespace RepairLoop

variable {cs rest : List Char} {m : Moment} {s f : Nat}

/-! ## Dates and times of day -/

theorem Date.days_lt {d : Date} (hd : d.isValid = true) : d.days < Date.limit := by
  obtain ⟨⟨hyear, hlast⟩, ⟨hmonth, hmonths⟩, hday, hdays⟩ := Date.isValid_iff.1 hd
  have hwhole := daysBeforeYear_le hyear (Nat.lt_succ_of_le hlast)
  have hpart := daysBeforeMonth_le (y := d.year) hmonth (Nat.lt_succ_of_le hmonths)
  rw [daysBeforeMonth_thirteen] at hpart
  have hlimit : daysBeforeYear (Nat.succ 9999) = limit := rfl
  rw [days]
  omega

namespace Moment

/-- The moment of a date and a time of day has its year. -/
theorem isRepresentable_ofDate {d : Date} (hd : d.isValid = true) (hs : s < 86400)
    (hf : f < 1000000) (o : Option Int) : isRepresentable (ofDate d s f o).reading = true := by
  have hdays := Date.days_lt hd
  have hlength : dayLength = 86400000000 := rfl
  have hsecond : second = 1000000 := rfl
  rw [isRepresentable, Bool.and_eq_true, decide_eq_true_eq, decide_eq_true_eq]
  simp only [ofDate, hlength, hsecond, Int.ofNat_eq_natCast]
  omega

theorem readDate?_isValid {d : Date} (h : readDate? cs = some (d, rest)) : d.isValid = true := by
  unfold readDate? at h
  split at h
  · simp only [Option.bind_eq_bind, Option.bind_eq_some_iff] at h
    obtain ⟨_, -, _, -, _, -, h⟩ := h
    split at h
    · obtain ⟨_, -, h⟩ := Option.bind_eq_some_iff.1 h
      split at h
      · rename_i hvalid
        obtain ⟨rfl, -⟩ := Prod.mk.inj (Option.some.inj h)
        exact hvalid
      · cases h
    · cases h
  · cases h

theorem foldl_lt {ds : List Nat} (hds : ∀ d ∈ ds, d < 10) (n : Nat) :
    ds.foldl (fun n d => n * 10 + d) n < (n + 1) * 10 ^ ds.length := by
  induction ds generalizing n with
  | nil => simp
  | cons d ds ih =>
    obtain ⟨hd, hrest⟩ := List.forall_mem_cons.1 hds
    have hstep : (n * 10 + d + 1) * 10 ^ ds.length ≤ (n + 1) * 10 * 10 ^ ds.length :=
      Nat.mul_le_mul_right _ (by omega)
    rw [List.foldl_cons, List.length_cons, Nat.pow_succ']
    rw [Nat.mul_assoc] at hstep
    exact Nat.lt_of_lt_of_le (ih hrest _) hstep

/-- Six digits behind the point are less than a second. -/
theorem readMicros?_lt (h : readMicros? cs = some (f, rest)) : f < 1000000 := by
  unfold readMicros? at h
  dsimp only at h
  split at h
  · cases h
  · obtain ⟨rfl, -⟩ := Prod.mk.inj (Option.some.inj h)
    generalize hused : ((cs.takeWhile Char.isDigit).take 6).map (fun c => c.toNat - 48) = used
    have hlength : used.length ≤ 6 := by
      rw [← hused, List.length_map]
      exact List.length_take_le _ _
    have hdigits : ∀ d ∈ used ++ List.replicate (6 - used.length) 0, d < 10 := by
      intro d hd
      rcases List.mem_append.1 hd with hd | hd
      · rw [← hused] at hd
        obtain ⟨c, hc, rfl⟩ := List.mem_map.1 hd
        have hdigit : c.isDigit = true :=
          List.all_eq_true.1 (List.all_takeWhile (p := Char.isDigit) (l := cs)) c
            (List.mem_of_mem_take hc)
        have hnine : c.toNat ≤ 57 := (Char.isDigit_iff_toNat.1 hdigit).2
        omega
      · rw [List.eq_of_mem_replicate hd]
        decide
    have hall : (used ++ List.replicate (6 - used.length) 0).length = 6 := by
      rw [List.length_append, List.length_replicate]
      omega
    have hlt := foldl_lt hdigits 0
    rwa [hall] at hlt

theorem readClock?_lt (h : readClock? cs = some (s, f, rest)) : s < 86400 ∧ f < 1000000 := by
  unfold readClock? at h
  simp only [Option.bind_eq_bind, Option.bind_eq_some_iff] at h
  obtain ⟨⟨hour, cs⟩, -, h⟩ := h
  dsimp only at h
  split at h
  · obtain ⟨⟨minute, cs⟩, -, h⟩ := Option.bind_eq_some_iff.1 h
    split at h
    · cases h
    rename_i hhour
    rw [Bool.or_eq_true, decide_eq_true_eq, decide_eq_true_eq] at hhour
    dsimp only at h hhour
    split at h
    · obtain ⟨⟨second, cs⟩, -, h⟩ := Option.bind_eq_some_iff.1 h
      split at h
      · cases h
      rename_i hsecond
      dsimp only at h hsecond
      split at h
      · split at h
        · obtain ⟨⟨micros, cs⟩, hmicros, h⟩ := Option.bind_eq_some_iff.1 h
          cases h
          exact ⟨by omega, readMicros?_lt hmicros⟩
        · cases h
          exact ⟨by omega, by decide⟩
      · cases h
        exact ⟨by omega, by decide⟩
    · cases h
      exact ⟨by omega, by decide⟩
  · cases h

theorem readOffset?_minutes {o : Option Int} (h : readOffset? cs = some o) :
    ∀ a, o = some a → a % 60000000 = 0 ∧ a.natAbs < 86400000000 := by
  have hend (sign : Int) (hour minute : Nat × List Char)
      (h : (if (minute.2 != [] || decide (minute.1 > 59)) = true then none
        else if (sign * (Int.ofNat hour.1 * 3600 + Int.ofNat minute.1 * 60)).natAbs ≥ 86400 then none
        else some (some (sign * (Int.ofNat hour.1 * 3600 + Int.ofNat minute.1 * 60) * second))) =
          some o) :
      ∀ a, o = some a → a % 60000000 = 0 ∧ a.natAbs < 86400000000 := by
    split at h
    · cases h
    split at h
    · cases h
    rename_i hday
    intro a ha
    rw [ha] at h
    obtain rfl := Option.some.inj (Option.some.inj h)
    have hsum : sign * ((hour.1 : Int) * 3600 + minute.1 * 60) =
        60 * (sign * (hour.1 * 60 + minute.1)) := by
      rw [Int.mul_left_comm]
      congr 1
      omega
    simp only [Int.ofNat_eq_natCast, hsum, second] at hday ⊢
    omega
  unfold readOffset? at h
  split at h
  · cases h
    exact fun a ha => by cases ha
  · cases h
    exact fun a ha => by cases ha; decide
  · cases h
    exact fun a ha => by cases ha; decide
  · simp only [Option.bind_eq_bind] at h
    split at h
    · obtain ⟨sign, -, h⟩ := Option.bind_eq_some_iff.1 h
      obtain ⟨hour, -, h⟩ := Option.bind_eq_some_iff.1 h
      obtain ⟨minute, -, h⟩ := Option.bind_eq_some_iff.1 h
      exact hend sign hour minute h
    · split at h
      · obtain ⟨sign, -, h⟩ := Option.bind_eq_some_iff.1 h
        obtain ⟨hour, -, h⟩ := Option.bind_eq_some_iff.1 h
        obtain ⟨minute, -, h⟩ := Option.bind_eq_some_iff.1 h
        exact hend sign hour minute h
      · cases h

theorem readStamp?_isWritten (h : readStamp? cs = some m) : m.IsWritten := by
  unfold readStamp? at h
  simp only [Option.bind_eq_bind, Option.bind_eq_some_iff] at h
  obtain ⟨⟨d, cs⟩, hdate, h⟩ := h
  split at h
  · split at h
    · obtain ⟨⟨s, f, cs⟩, hclock, h⟩ := Option.bind_eq_some_iff.1 h
      obtain ⟨o, hoffset, h⟩ := Option.bind_eq_some_iff.1 h
      obtain rfl := Option.some.inj h
      obtain ⟨hs, hf⟩ := readClock?_lt hclock
      exact ⟨isRepresentable_ofDate (readDate?_isValid hdate) hs hf o, readOffset?_minutes hoffset⟩
    · cases h
  · cases h

/-- A count that is taken stays in the calendar. -/
theorem ofCount?_isWritten {n micros : Int} (h : ofCount? n micros = some m) : m.IsWritten := by
  unfold ofCount? at h
  dsimp only at h
  generalize (if n.natAbs > 20000000000 then n * 1000 + micros else n * second + micros) = total at h
  split at h
  · cases h
  · rename_i hrange
    obtain rfl := Option.some.inj h
    rw [Bool.or_eq_true, decide_eq_true_eq, decide_eq_true_eq] at hrange
    refine ⟨?_, ?_⟩
    · have hlimit : Int.ofNat Date.limit * dayLength = 315537897600000000 := rfl
      have hsecond : second = 1000000 := rfl
      rw [isRepresentable, Bool.and_eq_true, decide_eq_true_eq, decide_eq_true_eq, hlimit]
      simp only [ofEpoch, epoch, hsecond] at hrange ⊢
      omega
    · intro o ho
      obtain rfl : 0 = o := Option.some.inj ho
      decide

theorem readCount?_isWritten (h : readCount? cs = some m) : m.IsWritten := by
  unfold readCount? at h
  dsimp only at h
  split at h
  · split at h
    · cases h
    · exact ofCount?_isWritten h
  · split at h
    · cases h
    · unfold ofPointCount? at h
      exact ofCount?_isWritten h
  · cases h

/-- **A moment that is read from a text** is one that a text can carry. -/
theorem ofText?_isWritten {t : String} (h : ofText? t = some m) : m.IsWritten := by
  unfold ofText? at h
  dsimp only at h
  split at h
  · rename_i hstamp
    obtain rfl := Option.some.inj h
    exact readStamp?_isWritten hstamp
  split at h
  · rename_i hcount
    obtain rfl := Option.some.inj h
    exact readCount?_isWritten hcount
  split at h
  · rename_i d hdate
    obtain rfl := Option.some.inj h
    exact ⟨isRepresentable_ofDate (readDate?_isValid hdate) (by decide) (by decide) none,
      fun o ho => by cases ho⟩
  · cases h

/-- **Every moment that is read from a value of JSON** can be written and read again. -/
theorem taken_isWritten {j : Json} {supply : Supply}
    (h : ((Schema.moment (Datum.ofJson j)).run supply).1 = .ok m) : m.IsWritten := by
  cases j with
  | text t =>
    simp only [Datum.ofJson, Schema.moment] at h
    split at h
    · rename_i m' hread
      obtain rfl : m' = m := Except.ok.inj h
      exact ofText?_isWritten hread
    · cases h
  | int n =>
    simp only [Datum.ofJson, Schema.moment] at h
    split at h
    · rename_i m' hcount
      obtain rfl : m' = m := Except.ok.inj h
      exact ofCount?_isWritten hcount
    · cases h
  | float x =>
    simp only [Datum.ofJson, Schema.moment] at h
    split at h
    · rename_i m' hcount
      obtain rfl : m' = m := Except.ok.inj h
      unfold ofFloat? at hcount
      split at hcount
      · cases hcount
      · exact ofCount?_isWritten hcount
    · cases h
  | _ => cases h

end Moment

end RepairLoop
