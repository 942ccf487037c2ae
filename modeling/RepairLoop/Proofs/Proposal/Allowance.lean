import Mathlib.Algebra.Order.Floor.Ring
import Mathlib.Data.Rat.Floor
import Mathlib.Tactic.Linarith
import Mathlib.Tactic.Ring
import RepairLoop.Proposal.Allowance
/-!
# Allowance — windows without gaps

In exact numbers the windows of an allowance are those of a grid: each starts a whole
number of windows after the moment at which the allowance was made. Looking at an
allowance opens the window that the present moment lies in, however many windows have
passed since it was looked at last, and a window that is opened is full (`Kept.at_`).
Between two looks nothing but taking changes the tokens (`take_cases`).
-/

namespace RepairLoop

namespace Allowance

variable {c : Int} {w t₀ now : ℚ} {a : Allowance ℚ}

/-- An allowance of so many tokens in windows of such a length, the first of which was
opened at `t₀`. -/
structure Kept (c : Int) (w t₀ : ℚ) (a : Allowance ℚ) : Prop where
  capacity : a.capacity = c
  window : a.window = w
  some_capacity : 1 ≤ c
  some_window : 0 < w
  started : ∃ k : ℕ, a.started = t₀ + k * w
  tokens : 0 ≤ a.tokens ∧ a.tokens ≤ c

/-- **An allowance that is made is full**, and its first window is open. -/
theorem make_kept (h : make c w t₀ = .ok a) : a.Kept c w t₀ ∧ a.tokens = c ∧ a.started = t₀ := by
  unfold make at h
  split at h
  · cases h
  · split at h
    · cases h
    · rename_i hc hw
      cases h
      have hpositive : 0 < w := by simpa [Scale.ofNat] using hw
      have hfull : 0 ≤ c ∧ c ≤ c := by omega
      exact ⟨⟨rfl, rfl, by omega, hpositive, ⟨0, by simp⟩, hfull⟩, rfl, rfl⟩

theorem Kept.since (h : a.Kept c w t₀) : t₀ ≤ a.started := by
  obtain ⟨k, hk⟩ := h.started
  rw [hk]
  exact le_add_of_nonneg_right (mul_nonneg k.cast_nonneg h.some_window.le)

/-- **Looking at an allowance opens the window that the moment lies in.** Either it was
open before and nothing changes, or it is a later one, and full. -/
theorem Kept.at_ (h : a.Kept c w t₀) (hnow : a.started ≤ now) :
    (a.at_ now).Kept c w t₀ ∧ (a.at_ now).started ≤ now ∧ now < (a.at_ now).started + w ∧
      (a.at_ now = a ∨ (a.at_ now).tokens = c ∧ a.started + w ≤ (a.at_ now).started) := by
  have hw := h.some_window
  have hwindow := h.window
  obtain ⟨k, hk⟩ := h.started
  unfold Allowance.at_
  dsimp only
  split
  · rename_i hpassed
    rw [hwindow] at hpassed ⊢
    rw [show Scale.wholeQuotient (now - a.started) w = ((⌊(now - a.started) / w⌋ : ℤ) : ℚ) from rfl]
    -- the windows that have passed since the last one was opened
    generalize hn : ⌊(now - a.started) / w⌋ = n
    have hle : (n : ℚ) * w ≤ now - a.started := by
      rw [← le_div_iff₀ hw, ← hn]
      exact Int.floor_le _
    have hlt : now - a.started < ((n : ℚ) + 1) * w := by
      rw [← div_lt_iff₀ hw, ← hn]
      exact Int.lt_floor_add_one _
    have hone : 1 ≤ n := by
      rw [← hn, Int.le_floor, Int.cast_one, le_div_iff₀ hw, one_mul]
      exact hpassed
    have hmul : w ≤ (n : ℚ) * w := le_mul_of_one_le_left hw.le (by exact_mod_cast hone)
    obtain ⟨m, rfl⟩ := Int.eq_ofNat_of_zero_le (zero_le_one.trans hone)
    refine ⟨⟨h.capacity, rfl, h.some_capacity, hw, ⟨k + m, ?_⟩, ?_⟩, ?_, ?_, .inr ⟨h.capacity, ?_⟩⟩
    · simp only [hk, Nat.cast_add, Int.cast_natCast]
      ring
    · simp only [h.capacity]
      exact ⟨by linarith [h.some_capacity], le_refl _⟩
    · dsimp only
      linarith
    · dsimp only
      linarith
    · dsimp only
      linarith
  · rename_i hopen
    rw [hwindow] at hopen
    exact ⟨h, hnow, by linarith, .inl rfl⟩

/-- **Tokens are taken if there are enough**; otherwise the request is refused and is told
how long the window still lasts. -/
theorem take_cases (a : Allowance ℚ) (count : Int) (now : ℚ) :
    (a.at_ now).tokens < count ∧ a.take count now = (a.at_ now, .error ⟨(a.at_ now).capacity,
        (a.at_ now).window, orZero ((a.at_ now).window - (now - (a.at_ now).started))⟩) ∨
      count ≤ (a.at_ now).tokens ∧
        a.take count now = ({ a.at_ now with tokens := (a.at_ now).tokens - count }, .ok ()) := by
  unfold take
  dsimp only
  split
  · exact .inl ⟨‹_›, rfl⟩
  · exact .inr ⟨by omega, rfl⟩

/-! ## The tokens that were taken -/

/-- The times of a window of the grid. -/
def within (t₀ w : ℚ) (k : ℤ) (t : ℚ) : Bool := t₀ + k * w ≤ t && t < t₀ + (k + 1) * w

/-- What fits one of two descriptions is counted by one of them. -/
theorem countP_le_add {α : Type} {p q r : α → Bool} {l : List α}
    (h : ∀ x ∈ l, p x = true → q x = true ∨ r x = true) : l.countP p ≤ l.countP q + l.countP r := by
  induction l with
  | nil => simp
  | cons x l ih =>
    have hl := ih fun y hy => h y (List.mem_cons_of_mem _ hy)
    simp only [List.countP_cons]
    by_cases hp : p x = true
    · rcases h x List.mem_cons_self hp with hq | hr
      · rw [if_pos hp, if_pos hq]
        omega
      · rw [if_pos hp, if_pos hr]
        omega
    · rw [if_neg hp]
      omega

/-- Times at which tokens were taken, and an allowance that knows of them: no window has
given more than its share, and what is left of the open one is its share at most. -/
structure Ledger (c : Int) (w t₀ : ℚ) (a : Allowance ℚ) (clock : ℚ) (taken : List ℚ) : Prop where
  kept : a.Kept c w t₀
  begun : a.started ≤ clock
  times : ∀ t ∈ taken, t₀ ≤ t ∧ t ≤ clock ∧ t < a.started + w
  share : ∀ k : ℤ, (taken.countP (within t₀ w k) : ℤ) ≤ c
  left : (taken.countP (a.started ≤ ·) : ℤ) + a.tokens ≤ c

namespace Ledger

variable {clock : ℚ} {taken less : List ℚ}

theorem new (h : make c w t₀ = .ok a) : Ledger c w t₀ a t₀ [] := by
  obtain ⟨hkept, htokens, hstarted⟩ := make_kept h
  refine ⟨hkept, hstarted.le, by simp, fun k => ?_, by simp [htokens]⟩
  simpa using zero_le_one.trans hkept.some_capacity

theorem later (h : Ledger c w t₀ a clock taken) (hle : clock ≤ now) :
    Ledger c w t₀ a now taken :=
  ⟨h.kept, h.begun.trans hle,
    fun t ht => ⟨(h.times t ht).1, (h.times t ht).2.1.trans hle, (h.times t ht).2.2⟩,
    h.share, h.left⟩

/-- Tokens that nobody uses may be left out, and the order does not matter. -/
theorem subperm (h : Ledger c w t₀ a clock taken) (hless : less.Subperm taken) :
    Ledger c w t₀ a clock less := by
  refine ⟨h.kept, h.begun, fun t ht => h.times t (hless.subset ht), fun k => ?_, ?_⟩
  · exact (Int.ofNat_le.2 (hless.countP_le _)).trans (h.share k)
  · have hcount : (less.countP (a.started ≤ ·) : ℤ) ≤ taken.countP (a.started ≤ ·) :=
      Int.ofNat_le.2 (hless.countP_le _)
    linarith [h.left]

/-- Looking at the allowance changes nothing of what was taken: a window that is opened
comes after all of it. -/
theorem at_ (h : Ledger c w t₀ a clock taken) : Ledger c w t₀ (a.at_ clock) clock taken := by
  obtain ⟨hkept, hbegun, -, heq | ⟨hfull, hlater⟩⟩ := h.kept.at_ h.begun
  · rwa [heq]
  · have hbefore (t : ℚ) (ht : t ∈ taken) : t < (a.at_ clock).started :=
      (h.times t ht).2.2.trans_le hlater
    refine ⟨hkept, hbegun, fun t ht => ⟨(h.times t ht).1, (h.times t ht).2.1, ?_⟩, h.share, ?_⟩
    · exact (hbefore t ht).trans (lt_add_of_pos_right _ hkept.some_window)
    · have hnone : taken.countP ((a.at_ clock).started ≤ ·) = 0 :=
        List.countP_eq_zero.2 fun t ht => by simpa using hbefore t ht
      rw [hnone, hfull, Nat.cast_zero, zero_add]

/-- In the grid the open window is the one that starts where it was opened. -/
theorem open_eq (h : Ledger c w t₀ a clock taken) {k : ℤ} (hk : within t₀ w k clock = true)
    (hopen : clock < a.started + w) : t₀ + k * w = a.started := by
  obtain ⟨n, hn⟩ := h.kept.started
  have hw := h.kept.some_window
  simp only [within, Bool.and_eq_true, decide_eq_true_eq] at hk
  have hkn : (k : ℚ) < n + 1 := by
    rw [← mul_lt_mul_iff_left₀ hw]
    linarith [hk.1]
  have hnk : (n : ℚ) < k + 1 := by
    rw [← mul_lt_mul_iff_left₀ hw]
    linarith [hk.2, h.begun]
  have heq : k = n := by
    have hkn : k < (n : ℤ) + 1 := by exact_mod_cast hkn
    have hnk : (n : ℤ) < k + 1 := by exact_mod_cast hnk
    omega
  rw [heq, hn, Int.cast_natCast]

/-- **A token that is taken** is one of the share of its window. -/
theorem take (h : Ledger c w t₀ a clock taken) (hsome : 1 ≤ (a.at_ clock).tokens) :
    Ledger c w t₀ { a.at_ clock with tokens := (a.at_ clock).tokens - 1 } clock
      (clock :: taken) := by
  obtain ⟨-, -, hopen, -⟩ := h.kept.at_ h.begun
  have hat := h.at_
  refine ⟨⟨hat.kept.capacity, hat.kept.window, hat.kept.some_capacity, hat.kept.some_window,
    hat.kept.started, ?_⟩, hat.begun, ?_, fun k => ?_, ?_⟩
  · have := hat.kept.tokens
    dsimp only
    omega
  · intro t ht
    rcases List.mem_cons.1 ht with rfl | ht
    · exact ⟨h.kept.since.trans h.begun, le_refl _, hopen⟩
    · exact hat.times t ht
  · rw [List.countP_cons]
    split
    · rename_i hk
      -- the window that the token is taken of is the open one
      have hstart := hat.open_eq hk hopen
      have hle : taken.countP (within t₀ w k) ≤ taken.countP ((a.at_ clock).started ≤ ·) := by
        refine List.countP_mono_left fun t _ ht => ?_
        simp only [within, Bool.and_eq_true, decide_eq_true_eq] at ht ⊢
        exact hstart ▸ ht.1
      have hleft := hat.left
      push_cast
      omega
    · simpa using hat.share k
  · have hleft := hat.left
    rw [List.countP_cons, if_pos (by simpa using hat.begun)]
    push_cast
    linarith

theorem countP_before (h : Ledger c w t₀ a clock taken) (n : ℕ) :
    (taken.countP (· < t₀ + n * w) : ℤ) ≤ c * n := by
  induction n with
  | zero =>
    have hnone : taken.countP (· < t₀ + (0 : ℕ) * w) = 0 :=
      List.countP_eq_zero.2 fun t ht => by simpa using (h.times t ht).1
    rw [hnone]
    simp
  | succ n ih =>
    have hsplit : taken.countP (· < t₀ + (n + 1 : ℕ) * w) ≤
        taken.countP (· < t₀ + n * w) + taken.countP (within t₀ w n) := by
      refine countP_le_add fun t _ ht => ?_
      simp only [within, Bool.and_eq_true, decide_eq_true_eq] at ht ⊢
      rcases lt_or_ge t (t₀ + n * w) with hlt | hge
      · exact .inl hlt
      · exact .inr ⟨by exact_mod_cast hge, by exact_mod_cast ht⟩
    have hshare := h.share n
    push_cast at hsplit ⊢
    linarith

/-- **Up to a moment** no more tokens are taken than the windows give that have been
opened. -/
theorem countP_upTo (h : Ledger c w t₀ a clock taken) {t : ℚ} (ht : t₀ ≤ t) :
    (taken.countP (· ≤ t) : ℤ) ≤ c * (⌊(t - t₀) / w⌋ + 1) := by
  have hw := h.kept.some_window
  obtain ⟨n, hn⟩ := Int.eq_ofNat_of_zero_le
    (Int.floor_nonneg.2 (div_nonneg (sub_nonneg.2 ht) hw.le))
  have hlt : t < t₀ + (n + 1 : ℕ) * w := by
    have := Int.lt_floor_add_one ((t - t₀) / w)
    rw [hn, div_lt_iff₀ hw] at this
    push_cast at this ⊢
    linarith
  have hle : taken.countP (· ≤ t) ≤ taken.countP (· < t₀ + (n + 1 : ℕ) * w) :=
    List.countP_mono_left fun s _ hs => by simpa using lt_of_le_of_lt (by simpa using hs) hlt
  calc (taken.countP (· ≤ t) : ℤ) ≤ taken.countP (· < t₀ + (n + 1 : ℕ) * w) := Int.ofNat_le.2 hle
    _ ≤ c * (n + 1 : ℕ) := h.countP_before (n + 1)
    _ = c * (⌊(t - t₀) / w⌋ + 1) := by rw [hn, Nat.cast_succ]

end Ledger

end Allowance

end RepairLoop

/-!
## The hint — when a refused request would be granted

A refused request is told how long the present window lasts. That is exact: whatever is looked at
or refused in the meantime, the same request goes on being refused until that time has passed, and
is granted from then on (`Reached.hint_exact`). It does not matter how many windows have passed
since the allowance was looked at last, nor how many tokens were taken at a time before.
-/

namespace RepairLoop

namespace Allowance

variable {c count left : Int} {w t₀ t u start : ℚ} {a a' b : Allowance ℚ} {e : Exhausted ℚ}

/-! ## Looking at an allowance -/

/-- Nothing happens before the window ends. -/
theorem at_of_open (h : t < a.started + a.window) : a.at_ t = a := by
  unfold at_
  dsimp only
  rw [if_neg (by linarith)]

/-- Once it has ended, the window that the moment lies in is open and full. -/
theorem at_of_passed (hc : 1 ≤ a.capacity) (hw : 0 < a.window) (h : a.started + a.window ≤ t) :
    (a.at_ t).tokens = a.capacity ∧ (a.at_ t).capacity = a.capacity ∧
      (a.at_ t).window = a.window ∧ a.started + a.window ≤ (a.at_ t).started ∧
      (a.at_ t).started ≤ t ∧ t < (a.at_ t).started + a.window := by
  -- what was left of the old window is not looked at
  let full : Allowance ℚ := { a with tokens := a.capacity }
  have hfull : a.at_ t = full.at_ t := by
    unfold at_
    dsimp only [full]
    rw [if_pos (by linarith), if_pos (by linarith)]
  have hkept : full.Kept a.capacity a.window a.started :=
    ⟨rfl, rfl, hc, hw, ⟨0, by simp [full]⟩, by simp only [full]; omega⟩
  have hbegan : full.started ≤ t := by
    simp only [full]
    linarith
  rw [hfull]
  obtain ⟨hat, hbegun, hends, hopen | ⟨htokens, hlater⟩⟩ := hkept.at_ hbegan
  · rw [hopen] at hends
    simp only [full] at hends
    linarith
  · exact ⟨htokens, hat.capacity, hat.window, hlater, hbegun, hends⟩

/-! ## What can be reached -/

/-- What becomes of an allowance that was made full at `t₀`, as time passes, while it is looked at
and any numbers of tokens are asked for. -/
inductive Reached (c : Int) (w t₀ : ℚ) : Allowance ℚ → ℚ → Prop
  | made {a : Allowance ℚ} (h : make c w t₀ = .ok a) : Reached c w t₀ a t₀
  | later {a : Allowance ℚ} {t u : ℚ} (h : Reached c w t₀ a t) (hle : t ≤ u) : Reached c w t₀ a u
  | look {a : Allowance ℚ} {t : ℚ} (h : Reached c w t₀ a t) : Reached c w t₀ (a.at_ t) t
  | take {a : Allowance ℚ} {t : ℚ} (h : Reached c w t₀ a t) (count : Int) :
      Reached c w t₀ (a.take count t).1 t

/-- An allowance of so many tokens in windows of such a length, one of which has begun. -/
structure Runs (c : Int) (w : ℚ) (a : Allowance ℚ) (t : ℚ) : Prop where
  capacity : a.capacity = c
  window : a.window = w
  some_capacity : 1 ≤ c
  some_window : 0 < w
  begun : a.started ≤ t

theorem Runs.at_ (h : Runs c w a t) : Runs c w (a.at_ t) t ∧ t < (a.at_ t).started + w := by
  have hcapacity : 1 ≤ a.capacity := h.capacity ▸ h.some_capacity
  have hwindow : 0 < a.window := h.window ▸ h.some_window
  rcases lt_or_ge t (a.started + a.window) with hopen | hpassed
  · rw [at_of_open hopen]
    exact ⟨h, h.window ▸ hopen⟩
  · obtain ⟨-, hc, hw, -, hbegun, hends⟩ := at_of_passed hcapacity hwindow hpassed
    exact ⟨⟨hc.trans h.capacity, hw.trans h.window, h.some_capacity, h.some_window, hbegun⟩,
      h.window ▸ hends⟩

theorem Reached.runs (h : Reached c w t₀ a t) : Runs c w a t := by
  induction h with
  | made h =>
    obtain ⟨hkept, -, hstarted⟩ := make_kept h
    exact ⟨hkept.capacity, hkept.window, hkept.some_capacity, hkept.some_window, hstarted.le⟩
  | later _ hle ih =>
    exact ⟨ih.capacity, ih.window, ih.some_capacity, ih.some_window, ih.begun.trans hle⟩
  | look _ ih => exact ih.at_.1
  | @take a t _ count ih =>
    rcases take_cases a count t with ⟨-, htake⟩ | ⟨-, htake⟩ <;> rw [htake]
    · exact ih.at_.1
    · exact ⟨ih.at_.1.capacity, ih.at_.1.window, ih.some_capacity, ih.some_window, ih.at_.1.begun⟩

/-! ## While no token is taken -/

/-- What becomes of an allowance while no token is taken: time passes, it is looked at, and
requests are refused or want nothing. -/
inductive Idle (a : Allowance ℚ) (t : ℚ) : Allowance ℚ → ℚ → Prop
  | here : Idle a t a t
  | later {b : Allowance ℚ} {u v : ℚ} (h : Idle a t b u) (hle : u ≤ v) : Idle a t b v
  | look {b : Allowance ℚ} {u : ℚ} (h : Idle a t b u) : Idle a t (b.at_ u) u
  | refused {b : Allowance ℚ} {u : ℚ} (h : Idle a t b u) {count : Int} {e : Exhausted ℚ}
      (hrefused : (b.take count u).2 = .error e) : Idle a t (b.take count u).1 u
  | nothing {b : Allowance ℚ} {u : ℚ} (h : Idle a t b u) : Idle a t (b.take 0 u).1 u

/-- So many tokens are left in the window that began at a time; or a later one is open and full. -/
structure Waits (c : Int) (w start : ℚ) (left : Int) (b : Allowance ℚ) (u : ℚ) : Prop where
  runs : Runs c w b u
  phase : b.started = start ∧ b.tokens = left ∨ start + w ≤ b.started ∧ b.tokens = c

/-- Looking keeps that. The window ends when it should, and then a full one is open. -/
theorem Waits.at_ (h : Waits c w start left b u) : Waits c w start left (b.at_ u) u ∧
    (u < start + w → (b.at_ u).started = start ∧ (b.at_ u).tokens = left) ∧
    (start + w ≤ u → (b.at_ u).tokens = c) := by
  obtain ⟨hruns, hphase⟩ := h
  have hbegun := hruns.begun
  have hw := hruns.some_window
  rcases lt_or_ge u (b.started + b.window) with hopen | hpassed
  · rw [at_of_open hopen]
    rw [hruns.window] at hopen
    refine ⟨⟨hruns, hphase⟩, fun hlt => ?_, fun hge => ?_⟩
    · rcases hphase with hphase | ⟨hlater, -⟩
      · exact hphase
      · linarith
    · rcases hphase with ⟨hstart, -⟩ | ⟨-, hfull⟩
      · linarith
      · exact hfull
  · obtain ⟨hfull, -, -, hlater, -⟩ := at_of_passed (hruns.capacity ▸ hruns.some_capacity)
      (hruns.window ▸ hruns.some_window) hpassed
    rw [hruns.capacity] at hfull
    rw [hruns.window] at hlater hpassed
    have hstart : start ≤ b.started := by
      rcases hphase with ⟨hstart, -⟩ | ⟨hlate, -⟩
      · exact hstart.ge
      · linarith
    refine ⟨⟨hruns.at_.1, .inr ⟨by linarith, hfull⟩⟩, fun hlt => ?_, fun _ => hfull⟩
    linarith

/-- **While no token is taken** the number of those that are left changes only as a window ends. -/
theorem Waits.idle (h : Waits c w start left a t) (hidle : Idle a t b u) :
    Waits c w start left b u := by
  induction hidle with
  | here => exact h
  | later _ hle ih =>
    have hruns := ih.runs
    exact ⟨⟨hruns.capacity, hruns.window, hruns.some_capacity, hruns.some_window,
      hruns.begun.trans hle⟩, ih.phase⟩
  | look _ ih => exact ih.at_.1
  | @refused b u _ count e hrefused ih =>
    rcases take_cases b count u with ⟨-, htake⟩ | ⟨-, htake⟩ <;> rw [htake] at hrefused ⊢
    · exact ih.at_.1
    · cases hrefused
  | @nothing b u _ ih =>
    rcases take_cases b 0 u with ⟨-, htake⟩ | ⟨-, htake⟩ <;> rw [htake]
    · exact ih.at_.1
    · simpa using ih.at_.1

/-! ## The hint -/

theorem orZero_of_pos {x : ℚ} (h : 0 < x) : orZero x = x := by
  unfold orZero
  rw [if_pos (by simpa [Scale.ofNat] using h)]

/-- **The hint is exact.** A request that an allowance refuses, but could ever grant, is told a
time of at most a window. While no token is taken it is refused until that time has passed, each
time with what is left of it, and granted from then on. -/
theorem Reached.hint_exact (h : Reached c w t₀ a t) (hcount : count ≤ c)
    (hrefused : a.take count t = (a', .error e)) :
    0 < e.retryAfter ∧ e.retryAfter ≤ w ∧ ∀ b u, Idle a' t b u →
      (u < t + e.retryAfter →
        ∃ e', (b.take count u).2 = .error e' ∧ u + e'.retryAfter = t + e.retryAfter) ∧
      (t + e.retryAfter ≤ u → (b.take count u).2 = .ok ()) := by
  obtain ⟨hruns, hends⟩ := h.runs.at_
  rcases take_cases a count t with ⟨hfew, htake⟩ | ⟨-, htake⟩ <;> rw [htake] at hrefused
  swap
  · cases hrefused
  obtain ⟨rfl, he⟩ := Prod.mk.inj hrefused
  have hhint : e.retryAfter = (a.at_ t).started + w - t := by
    rw [← Except.error.inj he]
    dsimp only
    rw [hruns.window, orZero_of_pos (by linarith)]
    ring
  have hbegun := hruns.begun
  have hwaits : Waits c w (a.at_ t).started (a.at_ t).tokens (a.at_ t) t :=
    ⟨hruns, .inl ⟨rfl, rfl⟩⟩
  refine ⟨by linarith, by linarith, fun b u hidle => ?_⟩
  obtain ⟨hnow, hsame, hfull⟩ := (hwaits.idle hidle).at_
  constructor
  · intro hlt
    obtain ⟨hstart, hleft⟩ := hsame (by linarith)
    rcases take_cases b count u with ⟨-, htake⟩ | ⟨hmany, -⟩
    · refine ⟨_, by rw [htake], ?_⟩
      dsimp only
      rw [hnow.runs.window, hstart, orZero_of_pos (by linarith)]
      linarith
    · omega
  · intro hge
    have htokens := hfull (by linarith)
    rcases take_cases b count u with ⟨hfew', -⟩ | ⟨-, htake⟩
    · omega
    · rw [htake]

end Allowance

end RepairLoop
