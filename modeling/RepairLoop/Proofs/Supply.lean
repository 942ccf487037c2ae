import RepairLoop.Lifecycle
import RepairLoop.Proofs.Steps
/-!
# Supply — names are given out once

A name is read back as the number that it was made of (`numberFrom_nameOf`), so
two numbers have two names. The count of the names that were given out only
grows, whatever is taken from the supply (`Grows`).
-/

namespace RepairLoop.Supply

/-! ## Names -/

/-- The value of a hexadecimal digit. -/
def digitValue (c : Char) : Nat := if c.isDigit then c.toNat - 48 else c.toNat - 87

/-- The number that hexadecimal digits write, behind those that were read. -/
def numberFrom (n : Nat) (ds : List Char) : Nat :=
  ds.foldl (fun n c => 16 * n + digitValue c) n

theorem digitValue_digitChar : ∀ d < 16, digitValue (Nat.digitChar d) = d := by
  decide

theorem numberFrom_toDigits (n : Nat) : numberFrom 0 (Nat.toDigits 16 n) = n := by
  induction n using Nat.strongRecOn with
  | ind n ih =>
    rw [Nat.toDigits_eq_if (by decide)]
    split
    · rename_i hlt
      simp [numberFrom, digitValue_digitChar n hlt]
    · have hless : n / 16 < n := by omega
      have hread := ih (n / 16) hless
      rw [numberFrom] at hread ⊢
      rw [List.foldl_append, hread, List.foldl_cons, List.foldl_nil,
        digitValue_digitChar _ (Nat.mod_lt n (by decide))]
      omega

/-- Zeros in front do not count. -/
theorem numberFrom_replicate (k : Nat) (ds : List Char) :
    numberFrom 0 (List.replicate k '0' ++ ds) = numberFrom 0 ds := by
  induction k with
  | zero => rfl
  | succ k ih => exact ih

theorem numberFrom_nameOf (n : Nat) : numberFrom 0 (nameOf n).toList = n := by
  rw [nameOf, String.toList_ofList, numberFrom_replicate, numberFrom_toDigits]

/-- **Two numbers have two names.** -/
theorem nameOf_inj {m n : Nat} (h : nameOf m = nameOf n) : m = n := by
  rw [← numberFrom_nameOf m, h, numberFrom_nameOf]

/-! ## The count of names -/

variable {α β ε : Type}

/-- What was given out is not taken back. -/
def Grows (x : StateM Supply α) : Prop := ∀ s, s.given ≤ (x.run s).2.given

theorem Grows.freshName : Grows Supply.freshName := fun s => Nat.le_succ s.given

theorem Grows.readClock : Grows Supply.readClock := fun _ => Nat.le_refl _

theorem Grows.pure (a : α) : Grows (Pure.pure a) := fun _ => Nat.le_refl _

theorem Grows.bind {x : StateM Supply α} {f : α → StateM Supply β} (hx : Grows x)
    (hf : ∀ a, Grows (f a)) : Grows (x >>= f) := fun s =>
  Nat.le_trans (hx s) (hf _ _)

section

variable {x : ExceptT ε (StateM Supply) α} {f : α → ExceptT ε (StateM Supply) β}

theorem Grows.of_run {s s' : Supply} {r : Except ε α} (hx : Grows x.run)
    (h : x.run s = (r, s')) : s.given ≤ s'.given := by
  have hgrows := hx s
  rwa [StateT.run, h] at hgrows

/-- Steps that may fail. -/
theorem Grows.run_bind (hx : Grows x.run) (hf : ∀ a, Grows (f a).run) :
    Grows (x >>= f).run := by
  intro s
  have hfirst := hx s
  have hrun : ((x >>= f).run s) = _ := run_bind_eq x f s
  rw [StateT.run] at hfirst ⊢
  rw [hrun]
  cases h : x.run s with
  | mk r t =>
    rw [h] at hfirst
    cases r with
    | ok a => exact Nat.le_trans hfirst (hf a t)
    | error e => exact hfirst

theorem Grows.run_pure (a : α) : Grows (Pure.pure a : ExceptT ε (StateM Supply) α).run :=
  fun _ => Nat.le_refl _

theorem Grows.run_known (r : Except ε α) :
    Grows (liftM r : ExceptT ε (StateM Supply) α).run := fun _ => Nat.le_refl _

theorem Grows.run_lift {x : StateM Supply α} (hx : Grows x) :
    Grows (liftM x : ExceptT ε (StateM Supply) α).run := hx

end

theorem Grows.mapM {f : α → StateM Supply β} (hf : ∀ a, Grows (f a)) (xs : List α) :
    Grows (xs.mapM f) := by
  induction xs with
  | nil => exact .pure _
  | cons x xs ih =>
    rw [List.mapM_cons]
    exact .bind (hf x) fun _ => .bind ih fun _ => .pure _

/-! ## Actions -/

/-- The supply when the clock was read. -/
def afterReading (s : Supply) : Supply := (Supply.readClock.run s).2

/-- **An action only ever reads the clock**: never where it is refused, twice where a patch
is applied, and once otherwise. -/
theorem actNow_supply (p : Patch) (a : PatchAction) (s : Supply) :
    ((p.actNow a).run.run s).2 = s ∨ ((p.actNow a).run.run s).2 = s.afterReading ∨
      ((p.actNow a).run.run s).2 = s.afterReading.afterReading := by
  unfold Patch.actNow
  split
  · exact .inl rfl
  · split
    · dsimp only
      rw [run_lift_bind, run_lift_bind]
      split <;> exact .inr (.inr rfl)
    · dsimp only
      rw [run_lift_bind, run_lift_bind]
      split <;> exact .inr (.inl rfl)

/-- An action takes no name. -/
theorem Grows.actNow (p : Patch) (a : PatchAction) : Grows (p.actNow a).run := by
  intro s
  have hread (s : Supply) : s.given ≤ s.afterReading.given := Grows.readClock s
  rcases actNow_supply p a s with h | h | h
  · exact Nat.le_of_eq (congrArg given h.symm)
  · exact h ▸ hread s
  · exact h ▸ Nat.le_trans (hread s) (hread _)

end RepairLoop.Supply
