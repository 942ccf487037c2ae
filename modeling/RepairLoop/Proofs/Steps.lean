/-!
# Steps that may fail

What is known of a sequence of steps that has come to a result: each step
came to one. The steps are values that may be errors, or work on a state
that may stop; in the second case a step also leaves the state from which
the next one starts.
-/

namespace RepairLoop

variable {ε ε' α β σ : Type}

/-- A result of two steps in a row is a result of the second at a result of
the first. -/
theorem ok_of_bind {x : Except ε α} {f : α → Except ε β} {b : β} (h : (x >>= f) = .ok b) :
    ∃ a, x = .ok a ∧ f a = .ok b := by
  cases x with
  | error e => cases h
  | ok a => exact ⟨a, rfl, h⟩

/-- Errors told in other words leave the results as they are. -/
theorem mapError_eq_ok {x : Except ε α} {f : ε → ε'} {a : α} :
    x.mapError f = .ok a ↔ x = .ok a := by
  cases x with
  | error e =>
    constructor <;> intro h <;> cases h
  | ok b =>
    constructor <;> intro h <;> cases h <;> rfl

/-- What a test holds of has come to a result. -/
theorem ok_of_any {x : Except ε α} {p : α → Bool} (h : x.toOption.any p = true) :
    ∃ a, x = .ok a ∧ p a = true := by
  cases x with
  | error e => cases h
  | ok a => exact ⟨a, rfl, h⟩

/-! ## Work on a state -/

/-- Two steps in a row: the second starts where the first has ended, and a
fault of the first is the fault of both. -/
theorem run_bind_eq (x : ExceptT ε (StateM σ) α) (f : α → ExceptT ε (StateM σ) β) (s : σ) :
    (x >>= f).run s =
      match x.run s with
      | (.ok a, s') => (f a).run s'
      | (.error e, s') => (.error e, s') := by
  rw [ExceptT.run_bind]
  cases hx : x.run s with
  | mk r s' =>
    simp only [bind, StateT.bind, hx]
    cases r <;> rfl

/-- A result of two steps in a row is a result of the second, from where the
first has come to one. -/
theorem run_ok_of_bind {x : ExceptT ε (StateM σ) α} {f : α → ExceptT ε (StateM σ) β} {b : β}
    {s s' : σ} (h : (x >>= f).run s = (.ok b, s')) :
    ∃ a t, x.run s = (.ok a, t) ∧ (f a).run t = (.ok b, s') := by
  rw [run_bind_eq] at h
  split at h
  · rename_i a t heq
    exact ⟨a, t, heq, h⟩
  · cases (Prod.mk.inj h).1

/-- Where the first step has come to a result, the second goes on. -/
theorem run_bind_of_ok {x : ExceptT ε (StateM σ) α} {f : α → ExceptT ε (StateM σ) β} {a : α}
    {s t : σ} (h : x.run s = (.ok a, t)) : (x >>= f).run s = (f a).run t := by
  rw [run_bind_eq, h]

/-- What a test holds of has come to a result, and to a state. -/
theorem run_ok_of_any {x : ExceptT ε (StateM σ) α} {p : α → Bool} {s : σ}
    (h : (x.run s).1.toOption.any p = true) : ∃ a t, x.run s = (.ok a, t) ∧ p a = true := by
  obtain ⟨a, ha, hp⟩ := ok_of_any h
  exact ⟨a, _, Prod.ext ha rfl, hp⟩

/-- What is known already is the result, and the state stays. -/
theorem run_ok_of_known {x : Except ε α} {a : α} {s s' : σ}
    (h : (liftM x : ExceptT ε (StateM σ) α).run s = (.ok a, s')) : x = .ok a ∧ s = s' := by
  obtain ⟨hx, hs⟩ := Prod.mk.inj h
  exact ⟨hx, hs⟩

theorem run_bind_of_known {x : Except ε α} {f : α → ExceptT ε (StateM σ) β} {a : α} {s : σ}
    (h : x = .ok a) : ((liftM x : ExceptT ε (StateM σ) α) >>= f).run s = (f a).run s := by
  subst h
  exact run_bind_of_ok rfl

/-- A step that cannot fail, in front of steps that may. -/
theorem run_lift_bind (x : StateM σ α) (f : α → ExceptT ε (StateM σ) β) (s : σ) :
    (liftM x >>= f).run.run s = (f (x.run s).1).run.run (x.run s).2 := rfl

/-- Faults told in other words leave the results and the state as they are. -/
theorem run_mapError_eq (x : ExceptT ε (StateM σ) α) (f : ε → ε') (s : σ) :
    (ExceptT.mk (do return ((← x.run).mapError f)) : ExceptT ε' (StateM σ) α).run s =
      ((x.run s).1.mapError f, (x.run s).2) := rfl

theorem run_ok_of_pure {a b : α} {s s' : σ}
    (h : (pure a : ExceptT ε (StateM σ) α).run s = (.ok b, s')) : a = b ∧ s = s' := by
  obtain ⟨ha, hs⟩ := Prod.mk.inj h
  exact ⟨Except.ok.inj ha, hs⟩

end RepairLoop
