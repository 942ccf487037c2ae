import Mathlib.Data.List.Nodup
/-!
# Lists in which repetitions are erased

Of items that stand in a list more than once the first stays. What is erased from the front of a
list does not depend on what follows (`eraseDups_prefix`), and to erase repetitions before items
are seen in another way changes nothing that is left of them after
(`eraseDups_map_eraseDups`). A beginning of a list has no repetition exactly if erasing them leaves
it as it is (`take_nodup_iff`).
-/

namespace RepairLoop

variable {α β : Type} [BEq α] [LawfulBEq α] [BEq β] [LawfulBEq β]

theorem nodup_eraseDups (xs : List α) : xs.eraseDups.Nodup := by
  induction hn : xs.length using Nat.strongRecOn generalizing xs with
  | ind n ih =>
    cases xs with
    | nil => simp
    | cons x xs =>
      have hless := List.length_filter_le (fun y => !y == x) xs
      rw [List.length_cons] at hn
      rw [List.eraseDups_cons, List.nodup_cons]
      exact ⟨by simp, ih _ (by omega) _ rfl⟩

/-- Where no two items come to the same, what comes of a list without repetitions has none. -/
theorem eraseDups_filterMap {f : α → Option β}
    (hf : ∀ a b c, f a = some c → f b = some c → a = b) (xs : List α) :
    (xs.filterMap f).eraseDups = xs.eraseDups.filterMap f := by
  induction hn : xs.length using Nat.strongRecOn generalizing xs with
  | ind n ih =>
    cases xs with
    | nil => rfl
    | cons x xs =>
      have hless : (xs.filter fun y => !y == x).length < n := by
        have := List.length_filter_le (fun y => !y == x) xs
        rw [List.length_cons] at hn
        omega
      rw [List.eraseDups_cons, List.filterMap_cons, List.filterMap_cons, ← ih _ hless _ rfl,
        List.filterMap_filter]
      cases hx : f x with
      | none =>
        refine congrArg List.eraseDups (List.filterMap_congr fun y _ => ?_)
        by_cases hy : y = x
        · simp [hy, hx]
        · simp [hy]
      | some c =>
        simp only [List.eraseDups_cons]
        rw [List.filter_filterMap]
        refine congrArg (fun ys => c :: List.eraseDups ys) (List.filterMap_congr fun y _ => ?_)
        by_cases hy : y = x
        · simp [hy, hx]
        · cases hfy : f y with
          | none => simp [hy]
          | some d =>
            have hd : d ≠ c := fun hd => hy (hf y x c (hd ▸ hfy) hx)
            simp [hy, hd]

theorem eraseDups_filter (p : α → Bool) (xs : List α) :
    (xs.filter p).eraseDups = xs.eraseDups.filter p := by
  have hguard (a b c : α) (ha : Option.guard p a = some c) (hb : Option.guard p b = some c) :
      a = b := (Option.guard_eq_some_iff.1 ha).1.trans (Option.guard_eq_some_iff.1 hb).1.symm
  rw [← List.filterMap_eq_filter]
  exact eraseDups_filterMap hguard xs

theorem eraseDups_prefix (xs ys : List α) : xs.eraseDups <+: (xs ++ ys).eraseDups := by
  rw [List.eraseDups_append]
  exact List.prefix_append _ _

theorem eraseDups_of_nodup {xs : List α} (h : xs.Nodup) : xs.eraseDups = xs := by
  induction xs with
  | nil => simp
  | cons x xs ih =>
    obtain ⟨hx, hxs⟩ := List.nodup_cons.1 h
    have hall : xs.filter (fun y => !y == x) = xs :=
      List.filter_eq_self.2 fun y hy => by simpa using fun heq : y = x => hx (heq ▸ hy)
    rw [List.eraseDups_cons, hall, ih hxs]

/-- Repetitions may be erased before the items are seen in another way and after. -/
theorem eraseDups_map_eraseDups (f : α → β) (xs : List α) :
    (xs.eraseDups.map f).eraseDups = (xs.map f).eraseDups := by
  induction hn : xs.length using Nat.strongRecOn generalizing xs with
  | ind n ih =>
    cases xs with
    | nil => rfl
    | cons x xs =>
      have hless : (xs.filter fun y => !y == x).length < n := by
        have := List.length_filter_le (fun y => !y == x) xs
        rw [List.length_cons] at hn
        omega
      -- what is seen as something else than the first item is another item
      have hother : ((xs.filter fun y => !y == x).map f).filter (fun z => !z == f x) =
          (xs.map f).filter fun z => !z == f x := by
        rw [List.filter_map, List.filter_map, List.filter_filter]
        refine congrArg (List.map f) (List.filter_congr fun y _ => ?_)
        by_cases hy : y = x <;> simp [hy]
      rw [List.eraseDups_cons, List.map_cons, List.map_cons, List.eraseDups_cons,
        List.eraseDups_cons, eraseDups_filter, ih _ hless _ rfl, ← eraseDups_filter, hother]

/-- **A beginning without a repetition** is what erasing the repetitions leaves of it. -/
theorem take_nodup_iff (n : Nat) (xs : List α) :
    (xs.take n).Nodup ↔ xs.eraseDups.take n = xs.take n := by
  constructor
  · intro h
    have hall : xs.eraseDups = xs.take n ++ ((xs.drop n).removeAll (xs.take n)).eraseDups := by
      have happend := @List.eraseDups_append _ _ _ (xs.take n) (xs.drop n)
      rwa [List.take_append_drop, eraseDups_of_nodup h] at happend
    rw [hall, List.take_append, List.take_take, Nat.min_self]
    rcases Nat.le_total xs.length n with hle | hle
    · rw [List.drop_eq_nil_of_le hle]
      simp
    · rw [List.length_take, Nat.min_eq_left hle, Nat.sub_self, List.take_zero, List.append_nil]
  · intro h
    rw [← h]
    exact (nodup_eraseDups xs).sublist (List.take_sublist _ _)

end RepairLoop
