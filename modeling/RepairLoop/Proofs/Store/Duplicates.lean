import Mathlib.Data.List.Forall2
import Mathlib.Data.List.Nodup
import RepairLoop.Proofs.Store.Changes
/-!
# Store — one issue stands for a defect

An issue that is found again is not stored again. The earliest pending issue of the same
defect stands for it (`standing?`), and only where there is none is it stored itself
(`take`). So issues of defects that were taken in are taken in under the same names, one by
one, and the store stays as it is; what it refused it refuses again
(`AllNew.takeAll_again`). A name comes twice exactly where a defect does
(`AllNew.nodup_iff`).
-/

namespace RepairLoop

/-- What is wrong in a line. In which column is left out. -/
structure Defect where
  filePath : String
  line : Int
  kind : IssueKind
  message : String
  deriving DecidableEq

/-- Where the defect lies that was found. -/
def Finding.defect (f : Finding) : Defect := ⟨f.filePath, f.line, f.kind, f.message⟩

namespace Issue

/-- What was found, for which the issue was made. -/
def finding (i : Issue) : Finding :=
  ⟨i.filePath, i.line, i.column, i.severity, i.kind, i.message, i.suggestion, i.rule.getD "",
    i.context⟩

def defect (i : Issue) : Defect := ⟨i.filePath, i.line, i.kind, i.message⟩

/-- The issue waits to be worked on, or is. -/
def isPending (i : Issue) : Bool := i.status == .open_ || i.status == .inProgress

/-- The issue says of a defect that it is still there. -/
def tells (d : Defect) (i : Issue) : Bool := i.defect == d && i.isPending

/-- The times of a new issue lie in the calendar. -/
structure Dated (i : Issue) : Prop where
  created : i.createdAt.toUniversal?.isSome = true
  updated : i.updatedAt.toUniversal?.isSome = true
  resolved : i.resolvedAt = none

end Issue

namespace Store

variable {s s' s'' : Store} {i j k : Issue} {is js rs : List Issue} {d : Defect} {e : StoreFault}

/-! ## The issue of a defect -/

/-- The earliest pending issue of a defect. -/
def standing? (s : Store) (d : Defect) : Option Issue :=
  (oldestFirst Issue.createdAt (s.issues.filter (Issue.tells d))).head?

theorem standing?_spec (h : s.standing? d = some j) :
    j ∈ s.issues ∧ j.defect = d ∧ j.isPending = true := by
  have hmem := List.mem_mergeSort.1 (List.mem_of_mem_head? h)
  simpa [Issue.tells] using hmem

theorem standing?_eq_none :
    s.standing? d = none ↔ s.issues.filter (Issue.tells d) = [] := by
  rw [standing?, List.head?_eq_none_iff]
  constructor
  · intro h
    exact List.perm_nil.1 (h ▸ (List.mergeSort_perm _ _).symm)
  · intro h
    rw [oldestFirst, h, List.mergeSort_nil]

theorem standing?_congr (h : s'.issues = s.issues) (d : Defect) :
    s'.standing? d = s.standing? d := by
  rw [standing?, standing?, h]

/-- An issue of another defect changes nothing. -/
theorem standing?_append_of_ne (h : i.defect ≠ d) :
    standing? { s with issues := s.issues ++ [i] } d = s.standing? d := by
  have hne : ¬ i.tells d = true := by simp [Issue.tells, h]
  rw [standing?, standing?, List.filter_append, List.filter_cons_of_neg hne, List.filter_nil,
    List.append_nil]

/-- Where none stands for its defect, a new issue does. -/
theorem standing?_append_self (hnone : s.standing? i.defect = none) (hi : i.isPending = true) :
    standing? { s with issues := s.issues ++ [i] } i.defect = some i := by
  rw [standing?_eq_none] at hnone
  have hself : i.tells i.defect = true := by simp [Issue.tells, hi]
  rw [standing?, List.filter_append, hnone, List.nil_append, List.filter_cons_of_pos hself,
    List.filter_nil, oldestFirst, List.mergeSort_singleton]
  rfl

/-- What stands for a defect still stands for it. -/
def Retains (s s' : Store) : Prop := ∀ d j, s.standing? d = some j → s'.standing? d = some j

theorem Retains.refl (s : Store) : Retains s s := fun _ _ h => h

theorem Retains.trans (h : Retains s s') (h' : Retains s' s'') : Retains s s'' :=
  fun d j hj => h' d j (h d j hj)

/-! ## Taking in an issue -/

/-- Takes in an issue as the one that stands for its defect, or as a new one. -/
def take (s : Store) (i : Issue) : Except StoreFault (Issue × Store) := do
  match ← s.duplicateOf? i with
  | some j => .ok (j, s)
  | none =>
    let s' ← s.addIssue i
    .ok (i, s')

/-- An issue is new if it is pending and none has its name. -/
structure New (s : Store) (i : Issue) : Prop where
  unknown : ∀ j ∈ s.issues, j.id ≠ i.id
  pending : i.isPending = true

/-- A new issue is no duplicate of itself. -/
theorem New.duplicateOf?_eq (h : s.New i) :
    s.duplicateOf? i = if fits i.line then .ok (s.standing? i.defect) else .error .tooLarge := by
  have hkey : s.issues.filter (fun j => j.filePath == i.filePath && j.line == i.line &&
        j.kind == i.kind && j.message == i.message && j.id != i.id &&
        (j.status == .open_ || j.status == .inProgress)) =
      s.issues.filter (Issue.tells i.defect) := by
    refine List.filter_congr fun j hj => ?_
    have hid : (j.id != i.id) = true := bne_iff_ne.2 (h.unknown j hj)
    rw [Bool.eq_iff_iff]
    simp [hid, Issue.tells, Issue.defect, Issue.isPending, and_assoc]
  rw [duplicateOf?, hkey, standing?]
  cases fits i.line <;> rfl

/-- The issue that stands for the defect of a new one is taken for it. -/
theorem New.take_of_standing (h : s.New i) (hline : fits i.line = true)
    (hstands : s.standing? i.defect = some j) : s.take i = .ok (j, s) := by
  rw [take, h.duplicateOf?_eq, if_pos hline, hstands]
  rfl

theorem New.take_of_none (h : s.New i) (hline : fits i.line = true)
    (hnone : s.standing? i.defect = none) :
    s.take i = (do .ok (i, ← s.addIssue i)) := by
  rw [take, h.duplicateOf?_eq, if_pos hline, hnone]
  rfl

/-- **An issue that is taken in stands for its defect from now on**, under the name that
it was taken in with, and whatever stood for a defect before still does. -/
theorem New.take_ok (h : s.New i) (htake : s.take i = .ok (k, s')) :
    fits i.line = true ∧ (∃ j, s'.standing? i.defect = some j ∧ j.id = k.id) ∧ s.Retains s' ∧
      (s' = s ∨ ∃ kept, kept.id = i.id ∧ s' = { s with issues := s.issues ++ [kept] }) := by
  by_cases hline : fits i.line = true
  · refine ⟨hline, ?_⟩
    cases hstands : s.standing? i.defect with
    | some j =>
      rw [h.take_of_standing hline hstands] at htake
      obtain ⟨rfl, rfl⟩ := Prod.mk.inj (Except.ok.inj htake)
      exact ⟨⟨j, hstands, rfl⟩, .refl s, .inl rfl⟩
    | none =>
      -- what is stored is the issue up to its times, so it stands for the same defect
      rw [h.take_of_none hline hstands] at htake
      obtain ⟨t, hadd, hpair⟩ := ok_of_bind htake
      obtain ⟨rfl, rfl⟩ := Prod.mk.inj (Except.ok.inj hpair)
      obtain ⟨kept, hkept, -, rfl⟩ := addIssue_kept hadd
      obtain ⟨_, _, _, hsame⟩ := keptIssue_eq hkept
      have hdefect : kept.defect = i.defect := by rw [hsame]; rfl
      have hpending : kept.isPending = true := by rw [hsame]; exact h.pending
      have hid : kept.id = i.id := by rw [hsame]
      rw [← hdefect] at hstands ⊢
      refine ⟨⟨kept, standing?_append_self hstands hpending, hid⟩, fun d j hj => ?_,
        .inr ⟨kept, hid, rfl⟩⟩
      rw [standing?_append_of_ne, hj]
      -- a defect that something stood for is another one
      rintro rfl
      cases hstands.symm.trans hj
  · rw [take, h.duplicateOf?_eq, if_neg hline] at htake
    cases htake

/-- **A new issue is refused where its line or, if nothing stands for its defect, its
column is too large.** -/
theorem New.take_error_iff (h : s.New i) (hdated : i.Dated) :
    s.take i = .error e ↔ e = .tooLarge ∧ (fits i.line = false ∨
      s.standing? i.defect = none ∧ fits i.column = false) := by
  have hsame {x : Except StoreFault (Issue × Store)} {refused : Prop}
      (hx : x = .error .tooLarge) (hr : refused) : x = .error e ↔ e = .tooLarge ∧ refused := by
    rw [hx, Except.error.injEq, eq_comm]
    exact ⟨fun he => ⟨he, hr⟩, And.left⟩
  cases hline : fits i.line with
  | false =>
    refine hsame ?_ (.inl rfl)
    rw [take, h.duplicateOf?_eq, hline]
    rfl
  | true =>
    cases hstands : s.standing? i.defect with
    | some j => simp [h.take_of_standing hline hstands]
    | none =>
      obtain ⟨created, hcreated⟩ := keptTime_isOk hdated.created
      obtain ⟨updated, hupdated⟩ := keptTime_isOk hdated.updated
      have hfree : s.issue? i.id = none := List.find?_eq_none.2 fun j hj => by
        simpa using h.unknown j hj
      have hkept : keptIssue i = if fits i.column then
          .ok { i with createdAt := created, updatedAt := updated, resolvedAt := none }
          else .error .tooLarge := by
        rw [keptIssue, hcreated, hupdated, hdated.resolved, hline, Bool.true_and]
        rfl
      rw [h.take_of_none hline hstands, addIssue, hkept]
      cases hcolumn : fits i.column with
      | false => exact hsame rfl (.inr ⟨rfl, rfl⟩)
      | true =>
        simp only [bind, Except.bind, if_true, hfree, Option.isSome_none]
        simp

/-! ## Taking in issues one after another -/

/-- Takes in issues as far as the store does. -/
def takeAll (s : Store) : List Issue → Except StoreFault (List Issue) × Store
  | [] => (.ok [], s)
  | i :: is =>
    match s.take i with
    | .error e => (.error e, s)
    | .ok (k, s') => ((takeAll s' is).1.map (k :: ·), (takeAll s' is).2)

theorem takeAll_cons_ok (h : s.take i = .ok (k, s')) :
    s.takeAll (i :: is) = ((s'.takeAll is).1.map (k :: ·), (s'.takeAll is).2) := by
  rw [takeAll, h]

theorem takeAll_cons_error (h : s.take i = .error e) : s.takeAll (i :: is) = (.error e, s) := by
  rw [takeAll, h]

/-- The first of some issues was taken in, and the others were. -/
theorem takeAll_cons_eq_ok (h : s.takeAll (i :: is) = (.ok rs, s')) :
    ∃ k t ks, s.take i = .ok (k, t) ∧ t.takeAll is = (.ok ks, s') ∧ rs = k :: ks := by
  cases htake : s.take i with
  | error e =>
    rw [takeAll_cons_error htake] at h
    cases (Prod.mk.inj h).1
  | ok kt =>
    obtain ⟨k, t⟩ := kt
    rw [takeAll_cons_ok htake] at h
    obtain ⟨hks, hs'⟩ := Prod.mk.inj h
    cases hrest : (t.takeAll is).1 with
    | error e =>
      rw [hrest] at hks
      cases hks
    | ok ks =>
      rw [hrest] at hks
      exact ⟨k, t, ks, rfl, Prod.ext hrest hs', (Except.ok.inj hks).symm⟩

/-- Issues are new, each under a name of its own. -/
structure AllNew (s : Store) (is : List Issue) : Prop where
  each : ∀ i ∈ is, s.New i
  names : (is.map Issue.id).Nodup

theorem AllNew.tail (h : s.AllNew (i :: is)) (htake : s.take i = .ok (k, s')) : s'.AllNew is := by
  have hnames : i.id ∉ is.map Issue.id ∧ (is.map Issue.id).Nodup := List.nodup_cons.1 h.names
  refine ⟨fun j hj => ⟨fun l hl => ?_, (h.each j (List.mem_cons_of_mem i hj)).pending⟩, hnames.2⟩
  have hold := (h.each j (List.mem_cons_of_mem i hj)).unknown
  obtain ⟨-, -, -, rfl | ⟨kept, hkept, rfl⟩⟩ := (h.each i List.mem_cons_self).take_ok htake
  · exact hold l hl
  · rcases List.mem_append.1 hl with hl | hl
    · exact hold l hl
    · rintro hsame
      rw [List.mem_singleton.1 hl, hkept] at hsame
      exact hnames.1 (hsame ▸ List.mem_map_of_mem hj)

/-- What is in the store behind them was there before, or has one of their names. -/
theorem AllNew.mem_takeAll (h : s.AllNew is) (hj : j ∈ (s.takeAll is).2.issues) :
    j ∈ s.issues ∨ ∃ i ∈ is, j.id = i.id := by
  induction is generalizing s with
  | nil => exact .inl hj
  | cons i is ih =>
    cases htake : s.take i with
    | error e =>
      rw [takeAll_cons_error htake] at hj
      exact .inl hj
    | ok kt =>
      obtain ⟨k, t⟩ := kt
      rw [takeAll_cons_ok htake] at hj
      rcases ih (h.tail htake) hj with hj | ⟨l, hl, hid⟩
      · obtain ⟨-, -, -, rfl | ⟨kept, hkept, rfl⟩⟩ := (h.each i List.mem_cons_self).take_ok htake
        · exact .inl hj
        · rcases List.mem_append.1 hj with hj | hj
          · exact .inl hj
          · rw [List.mem_singleton.1 hj]
            exact .inr ⟨i, List.mem_cons_self, hkept⟩
      · exact .inr ⟨l, List.mem_cons_of_mem i hl, hid⟩

/-- An issue of a defect is taken in under a name, and nothing is stored for it. -/
def Knows (s : Store) (d : Defect) (id : String) : Prop :=
  fits d.line = true ∧ ∃ j, s.standing? d = some j ∧ j.id = id

theorem Knows.congr {id : String} (h : s.Knows d id) (hs : s'.issues = s.issues) :
    s'.Knows d id := by
  obtain ⟨hline, j, hj, hid⟩ := h
  exact ⟨hline, j, by rw [standing?_congr hs, hj], hid⟩

theorem Knows.on {id : String} (h : s.Knows d id) (hs : s.Retains s') : s'.Knows d id := by
  obtain ⟨hline, j, hj, hid⟩ := h
  exact ⟨hline, j, hs d j hj, hid⟩

/-- **Issues that were taken in are known under the names that came of it.** -/
theorem AllNew.knows (h : s.AllNew is) (hall : s.takeAll is = (.ok rs, s')) :
    List.Forall₂ s'.Knows (is.map Issue.defect) (rs.map Issue.id) ∧ s.Retains s' := by
  induction is generalizing s rs with
  | nil =>
    obtain ⟨hrs, rfl⟩ := Prod.mk.inj hall
    obtain rfl := Except.ok.inj hrs
    exact ⟨.nil, .refl s⟩
  | cons i is ih =>
    obtain ⟨k, t, ks, htake, hrest, rfl⟩ := takeAll_cons_eq_ok hall
    obtain ⟨hline, hknown, hretains, -⟩ := (h.each i List.mem_cons_self).take_ok htake
    obtain ⟨hall, hretains'⟩ := ih (h.tail htake) hrest
    exact ⟨.cons (Knows.on ⟨hline, hknown⟩ hretains') hall, hretains.trans hretains'⟩

/-- **Issues of known defects are taken in under the known names**, and the store stays. -/
theorem AllNew.takeAll_of_knows (h : s.AllNew is) {ids : List String}
    (hknows : List.Forall₂ s.Knows (is.map Issue.defect) ids) :
    ∃ rs, s.takeAll is = (.ok rs, s) ∧ rs.map Issue.id = ids := by
  induction is generalizing ids with
  | nil =>
    cases hknows
    exact ⟨[], rfl, rfl⟩
  | cons i is ih =>
    rw [List.map_cons] at hknows
    obtain ⟨id, ids, ⟨hline, j, hj, rfl⟩, hrest, rfl⟩ := List.forall₂_cons_left_iff.1 hknows
    have htake := (h.each i List.mem_cons_self).take_of_standing hline hj
    obtain ⟨rs, hrs, rfl⟩ := ih (h.tail htake) hrest
    exact ⟨j :: rs, by rw [takeAll_cons_ok htake, hrs]; rfl, rfl⟩

/-- Issues are taken in behind others. -/
theorem takeAll_append (h : s.takeAll is = (.ok rs, s')) :
    s.takeAll (is ++ js) = ((s'.takeAll js).1.map (rs ++ ·), (s'.takeAll js).2) := by
  induction is generalizing s rs with
  | nil =>
    obtain ⟨hrs, rfl⟩ := Prod.mk.inj h
    obtain rfl := Except.ok.inj hrs
    cases hjs : s.takeAll js with
    | mk r t => cases r <;> simp [hjs, Except.map]
  | cons i is ih =>
    obtain ⟨k, t, ks, htake, hrest, rfl⟩ := takeAll_cons_eq_ok h
    rw [List.cons_append, takeAll_cons_ok htake, ih hrest]
    cases (s'.takeAll js).1 <;> rfl

theorem AllNew.front (h : s.AllNew (is ++ js)) : s.AllNew is :=
  ⟨fun i hi => h.each i (List.mem_append_left js hi),
    List.Nodup.of_append_left (List.map_append ▸ h.names)⟩

theorem AllNew.after (h : s.AllNew (is ++ js)) (hall : s.takeAll is = (.ok rs, s')) :
    s'.AllNew js := by
  induction is generalizing s rs with
  | nil =>
    obtain ⟨-, rfl⟩ := Prod.mk.inj hall
    exact h
  | cons i is ih =>
    obtain ⟨k, t, ks, htake, hrest, -⟩ := takeAll_cons_eq_ok hall
    exact ih (h.tail htake) hrest

/-- **Where issues are refused, those in front of the refused one were taken in.** -/
theorem takeAll_eq_error (h : s.takeAll is = (.error e, s')) :
    ∃ before i after rs, is = before ++ i :: after ∧ s.takeAll before = (.ok rs, s') ∧
      s'.take i = .error e := by
  induction is generalizing s with
  | nil => cases (Prod.mk.inj h).1
  | cons i is ih =>
    cases htake : s.take i with
    | error e' =>
      rw [takeAll_cons_error htake] at h
      obtain ⟨he, rfl⟩ := Prod.mk.inj h
      obtain rfl := Except.error.inj he
      exact ⟨[], i, is, [], rfl, rfl, htake⟩
    | ok kt =>
      obtain ⟨k, t⟩ := kt
      rw [takeAll_cons_ok htake] at h
      obtain ⟨hmap, hs'⟩ := Prod.mk.inj h
      have herror : (t.takeAll is).1 = .error e := by
        cases hrest : (t.takeAll is).1 with
        | ok ks => rw [hrest] at hmap; cases hmap
        | error e' => rw [hrest] at hmap; exact hmap
      obtain ⟨before, j, after, rs, rfl, hbefore, hj⟩ := ih (Prod.ext herror hs')
      refine ⟨i :: before, j, after, k :: rs, rfl, ?_, hj⟩
      rw [takeAll_cons_ok htake, hbefore]
      rfl

/-! ## Taking them in again -/

variable {t : Store}

/-- Issues of the same defects as some that were taken in are taken in under the names
that came of it. -/
theorem AllNew.takeAll_of_defects (h : s.AllNew is) (hall : s.takeAll is = (.ok rs, s'))
    (hissues : t.issues = s'.issues) (hagain : t.AllNew js)
    (hsame : js.map Issue.finding = is.map Issue.finding) :
    ∃ ks, t.takeAll js = (.ok ks, t) ∧ ks.map Issue.id = rs.map Issue.id := by
  have hdefects : js.map Issue.defect = is.map Issue.defect := by
    have hmap := congrArg (List.map Finding.defect) hsame
    rwa [List.map_map, List.map_map] at hmap
  have hknows := (h.knows hall).1.imp fun _ _ hd => hd.congr hissues
  exact hagain.takeAll_of_knows (hdefects ▸ hknows)

/-- What was refused is refused again, if its times are of the calendar. -/
theorem AllNew.takeAll_of_refused (h : s.AllNew is) (hdated : ∀ i ∈ is, i.Dated)
    (hdated' : ∀ j ∈ js, j.Dated) (hall : s.takeAll is = (.error e, s'))
    (hissues : t.issues = s'.issues) (hagain : t.AllNew js)
    (hsame : js.map Issue.finding = is.map Issue.finding) : t.takeAll js = (.error e, t) := by
  obtain ⟨before, i, after, rs, rfl, hbefore, hi⟩ := takeAll_eq_error hall
  rw [List.map_append, List.map_cons] at hsame
  obtain ⟨before', rest, rfl, hfront, hrest⟩ := List.map_eq_append_iff.1 hsame
  obtain ⟨j, after', rfl, hj, -⟩ := List.map_eq_cons_iff.1 hrest
  -- the issues in front of it are known by now, so it meets the store that refused it
  obtain ⟨ks, hks, -⟩ := h.front.takeAll_of_defects hbefore hissues hagain.front hfront
  have hrefused : t.take j = .error e := by
    have hi' := (h.after hbefore).each i List.mem_cons_self
    have hj' := (hagain.after hks).each j List.mem_cons_self
    have hdefect : j.defect = i.defect := congrArg Finding.defect hj
    have hline : j.line = i.line := congrArg Finding.line hj
    have hcolumn : j.column = i.column := congrArg Finding.column hj
    rw [hj'.take_error_iff (hdated' j (by simp)), standing?_congr hissues, hdefect, hline, hcolumn]
    exact (hi'.take_error_iff (hdated i (by simp))).1 hi
  rw [takeAll_append hks, takeAll_cons_error hrefused]
  rfl

/-- **Issues of the same defects are taken in under the same names, or refused as they
were**, and nothing more is stored. Only a refusal depends on times. -/
theorem AllNew.takeAll_again (h : s.AllNew is) (hissues : t.issues = (s.takeAll is).2.issues)
    (hagain : t.AllNew js) (hsame : js.map Issue.finding = is.map Issue.finding)
    (hdated : (∃ rs, (s.takeAll is).1 = .ok rs) ∨ (∀ i ∈ is, i.Dated) ∧ ∀ j ∈ js, j.Dated) :
    (t.takeAll js).1.map (List.map Issue.id) = (s.takeAll is).1.map (List.map Issue.id) ∧
      (t.takeAll js).2 = t := by
  cases hall : s.takeAll is with
  | mk r s' =>
    rw [hall] at hissues hdated
    cases r with
    | ok rs =>
      obtain ⟨ks, hks, hids⟩ := h.takeAll_of_defects hall hissues hagain hsame
      rw [hks]
      exact ⟨congrArg Except.ok hids, rfl⟩
    | error e =>
      rcases hdated with ⟨rs, hrs⟩ | ⟨hdated, hdated'⟩
      · cases hrs
      · rw [h.takeAll_of_refused hdated hdated' hall hissues hagain hsame]
        exact ⟨rfl, rfl⟩

/-! ## Names that come twice -/

/-- No two stored issues have one name. -/
def Distinct (s : Store) : Prop := (s.issues.map Issue.id).Nodup

theorem New.take_distinct (h : s.New i) (hs : s.Distinct) (htake : s.take i = .ok (k, s')) :
    s'.Distinct := by
  obtain ⟨-, -, -, rfl | ⟨kept, hkept, rfl⟩⟩ := h.take_ok htake
  · exact hs
  · rw [Distinct, List.map_append, List.map_singleton, hkept]
    refine List.nodup_append.2 ⟨hs, List.nodup_singleton _, ?_⟩
    intro a ha b hb
    obtain ⟨j, hj, rfl⟩ := List.mem_map.1 ha
    rw [List.mem_singleton.1 hb]
    exact h.unknown j hj

theorem AllNew.takeAll_distinct (h : s.AllNew is) (hs : s.Distinct) :
    (s.takeAll is).2.Distinct := by
  induction is generalizing s with
  | nil => exact hs
  | cons i is ih =>
    cases htake : s.take i with
    | error e =>
      rw [takeAll_cons_error htake]
      exact hs
    | ok kt =>
      obtain ⟨k, t⟩ := kt
      rw [takeAll_cons_ok htake]
      exact ih (h.tail htake) ((h.each i List.mem_cons_self).take_distinct hs htake)

/-- The name under which an issue of a defect is taken in. -/
def nameFor (s : Store) (d : Defect) : String := ((s.standing? d).map Issue.id).getD ""

theorem Knows.nameFor_eq {id : String} (h : s.Knows d id) : s.nameFor d = id := by
  obtain ⟨-, j, hj, rfl⟩ := h
  rw [nameFor, hj]
  rfl

/-- Two known defects have two names. -/
theorem Distinct.nameFor_inj (hs : s.Distinct) {d' : Defect} {id id' : String} (h : s.Knows d id)
    (h' : s.Knows d' id') (hsame : s.nameFor d = s.nameFor d') : d = d' := by
  rw [h.nameFor_eq, h'.nameFor_eq] at hsame
  obtain ⟨-, j, hj, hid⟩ := h
  obtain ⟨-, j', hj', hid'⟩ := h'
  obtain ⟨hmem, rfl, -⟩ := standing?_spec hj
  obtain ⟨hmem', rfl, -⟩ := standing?_spec hj'
  rw [List.inj_on_of_nodup_map hs hmem hmem' (hid.trans (hsame.trans hid'.symm))]

/-- **Issues are taken in under distinct names exactly where their defects are distinct.** -/
theorem AllNew.nodup_iff (h : s.AllNew is) (hs : s.Distinct) (hall : s.takeAll is = (.ok rs, s')) :
    (rs.map Issue.id).Nodup ↔ (is.map Issue.defect).Nodup := by
  have hdistinct : s'.Distinct := by
    have hbehind := h.takeAll_distinct hs
    rwa [hall] at hbehind
  have hknows := (h.knows hall).1
  generalize is.map Issue.defect = ds at hknows ⊢
  generalize rs.map Issue.id = ids at hknows ⊢
  -- in the end each defect has one name, and only it has it
  have hnames : ids = ds.map s'.nameFor ∧ ∀ d ∈ ds, ∃ id, s'.Knows d id := by
    induction hknows with
    | nil => exact ⟨rfl, by simp⟩
    | cons hd _ ih =>
      rw [List.map_cons, hd.nameFor_eq, ← ih.1]
      exact ⟨rfl, List.forall_mem_cons.2 ⟨⟨_, hd⟩, ih.2⟩⟩
  obtain ⟨rfl, hall⟩ := hnames
  refine ⟨List.Nodup.of_map _, fun hnodup => hnodup.map_on fun d hd d' hd' hsame => ?_⟩
  obtain ⟨id, hid⟩ := hall d hd
  obtain ⟨id', hid'⟩ := hall d' hd'
  exact hdistinct.nameFor_inj hid hid' hsame

end Store

end RepairLoop
