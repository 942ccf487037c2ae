import Mathlib.Data.List.Basic
import Mathlib.Data.Nat.Dist
import RepairLoop.Diff.Make
import RepairLoop.Proofs.Diff.Apply
/-!
# Diff — the nearest place for a block

`StandsAt` says what it means that a block stands at a position of a file, and
`FitsAt` that it does so at or behind a floor. The search outwards from a
position tries every position within its bounds, the nearer ones first and of
two equally near ones the lower one first (`mem_candidates`,
`candidates_sorted`), so it misses nothing and what it finds is nearest
(`nearest?_eq_none_iff`, `nearest_of_nearest?`). `locate` looks for an exact
place first and for one up to blanks only if there is no exact one at all
(`locate_eq_none_iff`, `nearest_of_locate`).
-/

namespace RepairLoop.Diff

variable {lines block : List (List Char)} {loose : Bool}

/-! ## Places -/

/-- There is a line for every line of the block from the position on, and each
agrees with its own: exactly, or loosely up to blanks at line ends. -/
def StandsAt (loose : Bool) (lines block : List (List Char)) (p : Nat) : Prop :=
  ∀ i (hi : i < block.length), ∃ l, lines[p + i]? = some l ∧ lineMatches loose l block[i] = true

/-- The block stands at a position at or behind the floor, within the lines. -/
structure FitsAt (loose : Bool) (lines block : List (List Char)) (floor p : Nat) : Prop where
  floor_le : floor ≤ p
  room : p + block.length ≤ lines.length
  stands : StandsAt loose lines block p

/-- The position is the nearest to `aim` of those with a property, and of two
that are equally near the lower one. -/
structure Nearest (P : Nat → Prop) (aim p : Nat) : Prop where
  holds : P p
  le : ∀ q, P q → Nat.dist aim p ≤ Nat.dist aim q
  lower : ∀ q, P q → Nat.dist aim p = Nat.dist aim q → p ≤ q

theorem standsAt_cons {e : List Char} {es : List (List Char)} {p : Nat} :
    StandsAt loose lines (e :: es) p ↔
      (∃ l, lines[p]? = some l ∧ lineMatches loose l e = true) ∧ StandsAt loose lines es (p + 1) := by
  constructor
  · intro h
    refine ⟨h 0 (Nat.succ_pos _), fun i hi => ?_⟩
    have hnext := h (i + 1) (Nat.succ_lt_succ hi)
    rwa [List.getElem_cons_succ, Nat.add_comm i 1, ← Nat.add_assoc] at hnext
  · rintro ⟨hhead, htail⟩ i hi
    cases i with
    | zero => exact hhead
    | succ i =>
      have hnext := htail i (Nat.lt_of_succ_lt_succ hi)
      rwa [Nat.add_assoc, Nat.add_comm 1 i] at hnext

/-- **The comparison of lines is the test whether the block stands there.** -/
theorem matchesAt_iff {p : Nat} :
    matchesAt lines block loose p = true ↔ StandsAt loose lines block p := by
  unfold matchesAt
  induction block generalizing p with
  | nil => simp [blockMatches, StandsAt]
  | cons e es ih =>
    rw [standsAt_cons, ← ih]
    cases hp : lines[p]? with
    | none =>
      rw [List.drop_eq_nil_of_le (List.getElem?_eq_none_iff.1 hp)]
      simp [blockMatches]
    | some l =>
      obtain ⟨hlt, hl⟩ := List.getElem?_eq_some_iff.1 hp
      rw [List.drop_eq_getElem_cons hlt, hl, blockMatches, Bool.and_eq_true]
      simp

/-- An exact place is a place up to blanks, too. -/
theorem StandsAt.loosely {p : Nat} (h : StandsAt false lines block p) :
    StandsAt true lines block p := by
  intro i hi
  obtain ⟨l, hl, hmatch⟩ := h i hi
  refine ⟨l, hl, ?_⟩
  simp only [lineMatches, Bool.false_eq_true, if_false, beq_iff_eq] at hmatch
  simp [lineMatches, hmatch]

theorem FitsAt.loosely {floor p : Nat} (h : FitsAt false lines block floor p) :
    FitsAt true lines block floor p :=
  ⟨h.floor_le, h.room, h.stands.loosely⟩

/-! ## The search outwards -/

section Search

variable {expected floor limit : Nat}

/-- The positions that are tried at a distance are those within the bounds that
have it. -/
theorem mem_candidates (hf : floor ≤ expected) (hl : expected ≤ limit) {delta p : Nat} :
    p ∈ candidates expected floor limit delta ↔
      floor ≤ p ∧ p ≤ limit ∧ Nat.dist expected p = delta := by
  have hlow : p ∈ (if delta ≤ expected && floor ≤ expected - delta then [expected - delta] else [])
      ↔ delta ≤ expected ∧ floor ≤ expected - delta ∧ p = expected - delta := by
    split <;> rename_i h <;> simp only [Bool.and_eq_true, decide_eq_true_eq] at h <;> simp <;> tauto
  have hhigh : p ∈ (if delta != 0 && expected + delta ≤ limit then [expected + delta] else [])
      ↔ delta ≠ 0 ∧ expected + delta ≤ limit ∧ p = expected + delta := by
    split <;> rename_i h <;>
      simp only [Bool.and_eq_true, decide_eq_true_eq, bne_iff_ne, ne_eq] at h <;> simp <;> tauto
  rw [candidates, List.mem_append, hlow, hhigh, Nat.dist]
  omega

/-- At one distance the lower position is tried first. -/
theorem candidates_sorted (expected floor limit delta : Nat) :
    (candidates expected floor limit delta).Pairwise (· < ·) := by
  unfold candidates
  split <;> split <;> simp_all
  omega

/-- The first value along a range, with what was passed over. -/
theorem exists_of_findSome?_range {α : Type} {f : Nat → Option α} {n : Nat} {a : α}
    (h : (List.range n).findSome? f = some a) :
    ∃ k < n, f k = some a ∧ ∀ j < k, f j = none := by
  induction n with
  | zero => cases h
  | succ n ih =>
    rw [List.range_succ, List.findSome?_append, Option.or_eq_some_iff] at h
    rcases h with h | ⟨hnone, h⟩
    · obtain ⟨k, hk, hfound⟩ := ih h
      exact ⟨k, Nat.lt_succ_of_lt hk, hfound⟩
    · have hlast : f n = some a := by
        rw [List.findSome?_cons] at h
        split at h
        · rename_i heq
          rw [heq, h]
        · cases h
      exact ⟨n, Nat.lt_succ_self n, hlast, fun j hj =>
        List.findSome?_eq_none_iff.1 hnone j (List.mem_range.2 hj)⟩

/-- **The search misses no place within its bounds.** -/
theorem nearest?_eq_none_iff (hf : floor ≤ expected) (hl : expected ≤ limit) :
    nearest? lines block loose expected floor limit = none ↔
      ∀ p, floor ≤ p → p ≤ limit → ¬ StandsAt loose lines block p := by
  have htried : nearest? lines block loose expected floor limit = none ↔
      ∀ delta < max (expected - floor) (limit - expected) + 1,
        ∀ p ∈ candidates expected floor limit delta, ¬ StandsAt loose lines block p := by
    simp only [nearest?, List.findSome?_eq_none_iff, List.mem_range, List.find?_eq_none,
      matchesAt_iff]
  rw [htried]
  constructor
  · intro h p hfp hpl
    -- the reach of the search covers the distance of every position within the bounds
    refine h (Nat.dist expected p) ?_ p ((mem_candidates hf hl).2 ⟨hfp, hpl, rfl⟩)
    simp only [Nat.dist]
    omega
  · intro h delta _ p hp
    obtain ⟨hfp, hpl, -⟩ := (mem_candidates hf hl).1 hp
    exact h p hfp hpl

/-- **What the search finds is nearest**, and the lower one of two places that
are equally near. -/
theorem nearest_of_nearest? (hf : floor ≤ expected) (hl : expected ≤ limit) {p : Nat}
    (h : nearest? lines block loose expected floor limit = some p) :
    Nearest (fun q => floor ≤ q ∧ q ≤ limit ∧ StandsAt loose lines block q) expected p := by
  obtain ⟨delta, -, hfound, hpassed⟩ := exists_of_findSome?_range h
  obtain ⟨hmatch, before, after, hsplit, hbefore⟩ := List.find?_eq_some_iff_append.1 hfound
  have hmem : p ∈ candidates expected floor limit delta := hsplit ▸ by simp
  obtain ⟨hfp, hpl, hdist⟩ := (mem_candidates hf hl).1 hmem
  have hnearer : ∀ q, floor ≤ q ∧ q ≤ limit ∧ StandsAt loose lines block q →
      delta ≤ Nat.dist expected q := by
    rintro q ⟨hfq, hql, hq⟩
    refine Nat.le_of_not_lt fun hlt => ?_
    have hnone := List.find?_eq_none.1 (hpassed _ hlt) q ((mem_candidates hf hl).2 ⟨hfq, hql, rfl⟩)
    exact hnone (matchesAt_iff.2 hq)
  refine ⟨⟨hfp, hpl, matchesAt_iff.1 hmatch⟩, fun q hq => hdist ▸ hnearer q hq, ?_⟩
  rintro q ⟨hfq, hql, hq⟩ heq
  -- a place at the same distance is tried with this one, and what is tried before it does not fit
  have hqmem : q ∈ before ++ p :: after :=
    hsplit ▸ (mem_candidates hf hl).2 ⟨hfq, hql, heq ▸ hdist⟩
  have hsorted := candidates_sorted expected floor limit delta
  rw [hsplit] at hsorted
  rcases List.mem_append.1 hqmem with hq' | hq'
  · have := hbefore q hq'
    rw [matchesAt_iff.2 hq] at this
    cases this
  · rcases List.mem_cons.1 hq' with rfl | hq'
    · exact Nat.le_refl _
    · exact Nat.le_of_lt (List.rel_of_pairwise_cons (List.pairwise_append.1 hsorted).2.1 hq')

end Search

/-! ## Where a block is located -/

/-- The position from which a block is looked for: the expected one, drawn into
the bounds. -/
def aim (expected : Int) (floor limit : Nat) : Nat :=
  (min (max expected floor) limit).toNat

variable {expected : Int} {floor : Nat}

theorem floor_le_aim {limit : Nat} (h : floor ≤ limit) : floor ≤ aim expected floor limit := by
  unfold aim
  omega

theorem aim_le_limit {limit : Nat} : aim expected floor limit ≤ limit := by
  unfold aim
  omega

/-- The places within the bounds of the search are those that fit. -/
theorem fitsAt_iff (hroom : floor + block.length ≤ lines.length) {p : Nat} :
    FitsAt loose lines block floor p ↔
      floor ≤ p ∧ p ≤ lines.length - block.length ∧ StandsAt loose lines block p := by
  constructor
  · rintro ⟨hf, hr, hs⟩
    exact ⟨hf, by omega, hs⟩
  · rintro ⟨hf, hr, hs⟩
    exact ⟨hf, by omega, hs⟩

/-- With room for the block, `locate` is a search for an exact place and, if
there is none, one for a place up to blanks. -/
theorem locate_eq (hroom : floor + block.length ≤ lines.length) :
    locate lines block expected floor =
      (nearest? lines block false (aim expected floor (lines.length - block.length)) floor
        (lines.length - block.length)).or
      (nearest? lines block true (aim expected floor (lines.length - block.length)) floor
        (lines.length - block.length)) := by
  have haim : min (max expected floor).toNat (lines.length - block.length) =
      aim expected floor (lines.length - block.length) := by
    unfold aim
    omega
  have hf : floor ≤ aim expected floor (lines.length - block.length) :=
    floor_le_aim (Nat.le_sub_of_add_le hroom)
  unfold locate
  rw [if_neg (Nat.not_lt.2 hroom)]
  simp only [haim]
  split
  · -- an empty block stands everywhere, so the search ends where it starts
    rename_i hempty
    obtain rfl : block = [] := by simpa using hempty
    rw [nearest?_of_matches hf (by rw [matchesAt_iff]; simp [StandsAt])]
    rfl
  · split <;> rename_i hexact <;> rw [hexact] <;> rfl

/-- **A block is not located exactly where there is no room for it or it stands
nowhere, not even up to blanks.** -/
theorem locate_eq_none_iff :
    locate lines block expected floor = none ↔
      (lines.length : Int) - block.length < floor ∨ ∀ p, ¬ FitsAt true lines block floor p := by
  by_cases hroom : floor + block.length ≤ lines.length
  · have hnone : ∀ loose, nearest? lines block loose
        (aim expected floor (lines.length - block.length)) floor (lines.length - block.length) =
          none ↔ ∀ p, ¬ FitsAt loose lines block floor p := fun loose => by
      rw [nearest?_eq_none_iff (floor_le_aim (Nat.le_sub_of_add_le hroom)) aim_le_limit]
      simp only [fitsAt_iff hroom, not_and]
    rw [locate_eq hroom, Option.or_eq_none_iff, hnone, hnone]
    constructor
    · exact fun h => Or.inr h.2
    · rintro (h | h)
      · omega
      · exact ⟨fun p hp => h p hp.loosely, h⟩
  · have hshort : lines.length < floor + block.length := Nat.lt_of_not_le hroom
    refine iff_of_true (by rw [locate, if_pos hshort]) (Or.inl (by omega))

/-- **A block is located at the nearest exact place, if there is one at all, and
otherwise at the nearest place up to blanks.** -/
theorem nearest_of_locate {p : Nat} (h : locate lines block expected floor = some p) :
    ((∃ q, FitsAt false lines block floor q) →
      Nearest (FitsAt false lines block floor)
        (aim expected floor (lines.length - block.length)) p) ∧
    ((∀ q, ¬ FitsAt false lines block floor q) →
      Nearest (FitsAt true lines block floor)
        (aim expected floor (lines.length - block.length)) p) := by
  have hroom : floor + block.length ≤ lines.length := by
    have := locate_bounds h
    omega
  have hf : floor ≤ aim expected floor (lines.length - block.length) :=
    floor_le_aim (Nat.le_sub_of_add_le hroom)
  have hfits : ∀ loose, (fun q => floor ≤ q ∧ q ≤ lines.length - block.length ∧
      StandsAt loose lines block q) = FitsAt loose lines block floor := fun loose =>
    funext fun q => propext (fitsAt_iff hroom).symm
  rw [locate_eq hroom, Option.or_eq_some_iff] at h
  rcases h with h | ⟨hnone, h⟩
  · have hnear := nearest_of_nearest? hf aim_le_limit h
    rw [hfits] at hnear
    exact ⟨fun _ => hnear, fun hno => absurd hnear.holds (hno p)⟩
  · have hnear := nearest_of_nearest? hf aim_le_limit h
    rw [hfits] at hnear
    refine ⟨fun ⟨q, hq⟩ => ?_, fun _ => hnear⟩
    obtain ⟨hfq, hql, hs⟩ := (fitsAt_iff hroom).1 hq
    exact absurd hs ((nearest?_eq_none_iff hf aim_le_limit).1 hnone q hfq hql)

end RepairLoop.Diff

/-!
## Diff — the stretches of a file that hunks stand on

A section is applied by running along the lines of a file. `walk?` and
`follow?` do so with an index at which every line is looked up, stop where a
line is asked for that is not there, and keep the stretch that each hunk has
used up. They never stop, and come to what `runEntries` and `runHunks` come to
(`walk?_eq`, `follow?_eq`): a hunk walks over as many lines as its old side
has, and for these `locate` has found room. So the stretches lie behind one
another and within the file (`Stretches`). `locate_nearest` puts together what
is known of the place of a hunk.
-/

namespace RepairLoop.Diff

/-- Where a hunk says that it stands, counted from zero. -/
def Hunk.declared (h : Hunk) : Int :=
  if h.oldCount != 0 then (h.oldStart : Int) - 1 else h.oldStart

/-- The lines that a hunk writes from an index on, and the index behind the last
line that it has passed; every line of the file is looked up. -/
def walk? (newline : List Char) (lines : List (List Char)) :
    List Entry → Nat → Option (List (List Char) × Nat)
  | [], index => some ([], index)
  | e :: es, index =>
    match e.tag with
    | .context => do
      let line ← lines[index]?
      let (out, stop) ← walk? newline lines es (index + 1)
      some (line :: out, stop)
    | .removed => do
      let _ ← lines[index]?
      walk? newline lines es (index + 1)
    | .added => do
      let bare : Bool := match es with
        | next :: _ => next.tag == .marker
        | [] => false
      let (out, stop) ← walk? newline lines es index
      some ((if bare then e.content else e.content ++ newline) :: out, stop)
    | .marker => walk? newline lines es index

/-- The hunks applied in turn, from the line at `cursor` on, with every line of
the file looked up; and the stretches of lines, start and end, that the hunks
have used up. -/
def follow? (path : String) (newline : List Char) (lines : List (List Char)) :
    Nat → Nat → List Hunk → Option (List (Nat × Nat) × Except ApplyError (List (List Char)))
  | _, cursor, [] => some ([], .ok (lines.drop cursor))
  | n, cursor, h :: hs =>
    match locate lines h.oldLines h.declared cursor with
    | none => some ([], .error ⟨path, n, h.oldStart⟩)
    | some position => do
      let (out, index) ← walk? newline lines h.entries position
      let (stretches, after) ← follow? path newline lines (n + 1) index hs
      some ((position, index) :: stretches, after.map (slice lines cursor position ++ out ++ ·))

/-- A section applied to a file with every line looked up, and the stretches
that its hunks have used up. -/
def applyTraced? (original : List Char) (p : FilePatch) :
    Option (List (Nat × Nat) × Except ApplyError (List Char)) := do
  let lines := targetLines original p
  let (stretches, run) ← follow? p.path (newlineOf lines) lines 1 0 p.hunks
  some (stretches, run.map fun out =>
    if p.isDeleted then [] else (closeLines (newlineOf lines) out).flatten)

/-- The stretches of a file, from a line on, that some first hunks of a section
have used up: each as long as the old side of its hunk, which stands there, none
before the end of the one in front of it, and none beyond the end of the file. -/
structure Stretches (lines : List (List Char)) (cursor : Nat) (hs : List Hunk)
    (ss : List (Nat × Nat)) : Prop where
  ordered : ss.Pairwise fun s t => s.2 ≤ t.1
  within : ∀ s ∈ ss, cursor ≤ s.1 ∧ s.1 ≤ s.2 ∧ s.2 ≤ lines.length
  stands : List.Forall₂ (fun s h => s.2 = s.1 + h.oldLines.length ∧
    StandsAt true lines h.oldLines s.1) ss (hs.take ss.length)

variable {path : String} {newline : List Char} {lines : List (List Char)}

/-- **A hunk passes as many lines as its old side has**, and each of them is
there if there is room for all. -/
theorem walk?_eq {es : List Entry} {index : Nat} (hroom : index + oldSize es ≤ lines.length) :
    walk? newline lines es index =
        some ((runEntries newline es (lines.drop index)).1, index + oldSize es) ∧
      (runEntries newline es (lines.drop index)).2 = lines.drop (index + oldSize es) := by
  induction es generalizing index with
  | nil => exact ⟨rfl, rfl⟩
  | cons e es ih =>
    -- a line of the old side is there, and what follows starts behind it
    have hold : e.tag.isOld = true → oldSize (e :: es) = oldSize es + 1 ∧
        ∃ l, lines[index]? = some l ∧ lines.drop index = l :: lines.drop (index + 1) := by
      intro htag
      have hsize : oldSize (e :: es) = oldSize es + 1 := List.countP_cons_of_pos htag
      have hlt : index < lines.length := by omega
      exact ⟨hsize, lines[index], List.getElem?_eq_getElem hlt, List.drop_eq_getElem_cons hlt⟩
    have hnew : e.tag.isOld = false → oldSize (e :: es) = oldSize es := fun htag =>
      List.countP_cons_of_neg (by simp [htag])
    rw [walk?.eq_def, runEntries.eq_def]
    simp only
    cases htag : e.tag with
    | context =>
      obtain ⟨hsize, l, hl, hdrop⟩ := hold (by rw [htag]; rfl)
      obtain ⟨hwalk, hrest⟩ := @ih (index + 1) (by omega)
      have hstop : index + 1 + oldSize es = index + oldSize (e :: es) := by omega
      rw [hstop] at hwalk hrest
      simp only [hdrop, List.tail_cons, List.headD_cons, hl, hwalk, hrest, Option.bind_eq_bind,
        Option.bind_some, and_self]
    | removed =>
      obtain ⟨hsize, l, hl, hdrop⟩ := hold (by rw [htag]; rfl)
      obtain ⟨hwalk, hrest⟩ := @ih (index + 1) (by omega)
      have hstop : index + 1 + oldSize es = index + oldSize (e :: es) := by omega
      rw [hstop] at hwalk hrest
      simp only [hdrop, List.tail_cons, hl, hwalk, hrest, Option.bind_eq_bind, Option.bind_some,
        and_self]
    | added =>
      have hsize := hnew (by rw [htag]; rfl)
      obtain ⟨hwalk, hrest⟩ := @ih index (by omega)
      rw [hsize]
      exact ⟨congrArg (Option.bind · _) hwalk, hrest⟩
    | marker =>
      have hsize := hnew (by rw [htag]; rfl)
      rw [hsize]
      exact ih (by omega)

/-- Stretches start with that of the first hunk, if it is found. -/
theorem Stretches.cons {h : Hunk} {hs : List Hunk} {ss : List (Nat × Nat)} {cursor position : Nat}
    (hfloor : cursor ≤ position) (hroom : position + h.oldLines.length ≤ lines.length)
    (hstands : StandsAt true lines h.oldLines position)
    (hrest : Stretches lines (position + h.oldLines.length) hs ss) :
    Stretches lines cursor (h :: hs) ((position, position + h.oldLines.length) :: ss) := by
  refine ⟨List.pairwise_cons.2 ⟨fun s hs => (hrest.within s hs).1, hrest.ordered⟩,
    List.forall_mem_cons.2 ⟨⟨hfloor, Nat.le_add_right _ _, hroom⟩, fun s hs => ?_⟩, ?_⟩
  · obtain ⟨hafter, hle, hend⟩ := hrest.within s hs
    exact ⟨by omega, hle, hend⟩
  · rw [List.length_cons, List.take_succ_cons]
    exact .cons ⟨rfl, hstands⟩ hrest.stands

/-- A block stands where it is located. -/
theorem standsAt_of_locate {block : List (List Char)} {expected : Int} {floor p : Nat}
    (h : locate lines block expected floor = some p) : StandsAt true lines block p := by
  obtain ⟨hexact, hloose⟩ := nearest_of_locate h
  by_cases hq : ∃ q, FitsAt false lines block floor q
  · exact (hexact hq).holds.stands.loosely
  · exact (hloose (not_exists.1 hq)).holds.stands

/-- **Every line that the hunks look up is there**: looked up or not, the run
comes to the same, and the hunks use up stretches in order. -/
theorem follow?_eq (hs : List Hunk) (n cursor : Nat) :
    ∃ ss, follow? path newline lines n cursor hs =
        some (ss, runHunks path newline lines n cursor hs) ∧
      Stretches lines cursor hs ss ∧
      ((∃ out, runHunks path newline lines n cursor hs = .ok out) → ss.length = hs.length) := by
  have hnone : ∀ cursor hs, Stretches lines cursor hs [] := fun _ _ =>
    ⟨.nil, by simp, by simp⟩
  induction hs generalizing n cursor with
  | nil => exact ⟨[], rfl, hnone _ _, fun _ => rfl⟩
  | cons h hs ih =>
    have hlocate : (if h.oldCount != 0 then (h.oldStart : Int) - 1 else h.oldStart) =
      h.declared := rfl
    rw [follow?, runHunks]
    simp only [hlocate]
    cases hpos : locate lines h.oldLines h.declared cursor with
    | none => exact ⟨[], rfl, hnone _ _, by simp⟩
    | some position =>
      obtain ⟨hfloor, hroom⟩ := locate_bounds hpos
      have hsize := length_oldLines h
      have hroom' : position + oldSize h.entries ≤ lines.length := by omega
      obtain ⟨hwalk, hrest⟩ := @walk?_eq newline lines h.entries position hroom'
      rw [← hsize] at hwalk hrest
      obtain ⟨ss, hfollow, hstretches, hall⟩ := ih (n + 1) (position + h.oldLines.length)
      refine ⟨(position, position + h.oldLines.length) :: ss, ?_,
        hstretches.cons hfloor hroom (standsAt_of_locate hpos), ?_⟩
      all_goals
        have hnext : lines.length - (lines.drop (position + h.oldLines.length)).length =
            position + h.oldLines.length := by
          rw [List.length_drop]
          omega
        simp only [hrest, hnext]
      · simp only [hwalk, hfollow, Option.bind_eq_bind, Option.bind_some]
        cases runHunks path newline lines (n + 1) (position + h.oldLines.length) hs <;> rfl
      · rintro ⟨out, hout⟩
        rw [List.length_cons, List.length_cons, hall]
        cases hafter : runHunks path newline lines (n + 1) (position + h.oldLines.length) hs with
        | error e => rw [hafter] at hout; cases hout
        | ok after => exact ⟨after, rfl⟩

/-- **Where a hunk is found, and that its lines are there.** A block is not found
exactly where there is no room for it or it stands nowhere, not even up to
blanks. Otherwise it is found at the exact place nearest to the expected line,
drawn into the bounds, or, if there is no exact place, at the nearest place up
to blanks; of two places that are equally near it is the lower one. So a section
that is applied asks for no line that is not there, and its hunks use up
stretches of the file that lie behind one another. -/
theorem locate_nearest :
    (∀ (lines block : List (List Char)) (expected : Int) (floor : Nat),
      (locate lines block expected floor = none ↔
        (lines.length : Int) - block.length < floor ∨ ∀ p, ¬ FitsAt true lines block floor p) ∧
      ∀ p, locate lines block expected floor = some p →
        ((∃ q, FitsAt false lines block floor q) →
          Nearest (FitsAt false lines block floor)
            (aim expected floor (lines.length - block.length)) p) ∧
        ((∀ q, ¬ FitsAt false lines block floor q) →
          Nearest (FitsAt true lines block floor)
            (aim expected floor (lines.length - block.length)) p)) ∧
    ∀ (original : List Char) (p : FilePatch), ∃ ss,
      applyTraced? original p = some (ss, applyChars original p) ∧
      Stretches (targetLines original p) 0 p.hunks ss ∧
      ((∃ t, applyChars original p = .ok t) → ss.length = p.hunks.length) := by
  refine ⟨fun lines block expected floor => ⟨locate_eq_none_iff, fun p => nearest_of_locate⟩,
    fun original p => ?_⟩
  obtain ⟨ss, hfollow, hstretches, hall⟩ :=
    @follow?_eq p.path (newlineOf (targetLines original p)) (targetLines original p) p.hunks 1 0
  refine ⟨ss, ?_, hstretches, fun ⟨t, ht⟩ => hall ?_⟩
  · rw [applyChars_eq, applyTraced?]
    simp only [hfollow, Option.bind_eq_bind, Option.bind_some]
  · rw [applyChars_eq] at ht
    cases hrun : runHunks p.path (newlineOf (targetLines original p)) (targetLines original p) 1 0
        p.hunks with
    | error e => rw [hrun] at ht; cases ht
    | ok out => exact ⟨out, rfl⟩

/-- The line stands exactly before and behind the one it is expected at, and
equally far from it: the lower place is taken. -/
theorem locate_nearest_tie :
    FitsAt false ["b\n".toList, "a\n".toList, "b\n".toList] ["b".toList] 0 2 ∧
      Nearest (FitsAt false ["b\n".toList, "a\n".toList, "b\n".toList] ["b".toList] 0) 1 0 := by
  have hfits : FitsAt false ["b\n".toList, "a\n".toList, "b\n".toList] ["b".toList] 0 2 :=
    ⟨Nat.zero_le _, by decide, matchesAt_iff.1 (by decide)⟩
  exact ⟨hfits, ((locate_nearest.1 ["b\n".toList, "a\n".toList, "b\n".toList] ["b".toList] 1 0).2
    0 (by decide)).1 ⟨2, hfits⟩⟩

end RepairLoop.Diff
