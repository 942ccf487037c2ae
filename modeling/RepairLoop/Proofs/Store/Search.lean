import RepairLoop.Proofs.Store.Sweep
/-!
# Search — which issues a query finds

A query is put between two percent signs and compared as a pattern (`Fits`, `like_iff`), up to
the first null character on either side. In a pattern the percent sign and the underscore stand
for other characters than themselves. A query that holds neither of them, nor a null character,
is therefore found where it stands (`fits_literal`), and it finds the issues that contain it
(`fitsQuery_iff`). Any other query also finds an issue that does not: one whose message is the
query with other letters for these signs (`impostor_fits`). What is found comes in the order of
the instants, since the times of all issues are kept (`Operation.run_timed`, `newestFirst_eq`).
-/

namespace RepairLoop

/-- The texts of an issue in which a query is looked for. -/
def Issue.texts (i : Issue) : List String := [i.filePath, i.message, i.kind.name]

namespace Store

variable {s s' : Store} {ps cs q : List Char} {query text : String} {limit : Int}

/-! ## Patterns -/

/-- A text fits a pattern. -/
inductive Fits : List Char → List Char → Prop
  | done : Fits [] []
  | any (skipped : List Char) {ps cs : List Char} : Fits ps cs → Fits ('%' :: ps) (skipped ++ cs)
  | one (c : Char) {ps cs : List Char} : Fits ps cs → Fits ('_' :: ps) (c :: cs)
  | same {p c : Char} {ps cs : List Char} : p ≠ '%' → p.toLower = c.toLower → Fits ps cs →
      Fits (p :: ps) (c :: cs)

theorem like_any (skipped : List Char) (h : like ps cs = true) :
    like ('%' :: ps) (skipped ++ cs) = true := by
  induction skipped with
  | nil =>
    cases cs with
    | nil => simpa only [List.append_nil, like] using h
    | cons c cs => simp only [List.nil_append, like, h, Bool.true_or]
  | cons c skipped ih => simp only [List.cons_append, like, ih, Bool.or_true]

theorem like_cons {p c : Char} (hp : p ≠ '%') :
    like (p :: ps) (c :: cs) = ((p == '_' || p.toLower == c.toLower) && like ps cs) := by
  rw [like]
  exact hp

/-- **The comparison finds out whether a text fits.** -/
theorem like_iff : like ps cs = true ↔ Fits ps cs := by
  constructor
  · intro h
    fun_induction like ps cs with
    | case1 cs =>
      obtain rfl := List.isEmpty_iff.1 h
      exact .done
    | case2 ps ih => exact .any [] (ih h)
    | case3 ps c cs ihhere ihlater =>
      rcases Bool.or_eq_true_iff.1 h with h | h
      · exact .any [] (ihhere h)
      · -- the sign stands for one character more
        generalize hpattern : '%' :: ps = pattern at ihlater h
        cases ihlater h with
        | any skipped hrest =>
          obtain rfl := (List.cons.inj hpattern).2
          exact .any (c :: skipped) hrest
        | done => cases hpattern
        | one _ _ => cases hpattern
        | same hne _ _ => exact absurd (List.cons.inj hpattern).1.symm hne
    | case4 => cases h
    | case5 p ps c cs hne ih =>
      obtain ⟨hfirst, hrest⟩ := Bool.and_eq_true_iff.1 h
      rcases Bool.or_eq_true_iff.1 hfirst with hone | hsame
      · obtain rfl := beq_iff_eq.1 hone
        exact .one c (ih hrest)
      · exact .same hne (beq_iff_eq.1 hsame) (ih hrest)
  · intro h
    induction h with
    | done => rw [like, List.isEmpty_nil]
    | any skipped _ ih => exact like_any skipped ih
    | one c _ ih => rw [like_cons (by decide), ih, beq_self_eq_true, Bool.true_or, Bool.true_and]
    | same hne hsame _ ih =>
      rw [like_cons hne, ih, beq_iff_eq.2 hsame, Bool.or_true, Bool.true_and]

instance (ps cs : List Char) : Decidable (Fits ps cs) := decidable_of_iff _ like_iff

/-- The two signs that stand for other characters in a pattern. -/
def IsWild (c : Char) : Prop := c = '%' ∨ c = '_'

instance (c : Char) : Decidable (IsWild c) := inferInstanceAs (Decidable (_ ∨ _))

theorem fits_any_iff : Fits ('%' :: ps) cs ↔ ∃ rest, rest <:+ cs ∧ Fits ps rest := by
  constructor
  · intro h
    cases h with
    | any skipped h => exact ⟨_, List.suffix_append skipped _, h⟩
    | same hne _ _ => exact absurd rfl hne
  · rintro ⟨rest, ⟨skipped, rfl⟩, h⟩
    exact .any skipped h

/-- A character that is no sign stands for itself, whatever its case. -/
theorem fits_cons_iff {p : Char} (hp : ¬ IsWild p) :
    Fits (p :: ps) cs ↔ ∃ c rest, cs = c :: rest ∧ p.toLower = c.toLower ∧ Fits ps rest := by
  constructor
  · intro h
    cases h with
    | any => exact absurd (.inl rfl) hp
    | one => exact absurd (.inr rfl) hp
    | same _ hsame h => exact ⟨_, _, rfl, hsame, h⟩
  · rintro ⟨c, rest, rfl, hsame, h⟩
    exact .same (fun he => hp (.inl he)) hsame h

theorem fits_anything (cs : List Char) : Fits ['%'] cs := by
  have h : Fits ['%'] (cs ++ []) := .any cs .done
  rwa [List.append_nil] at h

theorem fits_front (hq : ∀ c ∈ q, ¬ IsWild c) :
    Fits (q ++ ['%']) cs ↔ q.map Char.toLower <+: cs.map Char.toLower := by
  induction q generalizing cs with
  | nil => exact iff_of_true (fits_anything cs) List.nil_prefix
  | cons p q ih =>
    rw [List.cons_append, fits_cons_iff (hq p List.mem_cons_self)]
    have ih (cs : List Char) :
        Fits (q ++ ['%']) cs ↔ q.map Char.toLower <+: cs.map Char.toLower :=
      ih fun c hc => hq c (List.mem_cons_of_mem _ hc)
    cases cs with
    | nil =>
      refine iff_of_false ?_ ?_
      · rintro ⟨c, rest, h, -⟩
        cases h
      · exact fun h => List.cons_ne_nil _ _ (List.prefix_nil.1 h)
    | cons c cs =>
      rw [List.map_cons, List.map_cons, List.cons_prefix_cons, ← ih]
      constructor
      · rintro ⟨_, _, h, hsame, hrest⟩
        obtain ⟨rfl, rfl⟩ := List.cons.inj h
        exact ⟨hsame, hrest⟩
      · exact fun ⟨hsame, hrest⟩ => ⟨c, cs, rfl, hsame, hrest⟩

/-- **A pattern without signs between two percent signs** fits the texts in which it stands. -/
theorem fits_literal (hq : ∀ c ∈ q, ¬ IsWild c) :
    Fits ('%' :: q ++ ['%']) cs ↔ q.map Char.toLower <:+: cs.map Char.toLower := by
  rw [List.cons_append, fits_any_iff, List.infix_iff_prefix_suffix]
  constructor
  · rintro ⟨rest, hrest, h⟩
    exact ⟨_, (fits_front hq).1 h, List.IsSuffix.map _ hrest⟩
  · rintro ⟨rest, h, hrest⟩
    obtain ⟨front, hfront⟩ := hrest
    obtain ⟨skipped, rest, rfl, -, rfl⟩ := List.map_eq_append_iff.1 hfront.symm
    exact ⟨rest, List.suffix_append skipped rest, (fits_front hq).2 h⟩

/-! ## Queries -/

/-- A text contains a query, letters of ASCII in either case. -/
def Contains (query text : String) : Prop :=
  query.toList.map Char.toLower <:+: text.toList.map Char.toLower

/-- One of the texts of an issue contains a query. -/
def Names (query : String) (i : Issue) : Prop := ∃ text ∈ i.texts, Contains query text

/-- One of the texts of an issue fits a query, read as a pattern. -/
def FitsQuery (query : String) (i : Issue) : Prop :=
  ∃ text ∈ i.texts, Fits (compared (patternOf query)) (compared text)

instance (query text : String) : Decidable (Contains query text) :=
  inferInstanceAs (Decidable (_ <:+: _))

instance (query : String) : DecidablePred (Names query) := fun i =>
  inferInstanceAs (Decidable (∃ text ∈ i.texts, Contains query text))

instance (query : String) : DecidablePred (FitsQuery query) := fun i =>
  inferInstanceAs (Decidable (∃ text ∈ i.texts, Fits _ (compared text)))

/-- A query means what it says: it holds no sign, and no null character ends it early. -/
def Literal (query : String) : Prop := ∀ c ∈ query.toList, ¬ IsWild c ∧ c ≠ '\x00'

/-- The texts of an issue are compared as a whole. -/
def Whole (i : Issue) : Prop := ∀ text ∈ i.texts, '\x00' ∉ text.toList

instance : DecidablePred Whole := fun i =>
  inferInstanceAs (Decidable (∀ text ∈ i.texts, '\x00' ∉ text.toList))

theorem mentions_iff {i : Issue} : mentions (patternOf query) i = true ↔ FitsQuery query i := by
  rw [mentions, List.any_eq_true]
  exact exists_congr fun text => and_congr_right fun _ => like_iff

theorem compared_of_notMem (h : '\x00' ∉ text.toList) : compared text = text.toList :=
  List.takeWhile_eq_self_iff.2 fun _ hc => bne_iff_ne.2 fun he => h (he ▸ hc)

theorem toList_patternOf (query : String) :
    (patternOf query).toList = '%' :: query.toList ++ ['%'] := by
  simp only [patternOf, String.toList_append]
  rfl

/-- **A query that means what it says finds the issues that contain it.** -/
theorem fitsQuery_iff {i : Issue} (hquery : Literal query) (hi : Whole i) :
    FitsQuery query i ↔ Names query i := by
  have hpattern : compared (patternOf query) = '%' :: query.toList ++ ['%'] := by
    rw [← toList_patternOf]
    refine compared_of_notMem fun hmem => ?_
    rw [toList_patternOf, List.mem_append, List.mem_cons, List.mem_singleton] at hmem
    rcases hmem with (h | h) | h
    · exact absurd h (by decide)
    · exact (hquery _ h).2 rfl
    · exact absurd h (by decide)
  refine exists_congr fun text => and_congr_right fun htext => ?_
  rw [hpattern, compared_of_notMem (hi text htext)]
  exact fits_literal fun c hc => (hquery c hc).1

/-! ## An issue that does not contain a query and is found -/

/-- What stands for a character of a query: a letter for each sign. -/
def plainly (c : Char) : Char := if IsWild c then 'x' else c

/-- An issue whose message is a query with other letters for the signs. -/
def impostor (query : String) : Issue :=
  { (default : Issue) with
    id := "impostor", message := String.ofList ((compared query).map plainly) }

theorem fits_plainly (q : List Char) (h : Fits ps cs) : Fits (q ++ ps) (q.map plainly ++ cs) := by
  induction q with
  | nil => exact h
  | cons c q ih =>
    rw [List.cons_append, List.map_cons, List.cons_append]
    by_cases hc : IsWild c
    · rw [plainly, if_pos hc]
      rcases hc with rfl | rfl
      · exact .any ['x'] ih
      · exact .one 'x' ih
    · rw [plainly, if_neg hc]
      exact .same (fun he => hc (.inl he)) rfl ih

/-- The pattern of a query goes on behind its first sign with the query; what comes then may
stand for nothing. -/
theorem compared_patternOf (query : String) :
    ∃ ps, compared (patternOf query) = '%' :: (compared query ++ ps) ∧ Fits ps [] := by
  have hsign : compared (patternOf query) =
      '%' :: (query.toList ++ ['%']).takeWhile (· != '\x00') := by
    rw [compared, toList_patternOf, List.cons_append]
    exact List.takeWhile_cons_of_pos (by decide)
  rw [hsign, List.takeWhile_append]
  split
  · rename_i hall
    have hall : query.toList.takeWhile (· != '\x00') = query.toList :=
      (List.takeWhile_prefix _).eq_of_length hall
    exact ⟨['%'], by rw [compared, hall]; rfl, fits_anything []⟩
  · exact ⟨[], by rw [compared, List.append_nil], .done⟩

theorem plainly_spec {c : Char} (hc : c ≠ '\x00') : ¬ IsWild (plainly c) ∧ plainly c ≠ '\x00' := by
  rw [plainly]
  split
  · decide
  · rename_i h
    exact ⟨h, hc⟩

/-- The texts of the issue hold neither a sign nor a null character. -/
theorem impostor_plain (query : String) :
    ∀ text ∈ (impostor query).texts, ∀ c ∈ text.toList, ¬ IsWild c ∧ c ≠ '\x00' := by
  have hmessage : ∀ c ∈ (impostor query).message.toList, ¬ IsWild c ∧ c ≠ '\x00' := by
    intro c hc
    obtain ⟨d, hd, rfl⟩ := List.mem_map.1 (String.toList_ofList ▸ hc)
    exact plainly_spec (bne_iff_ne.1 (List.mem_takeWhile_imp (p := (· != '\x00')) hd))
  have hothers : (∀ c ∈ "".toList, ¬ IsWild c ∧ c ≠ '\x00') ∧
      ∀ c ∈ IssueKind.typeCompat.name.toList, ¬ IsWild c ∧ c ≠ '\x00' := by
    simp [IsWild, IssueKind.name]
  rw [Issue.texts, List.forall_mem_cons, List.forall_mem_cons, List.forall_mem_singleton]
  exact ⟨hothers.1, hmessage, hothers.2⟩

theorem impostor_whole (query : String) : Whole (impostor query) :=
  fun text htext hmem => (impostor_plain query text htext _ hmem).2 rfl

theorem impostor_fits (query : String) : FitsQuery query (impostor query) := by
  have hmem : (impostor query).message ∈ (impostor query).texts :=
    List.mem_cons_of_mem _ List.mem_cons_self
  obtain ⟨ps, hpattern, hps⟩ := compared_patternOf query
  refine ⟨(impostor query).message, hmem, ?_⟩
  rw [hpattern, compared_of_notMem (impostor_whole query _ hmem),
    show (impostor query).message.toList = (compared query).map plainly ++ [] from
      String.toList_ofList.trans (List.append_nil _).symm]
  exact .any [] (fits_plainly _ hps)

theorem not_names_impostor (h : ¬ Literal query) : ¬ Names query (impostor query) := by
  rintro ⟨text, htext, hcontains⟩
  refine h fun c hc => ?_
  by_contra hsign
  have hletter : c.isAlpha = false := by
    rw [not_and_or, not_not, not_not] at hsign
    rcases hsign with (rfl | rfl) | rfl <;> rfl
  obtain ⟨d, hd, hsame⟩ := List.mem_map.1 (hcontains.subset (List.mem_map_of_mem hc))
  obtain rfl := Text.eq_of_toLower hletter hsame
  exact hsign (impostor_plain query text htext d hd)

/-! ## The order of what is found -/

/-- The issues of a kind, the latest first by the instants at which they were created. -/
def latest (s : Store) (c : Issue → Prop) [DecidablePred c] : List Issue :=
  (s.issues.filter (c ·)).mergeSort fun a b => b.createdAt.instant ≤ a.createdAt.instant

/-- The times at which the issues were created are kept. -/
def Timed (s : Store) : Prop := ∀ i ∈ s.issues, i.createdAt.IsKept

/-- **The texts of kept times order issues as their instants do.** -/
theorem Timed.newestFirst_eq (h : s.Timed) (c : Issue → Bool) :
    newestFirst Issue.createdAt (s.issues.filter c) =
      (s.issues.filter c).mergeSort fun a b => b.createdAt.instant ≤ a.createdAt.instant := by
  have hsort := List.map_mergeSort (f := id) (l := s.issues.filter c)
    (r := fun a b => decide (stampOf b.createdAt ≤ stampOf a.createdAt))
    (s := fun a b => decide (b.createdAt.instant ≤ a.createdAt.instant)) fun a ha b hb => ?_
  · rwa [List.map_id, List.map_id] at hsort
  · have ha := h a (List.mem_of_mem_filter ha)
    have hb := h b (List.mem_of_mem_filter hb)
    rw [decide_eq_decide, ← String.not_lt, ← Int.not_lt]
    exact not_congr (ha.isoText_lt_iff hb)

/-- **What a search yields**: the first of the issues that fit, unless the limit is too large, or
the pattern is too long and there is an issue to compare with it. -/
theorem Timed.searchIssues_eq (h : s.Timed) (hsign : 0 ≤ limit) :
    s.searchIssues query limit =
      if fits limit = false then .error .tooLarge
      else if limit ≠ 0 ∧ s.issues ≠ [] ∧ patternLimit < (patternOf query).utf8ByteSize then
        .error .longPattern
      else .ok ((s.latest (FitsQuery query)).take limit.toNat) := by
  have hfits : s.issues.filter (mentions (patternOf query)) =
      s.issues.filter (FitsQuery query ·) :=
    List.filter_congr fun i _ => by rw [Bool.eq_iff_iff, mentions_iff, decide_eq_true_iff]
  have hfound : newestFirst Issue.createdAt (s.issues.filter (mentions (patternOf query))) =
      s.latest (FitsQuery query) := by
    rw [h.newestFirst_eq, hfits]
    rfl
  have hlong : (limit != 0 && !s.issues.isEmpty &&
        decide (patternLimit < (patternOf query).utf8ByteSize)) = true ↔
      limit ≠ 0 ∧ s.issues ≠ [] ∧ patternLimit < (patternOf query).utf8ByteSize := by
    simp only [Bool.and_eq_true, bne_iff_ne, Bool.not_eq_true', List.isEmpty_eq_false_iff,
      decide_eq_true_eq, and_assoc]
  simp only [searchIssues, Bool.not_eq_true', hfound, if_congr hlong rfl rfl,
    if_neg (Int.not_lt.2 hsign)]

theorem mem_latest {c : Issue → Prop} [DecidablePred c] {i : Issue} :
    i ∈ s.latest c ↔ i ∈ s.issues ∧ c i := by
  rw [latest, List.mem_mergeSort, List.mem_filter, decide_eq_true_iff]

theorem latest_congr {c d : Issue → Prop} [DecidablePred c] [DecidablePred d]
    (h : ∀ i ∈ s.issues, c i ↔ d i) : s.latest c = s.latest d := by
  rw [latest, latest, List.filter_congr fun i hi => decide_eq_decide.2 (h i hi)]

theorem Timed.addIssue {i : Issue} (h : s.Timed) (hadd : s.addIssue i = .ok s') : s'.Timed := by
  obtain ⟨kept, hkept, -, rfl⟩ := addIssue_kept hadd
  obtain ⟨rfl, hkept⟩ := keptIssue_universal hkept
  exact List.forall_mem_append.2 ⟨h, List.forall_mem_singleton.2 hkept.created⟩

theorem Timed.setIssueStatus {id : String} {status : IssueStatus} {now : Moment} (h : s.Timed)
    (hset : s.setIssueStatus id status now = .ok s') : s'.Timed := by
  obtain ⟨time, -, rfl⟩ := setIssueStatus_eq hset
  refine List.forall_mem_map.2 fun i hi => ?_
  split <;> exact h i hi

namespace Operation

/-- **One operation keeps the times at which issues were created.** -/
theorem perform_timed {o : Operation} (h : s.Timed) (hperform : o.perform s = .ok s') :
    s'.Timed := by
  rcases perform_issues hperform with hsame | ⟨i, hadd⟩ | ⟨id, status, now, hset⟩ | ⟨c, hdrop⟩
  · exact fun i hi => h i (hsame ▸ hi)
  · exact h.addIssue hadd
  · exact h.setIssueStatus hset
  · exact fun i hi => h i (List.mem_of_mem_filter (hdrop ▸ hi))

theorem run_timed (ops : List Operation) : (run ops).Timed :=
  run_induction (fun _ hi => (List.not_mem_nil hi).elim) (fun _ _ _ => perform_timed) ops

/-- The store that holds the impostor of a query and nothing else. -/
theorem run_impostor (query : String) :
    (run [.createIssue (impostor query)]).issues = [(impostor query).universal] := rfl

/-- **Search is a search for texts, but for the signs.** Whatever was done to the store before,
a query finds the first of the issues that it fits as a pattern, the latest first. These are the
issues that contain it, in every store and for every limit, exactly if it holds no percent sign,
no underscore and no null character, and is short enough. -/
theorem searchIssues_contains_iff (query : String) :
    ((∀ ops limit, 0 ≤ limit → fits limit = true → (∀ i ∈ (run ops).issues, Whole i) →
        (run ops).searchIssues query limit =
          .ok (((run ops).latest (Names query)).take limit.toNat)) ↔
      Literal query ∧ (patternOf query).utf8ByteSize ≤ patternLimit) ∧
    ∀ ops limit, 0 ≤ limit →
      (run ops).searchIssues query limit =
        if fits limit = false then .error .tooLarge
        else if limit ≠ 0 ∧ (run ops).issues ≠ [] ∧
            patternLimit < (patternOf query).utf8ByteSize then .error .longPattern
        else .ok (((run ops).latest (FitsQuery query)).take limit.toNat) := by
  refine ⟨⟨fun hall => ?_, fun ⟨hquery, hshort⟩ ops limit hsign hlimit hwhole => ?_⟩,
    fun ops limit hsign => (run_timed ops).searchIssues_eq hsign⟩
  · have hissues := run_impostor query
    have hfound := hall [.createIssue (impostor query)] 1 (by decide) rfl
      (by rw [hissues]; exact List.forall_mem_singleton.2 (impostor_whole query))
    rw [(run_timed _).searchIssues_eq (by decide), if_neg (by decide)] at hfound
    have hshort : (patternOf query).utf8ByteSize ≤ patternLimit := by
      by_contra hlong
      rw [if_pos ⟨by decide, by rw [hissues]; exact List.cons_ne_nil _ _, by omega⟩] at hfound
      cases hfound
    refine ⟨?_, hshort⟩
    by_contra hquery
    rw [if_neg fun h => absurd h.2.2 (by omega)] at hfound
    have hnames : (run [.createIssue (impostor query)]).latest (Names query) = [] := by
      refine List.eq_nil_iff_forall_not_mem.2 fun i hi => ?_
      obtain ⟨hi, hcontains⟩ := mem_latest.1 hi
      obtain rfl := List.mem_singleton.1 (hissues ▸ hi)
      exact not_names_impostor hquery hcontains
    have hfits : (impostor query).universal ∈
        (run [.createIssue (impostor query)]).latest (FitsQuery query) :=
      mem_latest.2 ⟨hissues ▸ List.mem_singleton.2 rfl, impostor_fits query⟩
    rw [hnames] at hfound
    rcases List.take_eq_nil_iff.1 (Except.ok.inj hfound) with h | h
    · cases h
    · rw [h] at hfits
      cases hfits
  · rw [(run_timed ops).searchIssues_eq hsign, if_neg (by simp [hlimit]),
      if_neg fun h => absurd h.2.2 (by omega)]
    rw [latest_congr fun i hi => fitsQuery_iff hquery (hwhole i hi)]

/-- An issue in a file. -/
def located (path : String) : Issue := { (default : Issue) with id := "issue-1", filePath := path }

/-- The name of a file finds the issue in it, in whichever case it is written. -/
theorem searchIssues_contains_iff_name :
    Literal "MAIN.rs" ∧
      ((run [.createIssue (located "src/main.rs")]).searchIssues "MAIN.rs" 1).map
        (·.map Issue.filePath) = .ok ["src/main.rs"] := by
  have hquery : Literal "MAIN.rs" := by simp [Literal, IsWild]
  have hwhole : ∀ i ∈ (run [.createIssue (located "src/main.rs")]).issues, Whole i :=
    List.forall_mem_singleton.2 (by decide +kernel)
  refine ⟨hquery, ?_⟩
  rw [(searchIssues_contains_iff "MAIN.rs").1.2 ⟨hquery, by decide +kernel⟩ _ 1 (by decide) rfl
    hwhole]
  decide +kernel

/-- The name of one file also finds the issue in another, which does not contain it. -/
theorem searchIssues_underscore :
    ((run [.createIssue (located "src/myxfile.py")]).searchIssues "my_file" 1).map
        (·.map Issue.filePath) = .ok ["src/myxfile.py"] ∧
      ((run [.createIssue (located "src/myxfile.py")]).latest (Names "my_file")).take 1 = [] := by
  decide +kernel

end Operation

end Store

end RepairLoop
