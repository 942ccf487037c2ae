import RepairLoop.Proofs.Repair.Detection
import RepairLoop.Proofs.Sequence.Distinct
/-!
# Passes — what one finds does not depend on the others

Each pass finds by its own rules (`rule_of_runPass`), no two passes share one (`eq_of_mem_rules`),
and none looks at which passes are enabled (`runPass_enabling`). So the findings of some of the
enabled passes are the findings of all of them by the rules of these (`inspect_enabling`). They are
put in order by a sort that keeps the order of what stands at one place, and such a sort may come
before or after a choice (`filter_mergeSort`). So with fewer passes a text has the issues that are
left of those with more (`analyzeText_enabling`).
-/

namespace RepairLoop

/-! ## A sort and a choice -/

section Lists

variable {α β : Type}

theorem eq_of_append_eq_append {q : α → Bool} {as bs cs ds : List α} (h : as ++ bs = cs ++ ds)
    (has : ∀ a ∈ as, q a = true) (hbs : ∀ b ∈ bs, q b = false)
    (hcs : ∀ c ∈ cs, q c = true) (hds : ∀ d ∈ ds, q d = false) : as = cs ∧ bs = ds := by
  have hfilter := congrArg (List.filter q) h
  rw [List.filter_append, List.filter_append, List.filter_eq_self.2 has, List.filter_eq_self.2 hcs,
    List.filter_eq_nil_iff.2 fun b hb => by simp [hbs b hb],
    List.filter_eq_nil_iff.2 fun d hd => by simp [hds d hd], List.append_nil,
    List.append_nil] at hfilter
  exact ⟨hfilter, List.append_cancel_left (hfilter ▸ h)⟩

/-- **A sort that keeps the order of ties may come before or after a choice.** -/
theorem filter_mergeSort {le : α → α → Bool}
    (trans : ∀ a b c, le a b = true → le b c = true → le a c = true)
    (total : ∀ a b, (le a b || le b a) = true) (p : α → Bool) (xs : List α) :
    (xs.mergeSort le).filter p = (xs.filter p).mergeSort le := by
  induction xs with
  | nil => simp
  | cons a xs ih =>
    obtain ⟨before, behind, hall, hrest, hbefore⟩ := List.mergeSort_cons trans total a xs
    rw [hrest, List.filter_append] at ih
    rw [hall, List.filter_append]
    cases hp : p a with
    | false =>
      rw [List.filter_cons_of_neg (by simp [hp]), List.filter_cons_of_neg (by simp [hp]), ih]
    | true =>
      rw [List.filter_cons_of_pos hp, List.filter_cons_of_pos hp]
      obtain ⟨before', behind', hall', hrest', hbefore'⟩ :=
        List.mergeSort_cons trans total a (xs.filter p)
      -- both lists are cut in front of the first item that may stand behind the new one
      have hbehind : ∀ b ∈ behind, le a b = true := by
        have hsorted := List.pairwise_mergeSort trans total (a :: xs)
        rw [hall, List.pairwise_append, List.pairwise_cons] at hsorted
        exact hsorted.2.1.1
      have hbehind' : ∀ b ∈ behind', le a b = true := by
        have hsorted := List.pairwise_mergeSort trans total (a :: xs.filter p)
        rw [hall', List.pairwise_append, List.pairwise_cons] at hsorted
        exact hsorted.2.1.1
      obtain ⟨hfirst, hlast⟩ := eq_of_append_eq_append (q := fun b => !le a b)
        (ih.trans hrest') (fun b hb => hbefore b (List.mem_of_mem_filter hb))
        (fun b hb => by simp [hbehind b (List.mem_of_mem_filter hb)]) hbefore'
        (fun b hb => by simp [hbehind' b hb])
      rw [hall', hfirst, hlast]

variable [BEq α] [LawfulBEq α] [BEq β] [LawfulBEq β]

/-- What is chosen of a list without repetitions by a part of it is the part. -/
theorem filter_mem_of_sublist {xs ys : List α} (h : xs.Sublist ys) (hys : ys.Nodup) :
    ys.filter (fun y => xs.contains y) = xs := by
  have hself : xs.filter (fun y => xs.contains y) = xs := List.filter_eq_self.2 (by simp)
  have hsub := h.filter fun y => xs.contains y
  rw [hself] at hsub
  refine (hsub.eq_of_length_le ?_).symm
  refine (List.subperm_of_subset (hys.filter _) fun y hy => ?_).length_le
  exact List.contains_iff_mem.1 (List.mem_filter.1 hy).2

/-- To take each item if it was not taken before is to erase what is there twice. -/
theorem foldl_taking (taken xs : List α) :
    xs.foldl (fun taken x => if taken.contains x then taken else taken ++ [x]) taken =
      taken ++ (xs.filter fun x => !taken.contains x).eraseDups := by
  induction xs generalizing taken with
  | nil => simp
  | cons x xs ih =>
    rw [List.foldl_cons, ih]
    by_cases hx : x ∈ taken
    · simp [hx]
    · have hfresh : (x :: xs).filter (fun y => !taken.contains y) =
          x :: xs.filter fun y => !taken.contains y := List.filter_cons_of_pos (by simp [hx])
      have hmore : (fun y => !(taken ++ [x]).contains y) =
          fun y => !y == x && !taken.contains y := by
        funext y
        by_cases hy : y = x <;> simp [hy]
      rw [if_neg (by simp [hx]), hfresh, List.eraseDups_cons, List.filter_filter, hmore,
        List.append_assoc, List.singleton_append]

end Lists

/-! ## The passes that are enabled -/

namespace PassName

theorem mem_all (p : PassName) : p ∈ all := by
  cases p <;> decide

theorem eq_name_of_ofName? {name : String} {p : PassName} (h : ofName? name = some p) :
    name = p.name := by
  have hname := List.find?_some h
  exact (beq_iff_eq.1 hname).symm

/-- **No two passes share a rule.** -/
theorem eq_of_mem_rules {p q : PassName} {rule : String} (hp : rule ∈ p.rules)
    (hq : rule ∈ q.rules) : p = q := by
  have hdisjoint : ∀ p ∈ all, ∀ q ∈ all, p ≠ q → ∀ rule ∈ p.rules, rule ∉ q.rules := by decide
  by_contra hne
  exact hdisjoint p p.mem_all q q.mem_all hne rule hp hq

end PassName

namespace AnalysisSettings

/-- The settings with other passes enabled. -/
def enabling (settings : AnalysisSettings) (names : List String) : AnalysisSettings :=
  { settings with enabledPasses := names }

/-- **The enabled passes are the names that are named, each once.** -/
theorem passes_eq (settings : AnalysisSettings) :
    settings.passes = settings.enabledPasses.eraseDups.filterMap PassName.ofName? := by
  rw [passes, foldl_taking, List.nil_append, ← eraseDups_filterMap]
  · simp
  · intro a b p ha hb
    rw [PassName.eq_name_of_ofName? ha, PassName.eq_name_of_ofName? hb]

theorem nodup_passes (settings : AnalysisSettings) : settings.passes.Nodup := by
  rw [passes_eq, ← eraseDups_filterMap]
  · exact nodup_eraseDups _
  · intro a b p ha hb
    rw [PassName.eq_name_of_ofName? ha, PassName.eq_name_of_ofName? hb]

end AnalysisSettings

/-! ## What a pass finds by -/

namespace Inspection

variable {s : Source} {f : Finding} {allowed : List String}

theorem rule_of_scanLines {rules : List LineRule} (hrules : ∀ r ∈ rules, r.code ∈ allowed)
    (h : f ∈ scanLines s rules) : f.rule ∈ allowed := by
  obtain ⟨⟨line, i⟩, -, hline⟩ := List.mem_flatMap.1 h
  obtain ⟨r, hr, hfound⟩ := List.mem_filterMap.1 hline
  obtain ⟨m, -, rfl⟩ := Option.map_eq_some_iff.1 hfound
  exact hrules r hr

theorem rule_of_scanTree {kind : IssueKind} {judge : Python.Syn → List Verdict}
    (hjudge : ∀ node, ∀ v ∈ judge node, v.code ∈ allowed) (h : f ∈ scanTree s kind judge) :
    f.rule ∈ allowed := by
  rw [scanTree] at h
  split at h
  · cases h
  · obtain ⟨node, -, hnode⟩ := List.mem_flatMap.1 h
    obtain ⟨v, hv, rfl⟩ := List.mem_map.1 hnode
    exact hjudge node v hv

/-- What a pass finds by rules for lines and for nodes, it finds by one of them. -/
theorem rule_of_byLanguage {rules : List LineRule} {kind : IssueKind}
    {judge : Python.Syn → List Verdict} (hrules : ∀ r ∈ rules, r.code ∈ allowed)
    (hjudge : ∀ node, ∀ v ∈ judge node, v.code ∈ allowed)
    (h : f ∈ byLanguage s rules (scanTree s kind judge)) : f.rule ∈ allowed := by
  rw [byLanguage] at h
  split at h
  · exact rule_of_scanLines hrules h
  · exact rule_of_scanTree hjudge h

theorem code_of_judgeCall (node : Python.Syn) :
    ∀ v ∈ judgeCall node, v.code ∈ PassName.security.rules := by
  intro v hv
  unfold judgeCall at hv
  split at hv
  · simp only at hv
    repeat' split at hv
    all_goals simp only [List.mem_singleton, List.not_mem_nil] at hv
    all_goals subst hv; simp [PassName.rules]
  · cases hv

theorem code_of_judgeNative (node : Python.Syn) :
    ∀ v ∈ judgeNative node, v.code ∈ PassName.unsafeCode.rules := by
  intro v hv
  obtain ⟨-, -, rfl⟩ := List.mem_map.1 hv
  decide

theorem code_of_judgeMembership (node : Python.Syn) :
    ∀ v ∈ judgeMembership node, v.code ∈ PassName.performance.rules := by
  intro v hv
  unfold judgeMembership at hv
  split at hv
  · obtain ⟨⟨op, right⟩, -, hfound⟩ := List.mem_filterMap.1 hv
    simp only at hfound
    split at hfound
    · obtain rfl := Option.some.inj hfound
      simp [PassName.rules]
    · cases hfound
  · cases hv

theorem code_of_judgeHandler (node : Python.Syn) :
    ∀ v ∈ judgeHandler node, v.code ∈ PassName.style.rules := by
  intro v hv
  unfold judgeHandler at hv
  split at hv
  · split at hv
    · obtain rfl := List.mem_singleton.1 hv
      simp [PassName.rules]
    · cases hv
  · cases hv

theorem code_of_judgeAge (node : Python.Syn) :
    ∀ v ∈ judgeAge node, v.code ∈ PassName.compatibility.rules := by
  intro v hv
  unfold judgeAge at hv
  split at hv
  · split at hv
    · obtain rfl := List.mem_singleton.1 hv
      simp [PassName.rules]
    · cases hv
  · obtain ⟨-, -, rfl⟩ := List.mem_map.1 hv
    simp [PassName.rules]

theorem rule_of_styleOfLine {number : Nat} {line : String} (h : f ∈ styleOfLine s number line) :
    f.rule ∈ PassName.style.rules := by
  rw [styleOfLine, List.mem_append] at h
  rcases h with h | h
  · split at h
    · obtain rfl := List.mem_singleton.1 h
      simp [PassName.rules, Source.finding]
    · cases h
  · split at h
    · obtain rfl := List.mem_singleton.1 h
      simp [PassName.rules, Source.finding]
    · cases h

/-- **A pass finds by its own rules.** -/
theorem rule_of_runPass (p : PassName) (h : f ∈ runPass p s) : f.rule ∈ p.rules := by
  cases p with
  | security => exact rule_of_byLanguage (by decide) code_of_judgeCall h
  | unsafeCode => exact rule_of_byLanguage (by decide) code_of_judgeNative h
  | performance => exact rule_of_byLanguage (by decide) code_of_judgeMembership h
  | style =>
    rcases List.mem_append.1 h with h | h
    · obtain ⟨⟨line, i⟩, -, hline⟩ := List.mem_flatMap.1 h
      exact rule_of_styleOfLine hline
    · exact rule_of_byLanguage (by decide) code_of_judgeHandler h
  | complexity =>
    obtain ⟨⟨name, line, branches⟩, -, hfound⟩ := List.mem_filterMap.1 h
    simp only at hfound
    split at hfound
    · obtain rfl := Option.some.inj hfound
      simp [PassName.rules, Source.finding]
    · cases hfound
  | compatibility => exact rule_of_byLanguage (by decide) code_of_judgeAge h

/-- **No pass looks at which passes are enabled.** -/
theorem runPass_enabling (p : PassName) (s : Source) (names : List String) :
    runPass p { s with settings := s.settings.enabling names } = runPass p s := by
  cases p <;> rfl

/-! ## Fewer passes -/

/-- A rule is that of a text that is not read, or is listed for a pass of some names. -/
def listed (names : List String) (rule : String) : Bool :=
  rule == "PARSE001" ||
    PassName.all.any fun p => names.contains p.name && p.rules.contains rule

/-- What a pass finds is listed exactly where the pass is named. -/
theorem listed_of_runPass {p : PassName} {names : List String} (h : f ∈ runPass p s) :
    listed names f.rule = names.contains p.name := by
  have hrule := rule_of_runPass p h
  have hread : f.rule ≠ "PARSE001" := by
    intro heq
    rw [heq] at hrule
    cases p <;> simp [PassName.rules] at hrule
  rw [Bool.eq_iff_iff]
  simp only [listed, Bool.or_eq_true, beq_iff_eq, hread, false_or, List.any_eq_true,
    Bool.and_eq_true, List.contains_iff_mem]
  constructor
  · rintro ⟨q, -, hq, hlisted⟩
    rwa [PassName.eq_of_mem_rules hrule hlisted]
  · exact fun hp => ⟨p, p.mem_all, hp, hrule⟩

theorem mem_passes_enabling {settings : AnalysisSettings} {names : List String} {p : PassName} :
    p ∈ (settings.enabling names).passes ↔ p.name ∈ names := by
  rw [AnalysisSettings.passes_eq, List.mem_filterMap]
  constructor
  · rintro ⟨name, hname, hp⟩
    exact PassName.eq_name_of_ofName? hp ▸ List.mem_eraseDups.1 hname
  · exact fun h => ⟨p.name, List.mem_eraseDups.2 h, PassName.ofName?_name p⟩

/-- **What some of the enabled passes find** is what all of them find, but for the rules of the
others. -/
theorem inspect_enabling {P Q : List String} (h : P.eraseDups.Sublist Q.eraseDups) (s : Source) :
    inspect { s with settings := s.settings.enabling P } =
      (inspect { s with settings := s.settings.enabling Q }).filter fun f => listed P f.rule := by
  have hpasses : (s.settings.enabling P).passes.Sublist (s.settings.enabling Q).passes := by
    rw [AnalysisSettings.passes_eq, AnalysisSettings.passes_eq]
    exact h.filterMap _
  have hchosen := filter_mem_of_sublist hpasses (AnalysisSettings.nodup_passes _)
  simp only [inspect, runPass_enabling]
  rw [← hchosen, List.filter_flatMap]
  generalize (s.settings.enabling Q).passes = qs
  induction qs with
  | nil => rfl
  | cons q qs ih =>
    have hq : (s.settings.enabling P).passes.contains q = P.contains q.name := by
      rw [Bool.eq_iff_iff, List.contains_iff_mem, List.contains_iff_mem, mem_passes_enabling]
    have hone : (runPass q s).filter (fun f => listed P f.rule) =
        if P.contains q.name then runPass q s else [] := by
      rw [List.filter_congr fun f hf => listed_of_runPass hf]
      cases P.contains q.name <;> simp
    rw [List.flatMap_cons, hone, ← ih, List.filter_cons, hq]
    cases P.contains q.name <;> simp

theorem read_enabling (path text : String) (settings : AnalysisSettings) (names : List String) :
    Source.read path text (settings.enabling names) =
      (Source.read path text settings).map fun s =>
        { s with settings := s.settings.enabling names } := by
  unfold Source.read
  dsimp only
  cases Source.readCode (Language.ofPath path) text <;> rfl

theorem inspectText_enabling {P Q : List String} (h : P.eraseDups.Sublist Q.eraseDups)
    (settings : AnalysisSettings) (path text : String) :
    inspectText (settings.enabling P) path text =
      (inspectText (settings.enabling Q) path text).map
        (List.filter fun f => listed P f.rule) := by
  unfold inspectText
  rw [read_enabling, read_enabling]
  cases Source.read path text settings with
  | ok s => exact congrArg Except.ok (inspect_enabling h s)
  | error f =>
    cases f with
    | nulCharacter => rfl
    | _ => rfl

/-! ## Issues in order -/

theorem leads_iff {a b : Finding} :
    leads a b = true ↔ a.line < b.line ∨ a.line = b.line ∧ a.column ≤ b.column := by
  simp [leads]

theorem leads_trans (a b c : Finding) (hab : leads a b = true) (hbc : leads b c = true) :
    leads a c = true := by
  rw [leads_iff] at *
  omega

theorem leads_total (a b : Finding) : (leads a b || leads b a) = true := by
  rw [Bool.or_eq_true, leads_iff, leads_iff]
  omega

theorem findingsInOrder_filter (p : Finding → Bool) (fs : List Finding) :
    findingsInOrder (fs.filter p) = (findingsInOrder fs).filter p :=
  (filter_mergeSort leads_trans leads_total p fs).symm

end Inspection

namespace Issue

/-- Two issues say the same but for their names and for when they were made. -/
def SameDefect (i j : Issue) : Prop :=
  i = { j with id := i.id, createdAt := i.createdAt, updatedAt := i.updatedAt }

/-- An issue as it is made of a finding: open and bare. -/
structure IsBare (i : Issue) : Prop where
  status : i.status = .open_
  metadata : i.metadata = []
  resolvedAt : i.resolvedAt = none
  rule : i.rule = some i.finding.rule

theorem IsBare.sameDefect {i j : Issue} (hi : i.IsBare) (hj : j.IsBare)
    (h : i.finding = j.finding) : i.SameDefect j := by
  have hstatus := hi.status.trans hj.status.symm
  have hmetadata := hi.metadata.trans hj.metadata.symm
  have hresolved := hi.resolvedAt.trans hj.resolvedAt.symm
  have hrule : i.rule = j.rule := by rw [hi.rule, hj.rule, h]
  obtain ⟨id, path, line, column, severity, kind, message, suggestion, rule, context, status,
    metadata, created, updated, resolved⟩ := i
  obtain ⟨rfl, rfl, rfl, rfl, rfl, rfl, rfl, -, rfl⟩ := Finding.mk.injEq .. ▸ h
  obtain rfl : status = j.status := hstatus
  obtain rfl : metadata = j.metadata := hmetadata
  obtain rfl : resolved = j.resolvedAt := hresolved
  obtain rfl : rule = j.rule := hrule
  rfl

/-- Issues in order: by line and column. -/
def NotAfter (i j : Issue) : Prop := i.line < j.line ∨ i.line = j.line ∧ i.column ≤ j.column

end Issue

namespace Inspection

theorem isBare_of_mapM_record (fs : List Finding) (s : Supply) :
    ∀ i ∈ ((fs.mapM Finding.record).run s).1, i.IsBare := by
  induction fs generalizing s with
  | nil => exact fun i hi => by cases hi
  | cons f fs ih =>
    rw [List.mapM_cons]
    intro i hi
    rcases List.mem_cons.1 hi with rfl | hi
    · exact ⟨rfl, rfl, rfl, rfl⟩
    · exact ih _ i hi

theorem isBare_of_recordAll (fs : List Finding) (s : Supply) :
    ∀ i ∈ ((recordAll fs).run s).1, i.IsBare := fun i hi =>
  isBare_of_mapM_record fs s i (List.mem_mergeSort.1 hi)

theorem recordAll_inOrder (fs : List Finding) (s : Supply) :
    ((recordAll fs).run s).1.Pairwise Issue.NotAfter := by
  have hsorted := List.pairwise_mergeSort leads_trans leads_total fs
  have hfindings := (recordAll_makes fs s).2
  rw [findingsInOrder] at hfindings
  rw [← hfindings, List.pairwise_map] at hsorted
  exact hsorted.imp leads_iff.1

/-- Issues made of findings, and the ones of them that are left of a choice. -/
theorem recordAll_filter (p : String → Bool) (fs : List Finding) (s t : Supply) :
    List.Forall₂ Issue.SameDefect ((recordAll (fs.filter fun f => p f.rule)).run s).1
      (((recordAll fs).run t).1.filter fun i => i.rule.any p) := by
  have hall := isBare_of_recordAll fs t
  have hsome := isBare_of_recordAll (fs.filter fun f => p f.rule) s
  have hfindings : ((recordAll (fs.filter fun f => p f.rule)).run s).1.map Issue.finding =
      (((recordAll fs).run t).1.filter fun i => i.rule.any p).map Issue.finding := by
    have hrule : ((recordAll fs).run t).1.filter (fun i => i.rule.any p) =
        ((recordAll fs).run t).1.filter ((fun f => p f.rule) ∘ Issue.finding) :=
      List.filter_congr fun i hi => by rw [(hall i hi).rule]; rfl
    rw [(recordAll_makes _ s).2, findingsInOrder_filter, hrule, ← List.filter_map,
      (recordAll_makes fs t).2]
  generalize ((recordAll (fs.filter fun f => p f.rule)).run s).1 = few at hsome hfindings ⊢
  generalize ((recordAll fs).run t).1 = many at hall hfindings ⊢
  have hsame : List.Forall₂ (fun i j => i.finding = j.finding) few
      (many.filter fun i => i.rule.any p) := by
    rw [← List.forall₂_map_right_iff, ← List.forall₂_map_left_iff, hfindings]
    exact List.forall₂_same.2 fun _ _ => rfl
  refine List.forall₂_iff_zip.2 ⟨hsame.length_eq, fun {i j} hij => ?_⟩
  obtain ⟨hi, hj⟩ := List.of_mem_zip hij
  exact (hsome i hi).sameDefect (hall j (List.mem_of_mem_filter hj))
    ((List.forall₂_iff_zip.1 hsame).2 hij)

/-- The issues that a text has under some passes. -/
def issuesUnder (names : List String) (settings : AnalysisSettings) (path text : String)
    (s : Supply) : Except Fault (List Issue) :=
  ((analyzeText (settings.enabling names) path text).run.run s).1

theorem issuesUnder_eq (names : List String) (settings : AnalysisSettings) (path text : String)
    (s : Supply) : issuesUnder names settings path text s =
      (inspectText (settings.enabling names) path text).map fun fs => ((recordAll fs).run s).1 := by
  unfold issuesUnder analyzeText
  cases inspectText (settings.enabling names) path text <;> rfl

/-- **Main result.** Let the passes of some names be a part of the passes of others, in their order.
A text that stops the analysis under these stops it under those, by the same fault. Otherwise it has
those of the issues that it has under the others whose rules are listed for the passes of the
first, or say that it is not read: in their order, and alike but for their names and times. And the
issues of a text are always in order of line and column. -/
theorem analyzeText_enabling {P Q : List String} (h : P.eraseDups.Sublist Q.eraseDups)
    (settings : AnalysisSettings) (path text : String) (s t : Supply) :
    (∃ f, issuesUnder P settings path text s = .error f ∧
        issuesUnder Q settings path text t = .error f) ∨
      ∃ few many, issuesUnder P settings path text s = .ok few ∧
        issuesUnder Q settings path text t = .ok many ∧
        List.Forall₂ Issue.SameDefect few (many.filter fun i => i.rule.any (listed P)) ∧
        few.Pairwise Issue.NotAfter ∧ many.Pairwise Issue.NotAfter := by
  rw [issuesUnder_eq, issuesUnder_eq, inspectText_enabling h]
  cases inspectText (settings.enabling Q) path text with
  | error f => exact .inl ⟨f, rfl, rfl⟩
  | ok fs =>
    exact .inr ⟨_, _, rfl, rfl, recordAll_filter (listed P) fs s t, recordAll_inOrder _ s,
      recordAll_inOrder fs t⟩

theorem analyzeText_enabling_style :
    ["style", "style"].eraseDups.Sublist ["security", "style"].eraseDups ∧
      ∃ few many,
        issuesUnder ["style", "style"] .usual "a.rs" "fs::write(a); \n" default = .ok few ∧
        issuesUnder ["security", "style"] .usual "a.rs" "fs::write(a); \n" default = .ok many ∧
        List.Forall₂ Issue.SameDefect few
          (many.filter fun i => i.rule.any (listed ["style", "style"])) ∧
        few.map Issue.rule = [some "STY002"] ∧ many.Pairwise Issue.NotAfter := by
  have hsub : ["style", "style"].eraseDups.Sublist ["security", "style"].eraseDups := by decide
  have hfew : (issuesUnder ["style", "style"] .usual "a.rs" "fs::write(a); \n" default).toOption.map
      (List.map Issue.rule) = some [some "STY002"] := by decide +kernel
  obtain ⟨f, hstop, -⟩ | ⟨few, many, hf, hm, hsame, -, horder⟩ :=
    analyzeText_enabling hsub .usual "a.rs" "fs::write(a); \n" default default
  · rw [hstop] at hfew
    cases hfew
  · rw [hf] at hfew
    exact ⟨hsub, few, many, hf, hm, hsame, Option.some.inj hfew, horder⟩

end Inspection

end RepairLoop
