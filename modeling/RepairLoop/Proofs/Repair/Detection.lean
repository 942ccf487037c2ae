import RepairLoop.Proofs.Repair.Candidates
import RepairLoop.Proofs.Repair.Process
import RepairLoop.Proofs.Store.Duplicates
/-!
# Repair — what a detection stores

What is found below a directory depends on the files and the settings alone
(`Session.found`). A detection makes an issue of each finding, under a fresh name
(`Session.detect_run`), and the store takes them in. So a second detection between which
and the first no file and no issue has changed stores nothing, and comes to issues of the
same names (`Session.detectAndRecord_again`). One that finds a defect twice comes to its
issue twice (`Session.detectAndRecord_nodup_iff`).
-/

namespace RepairLoop

/-! ## Issues that are made -/

namespace Supply

/-- The clock showed a moment. -/
def Shown (s s' : Supply) (m : Moment) : Prop := ∃ t, s.Elapses t ∧ t.Elapses s' ∧ m = t.now

theorem Shown.mono {s s' t t' : Supply} {m : Moment} (h : Shown t t' m) (hs : s.Elapses t)
    (hs' : t'.Elapses s') : Shown s s' m := by
  obtain ⟨u, hu, hu', rfl⟩ := h
  exact ⟨u, hs.trans hu, hu'.trans hs', rfl⟩

/-- **A moment that the clock showed between two times of the calendar is one.** -/
theorem Shown.dated {s s' : Supply} {m : Moment} (h : Shown s s' m)
    (hfirst : s.now.toUniversal?.isSome = true) (hlast : s'.now.toUniversal?.isSome = true) :
    m.toUniversal?.isSome = true := by
  obtain ⟨t, ht, ht', rfl⟩ := h
  exact ht.within ht' hfirst hlast

/-- Some issues were made: open ones, each under a name that was given out for it. -/
structure Makes (s s' : Supply) (is : List Issue) : Prop where
  elapses : s.Elapses s'
  given : ∀ i ∈ is, ∃ n, s.given < n ∧ n ≤ s'.given ∧ i.id = nameOf n
  names : (is.map Issue.id).Nodup
  pending : ∀ i ∈ is, i.isPending = true
  shown : ∀ i ∈ is, Shown s s' i.createdAt ∧ Shown s s' i.updatedAt ∧ i.resolvedAt = none

namespace Makes

variable {s s' t : Supply} {is js : List Issue}

theorem nil (h : s.Elapses s') : Makes s s' [] :=
  ⟨h, by simp, List.nodup_nil, by simp, by simp⟩

theorem append (h : Makes s t is) (h' : Makes t s' js) : Makes s s' (is ++ js) := by
  have hsame {P : Issue → Prop} (hi : ∀ i ∈ is, P i) (hj : ∀ j ∈ js, P j) :
      ∀ i ∈ is ++ js, P i := fun i hmem => (List.mem_append.1 hmem).elim (hi i) (hj i)
  refine ⟨h.elapses.trans h'.elapses, hsame (fun i hi => ?_) fun j hj => ?_, ?_,
    hsame h.pending h'.pending, hsame (fun i hi => ?_) fun j hj => ?_⟩
  · obtain ⟨n, hn, hle, hid⟩ := h.given i hi
    exact ⟨n, hn, hle.trans h'.elapses.given, hid⟩
  · obtain ⟨n, hn, hle, hid⟩ := h'.given j hj
    exact ⟨n, Nat.lt_of_le_of_lt h.elapses.given hn, hle, hid⟩
  · rw [List.map_append]
    refine List.nodup_append.2 ⟨h.names, h'.names, fun a ha b hb hab => ?_⟩
    obtain ⟨i, hi, rfl⟩ := List.mem_map.1 ha
    obtain ⟨j, hj, rfl⟩ := List.mem_map.1 hb
    -- the name of the second was given out after that of the first
    obtain ⟨m, -, hm, hid⟩ := h.given i hi
    obtain ⟨n, hn, -, hid'⟩ := h'.given j hj
    have hnum := nameOf_inj (hid.symm.trans (hab.trans hid'))
    omega
  · obtain ⟨hcreated, hupdated, hresolved⟩ := h.shown i hi
    exact ⟨hcreated.mono (.refl s) h'.elapses, hupdated.mono (.refl s) h'.elapses, hresolved⟩
  · obtain ⟨hcreated, hupdated, hresolved⟩ := h'.shown j hj
    exact ⟨hcreated.mono h.elapses (.refl s'), hupdated.mono h.elapses (.refl s'), hresolved⟩

theorem perm (h : Makes s s' is) (hperm : js.Perm is) : Makes s s' js :=
  ⟨h.elapses, fun i hi => h.given i (hperm.subset hi),
    (hperm.map Issue.id).nodup_iff.2 h.names, fun i hi => h.pending i (hperm.subset hi),
    fun i hi => h.shown i (hperm.subset hi)⟩

theorem dated (h : Makes s s' is) (hfirst : s.now.toUniversal?.isSome = true)
    (hlast : s'.now.toUniversal?.isSome = true) : ∀ i ∈ is, i.Dated := fun i hi =>
  ⟨(h.shown i hi).1.dated hfirst hlast, (h.shown i hi).2.1.dated hfirst hlast,
    (h.shown i hi).2.2⟩

end Makes

end Supply

namespace Inspection

open Supply (Makes)

/-- A finding may stand in front of another: its line comes first, or its column in it. -/
def leads (a b : Finding) : Bool := a.line < b.line || (a.line == b.line && a.column ≤ b.column)

/-- Findings in order of line and column; those at one place keep their order. -/
def findingsInOrder (fs : List Finding) : List Finding := fs.mergeSort leads

/-- What is found in some files, file by file. -/
def foundIn (settings : AnalysisSettings) : List (Location × ByteArray) →
    Except Fault (List Finding)
  | [] => .ok []
  | (p, content) :: rest => do
    let findings ← inspectFile settings (FileTree.locationText p) content
    let more ← foundIn settings rest
    .ok (findingsInOrder findings ++ more)

/-- An issue is made of a finding. -/
theorem record_makes (f : Finding) (s : Supply) :
    Makes s (f.record.run s).2 [(f.record.run s).1] ∧ (f.record.run s).1.finding = f := by
  have hname := Supply.Elapses.freshName s
  have hcreated := Supply.Elapses.readClock (Supply.freshName.run s).2
  have hupdated := Supply.Elapses.readClock
    (Supply.readClock.run (Supply.freshName.run s).2).2
  refine ⟨⟨hname.trans (hcreated.trans hupdated), ?_, List.nodup_singleton _, ?_, ?_⟩, rfl⟩
  · exact List.forall_mem_singleton.2
      ⟨s.given + 1, Nat.lt_succ_self _, Nat.le_refl (s.given + 1), rfl⟩
  · exact List.forall_mem_singleton.2 rfl
  · exact List.forall_mem_singleton.2 ⟨⟨_, hname, hcreated.trans hupdated, rfl⟩,
      ⟨_, hname.trans hcreated, hupdated, rfl⟩, rfl⟩

theorem mapM_record_makes (fs : List Finding) (s : Supply) :
    Makes s ((fs.mapM Finding.record).run s).2 ((fs.mapM Finding.record).run s).1 ∧
      ((fs.mapM Finding.record).run s).1.map Issue.finding = fs := by
  induction fs generalizing s with
  | nil => exact ⟨.nil (.refl s), rfl⟩
  | cons f fs ih =>
    obtain ⟨hfirst, hfinding⟩ := record_makes f s
    obtain ⟨hrest, hfindings⟩ := ih (f.record.run s).2
    rw [List.mapM_cons]
    exact ⟨hfirst.append hrest, congrArg₂ List.cons hfinding hfindings⟩

theorem inOrder_findings (is : List Issue) :
    (inOrder is).map Issue.finding = findingsInOrder (is.map Issue.finding) := by
  unfold inOrder findingsInOrder
  exact List.map_mergeSort fun _ _ _ _ => rfl

theorem recordAll_makes (fs : List Finding) (s : Supply) :
    Makes s ((recordAll fs).run s).2 ((recordAll fs).run s).1 ∧
      ((recordAll fs).run s).1.map Issue.finding = findingsInOrder fs := by
  obtain ⟨hmakes, hfindings⟩ := mapM_record_makes fs s
  refine ⟨hmakes.perm (List.mergeSort_perm _ _), ?_⟩
  show (inOrder ((fs.mapM Finding.record).run s).1).map Issue.finding = findingsInOrder fs
  rw [inOrder_findings, hfindings]

theorem analyzeFiles_cons_run {settings : AnalysisSettings} {p : Location} {content : ByteArray}
    {fs : List Finding} (rest : List (Location × ByteArray)) (s : Supply)
    (hfound : inspectFile settings (FileTree.locationText p) content = .ok fs) :
    (analyzeFiles settings ((p, content) :: rest)).run.run s =
      (((analyzeFiles settings rest).run.run ((recordAll fs).run s).2).1.map
        (((recordAll fs).run s).1 ++ ·),
      ((analyzeFiles settings rest).run.run ((recordAll fs).run s).2).2) := by
  have hrun : (analyzeFiles settings ((p, content) :: rest)).run s =
      (analyzeFiles settings rest >>= fun more =>
        pure (((recordAll fs).run s).1 ++ more)).run ((recordAll fs).run s).2 := by
    rw [analyzeFiles, run_bind_of_known hfound]
    rfl
  refine hrun.trans ?_
  rw [run_bind_eq]
  show _ = (((analyzeFiles settings rest).run ((recordAll fs).run s).2).1.map _,
    ((analyzeFiles settings rest).run ((recordAll fs).run s).2).2)
  cases (analyzeFiles settings rest).run ((recordAll fs).run s).2 with
  | mk r t => cases r <;> rfl

/-- **The issues of some files are made of what is found in them.** -/
theorem analyzeFiles_makes (settings : AnalysisSettings) (files : List (Location × ByteArray))
    (s : Supply) :
    ((analyzeFiles settings files).run.run s).1.map (List.map Issue.finding) =
        foundIn settings files ∧
      s.Elapses ((analyzeFiles settings files).run.run s).2 ∧
      ∀ is, ((analyzeFiles settings files).run.run s).1 = .ok is →
        Makes s ((analyzeFiles settings files).run.run s).2 is := by
  induction files generalizing s with
  | nil =>
    refine ⟨rfl, .refl s, fun is his => ?_⟩
    obtain rfl := Except.ok.inj his
    exact .nil (.refl s)
  | cons file rest ih =>
    obtain ⟨p, content⟩ := file
    cases hfound : inspectFile settings (FileTree.locationText p) content with
    | error f =>
      have hrun : (analyzeFiles settings ((p, content) :: rest)).run.run s = (.error f, s) := by
        rw [analyzeFiles, hfound]
        rfl
      rw [hrun, foundIn, hfound]
      exact ⟨rfl, .refl s, fun is his => by cases his⟩
    | ok fs =>
      obtain ⟨hmakes, hfindings⟩ := recordAll_makes fs s
      obtain ⟨hrest, helapses, hmore⟩ := ih ((recordAll fs).run s).2
      rw [analyzeFiles_cons_run rest s hfound, foundIn, hfound, ← hrest]
      generalize (analyzeFiles settings rest).run.run ((recordAll fs).run s).2 = run at helapses hmore ⊢
      obtain ⟨r, t⟩ := run
      refine ⟨?_, hmakes.elapses.trans helapses, fun is his => ?_⟩
      · cases r with
        | error f => rfl
        | ok more =>
          have hall : (((recordAll fs).run s).1 ++ more).map Issue.finding =
              findingsInOrder fs ++ more.map Issue.finding := by rw [List.map_append, hfindings]
          exact congrArg Except.ok hall
      · cases r with
        | error f => cases his
        | ok more =>
          obtain rfl := Except.ok.inj his
          exact hmakes.append (hmore more rfl)

end Inspection

/-! ## Detections -/

namespace World

variable {w w' : World} {t : Supply}

/-- No name that will be given out is that of an issue in the store. -/
def Untaken (w : World) : Prop := w.Unused fun id => ∃ i ∈ w.store.issues, i.id = id

/-- No file and no issue has changed, while the clock may have moved on. -/
structure Undisturbed (w w' : World) : Prop where
  files : w'.files = w.files
  here : w'.here = w.here
  issues : w'.store.issues = w.store.issues
  clock : w.supply.Elapses w'.supply

/-- **Issues that were made are new to the store**, if no name of theirs was taken. -/
theorem Untaken.allNew {is : List Issue} (h : w.Untaken)
    (hmakes : w.supply.Makes t is) : w.store.AllNew is := by
  refine ⟨fun i hi => ⟨fun j hj hid => ?_, hmakes.pending i hi⟩, hmakes.names⟩
  obtain ⟨n, hn, -, hname⟩ := hmakes.given i hi
  exact h n hn ⟨j, hj, hid.trans hname⟩

/-- And no name of theirs is given out again. -/
theorem Untaken.after {is : List Issue} (h : w.Untaken) (hmakes : w.supply.Makes t is)
    (hissues : w'.store.issues = (w.store.takeAll is).2.issues) (hclock : t.Elapses w'.supply) :
    w'.Untaken := by
  rintro n hn ⟨j, hj, hid⟩
  have hgiven := hmakes.elapses.given.trans hclock.given
  rw [hissues] at hj
  rcases (h.allNew hmakes).mem_takeAll hj with hj | ⟨i, hi, hsame⟩
  · exact h n (Nat.lt_of_le_of_lt hgiven hn) ⟨j, hj, hid⟩
  · obtain ⟨m, -, hm, hname⟩ := hmakes.given i hi
    have hnum := Supply.nameOf_inj (hname.symm.trans (hsame.symm.trans hid))
    have hle := hclock.given
    omega

end World

namespace Session

open World (Untaken Undisturbed)
open Supply (Makes)

/-- What a detection finds below a directory. -/
def found (settings : AnalysisSettings) (root : Path) (w : World) : Except Fault (List Finding) :=
  Inspection.foundIn settings
    (Inspection.sourceFiles settings (w.files.below ((w.absolute root).collapsed).parts))

/-- **A detection makes an issue of each finding**, and leaves the files and the store. -/
theorem detect_run (settings : AnalysisSettings) (root : Path) (w : World) :
    ∃ r t events, (detect settings root).run w = (r, { w with supply := t, events := events }) ∧
      r.map (List.map Issue.finding) = found settings root w ∧ w.supply.Elapses t ∧
      ∀ is, r = .ok is → w.supply.Makes t is := by
  unfold found
  have hget : (get : Act World).run w = (.ok w, w) := rfl
  rw [detect, run_bind_of_ok hget, run_bind_of_ok (Act.files_run w), run_bind_eq,
    Act.supplying_run]
  generalize Inspection.sourceFiles settings
    (w.files.below ((w.absolute root).collapsed).parts) = files
  obtain ⟨hfound, helapses, hmakes⟩ := Inspection.analyzeFiles_makes settings files w.supply
  rw [StateT.run] at hfound helapses hmakes
  generalize (Inspection.analyzeFiles settings files).run w.supply = run at hfound helapses hmakes ⊢
  obtain ⟨r, t⟩ := run
  cases r with
  | ok is => exact ⟨.ok is, t, _, rfl, hfound, helapses, hmakes⟩
  | error f => exact ⟨.error f, t, w.events, rfl, hfound, helapses, hmakes⟩

/-- Stores an issue, or takes the known one. -/
def recordIssue (i : Issue) : Act Issue := do
  match ← Act.stored fun s => s.duplicateOf? i with
  | some j => pure j
  | none =>
    Act.storing fun s => s.addIssue i
    pure i

theorem recordIssues_cons (i : Issue) (is : List Issue) : recordIssues (i :: is) = (do
    let kept ← recordIssue i
    let more ← recordIssues is
    pure (kept :: more)) := by
  rw [recordIssues, recordIssue, bind_assoc]
  refine congrArg _ (funext fun known => ?_)
  cases known with
  | some j => rfl
  | none => exact (bind_assoc ..).symm

/-- The store takes in an issue that is recorded. -/
theorem recordIssue_run (i : Issue) (w : World) :
    (recordIssue i).run w = match w.store.take i with
      | .ok (kept, s) => (.ok kept, { w with store := s })
      | .error e => (.error e.toFault, w) := by
  rw [recordIssue, run_bind_eq, Act.stored_run, Store.take]
  cases w.store.duplicateOf? i with
  | error e => rfl
  | ok known =>
    cases known with
    | some j => rfl
    | none =>
      show ((Act.storing fun s => s.addIssue i) >>= fun _ => pure i : Act Issue).run w = _
      rw [run_bind_eq, Act.storing_run]
      show _ = match (do .ok (i, ← w.store.addIssue i) : Except StoreFault (Issue × Store)) with
        | .ok (kept, s) => (Except.ok kept, { w with store := s })
        | .error e => (.error e.toFault, w)
      cases w.store.addIssue i <;> rfl

theorem recordIssues_run (is : List Issue) (w : World) :
    (recordIssues is).run w = ((w.store.takeAll is).1.mapError StoreFault.toFault,
      { w with store := (w.store.takeAll is).2 }) := by
  induction is generalizing w with
  | nil => rfl
  | cons i is ih =>
    rw [recordIssues_cons, run_bind_eq, recordIssue_run]
    cases htake : w.store.take i with
    | error e =>
      rw [Store.takeAll_cons_error htake]
      rfl
    | ok kt =>
      obtain ⟨kept, t⟩ := kt
      rw [Store.takeAll_cons_ok htake]
      simp only
      rw [run_bind_eq, ih]
      cases (t.takeAll is).1 <;> rfl

/-- **A detection stops, or the store takes in the issues that were made.** -/
theorem detectAndRecord_run (s : Session) (root : Option Path) (w : World) :
    (∃ f t events, found s.settings.analysis (root.getD s.repository.root) w = .error f ∧
      (s.detectAndRecord root).run w = (.error f, { w with supply := t, events := events })) ∨
    ∃ is t events, w.supply.Makes t is ∧
      found s.settings.analysis (root.getD s.repository.root) w = .ok (is.map Issue.finding) ∧
      (s.detectAndRecord root).run w = ((w.store.takeAll is).1.mapError StoreFault.toFault,
        { w with supply := t, events := events, store := (w.store.takeAll is).2 }) := by
  obtain ⟨r, t, events, hrun, hfound, -, hmakes⟩ :=
    detect_run s.settings.analysis (root.getD s.repository.root) w
  rw [detectAndRecord, run_bind_eq, hrun, ← hfound]
  cases r with
  | error f => exact .inl ⟨f, t, events, rfl, rfl⟩
  | ok is => exact .inr ⟨is, t, events, hmakes is rfl, rfl, recordIssues_run is _⟩

/-- What is found depends on the files. -/
theorem found_congr {w w' : World} (settings : AnalysisSettings) (root : Path)
    (hfiles : w'.files = w.files) (hhere : w'.here = w.here) :
    found settings root w' = found settings root w := by
  rw [found, found, World.absolute, World.absolute, hfiles, hhere]

/-- The names of what was recorded. -/
def names (r : Except Fault (List Issue)) : Except Fault (List String) := r.map (List.map Issue.id)

theorem names_mapError (r : Except StoreFault (List Issue)) :
    names (r.mapError StoreFault.toFault) =
      (r.map (List.map Issue.id)).mapError StoreFault.toFault := by
  cases r <;> rfl

section

variable {s : Session} {root : Option Path} {w v : World}

/-- The second of two detections comes to what the first did. -/
theorem detectAndRecord_repeats (huntaken : w.Untaken)
    (hbetween : Undisturbed ((s.detectAndRecord root).run w).2 v)
    (hend : (∃ is, ((s.detectAndRecord root).run w).1 = .ok is) ∨
      w.supply.now.toUniversal?.isSome = true ∧
        ((s.detectAndRecord root).run v).2.supply.now.toUniversal?.isSome = true) :
    names ((s.detectAndRecord root).run v).1 = names ((s.detectAndRecord root).run w).1 ∧
      ((s.detectAndRecord root).run v).2.store = v.store := by
  obtain ⟨f, t, events, hfound, hrun⟩ | ⟨is, t, events, hmakes, hfound, hrun⟩ :=
    s.detectAndRecord_run root w
  · -- the first detection stops at a file, and the second stops at the same one
    rw [hrun] at hbetween ⊢
    have hsame := (found_congr _ _ hbetween.files hbetween.here).trans hfound
    obtain ⟨g, t', events', hfound', hrun'⟩ | ⟨js, t', events', -, hfound', -⟩ :=
      s.detectAndRecord_run root v
    · obtain rfl := Except.error.inj (hfound'.symm.trans hsame)
      rw [hrun']
      exact ⟨rfl, rfl⟩
    · cases hfound'.symm.trans hsame
  · rw [hrun] at hbetween hend ⊢
    have hsame := (found_congr _ _ hbetween.files hbetween.here).trans hfound
    obtain ⟨g, t', events', hfound', -⟩ | ⟨js, t', events', hmakes', hfound', hrun'⟩ :=
      s.detectAndRecord_run root v
    · cases hfound'.symm.trans hsame
    · rw [hrun'] at hend ⊢
      -- the second one makes other issues of the same findings, under names of its own
      have hclock : t.Elapses v.supply := hbetween.clock
      have huntaken' : v.Untaken := huntaken.after hmakes hbetween.issues hclock
      have hdated : (∃ rs, (w.store.takeAll is).1 = .ok rs) ∨
          (∀ i ∈ is, i.Dated) ∧ ∀ j ∈ js, j.Dated := by
        rcases hend with ⟨rs, hrs⟩ | ⟨hfirst, hlast⟩
        · exact .inl ⟨rs, mapError_eq_ok.1 hrs⟩
        · have hafter := hclock.trans hmakes'.elapses
          exact .inr ⟨hmakes.dated hfirst (hmakes.elapses.within hafter hfirst hlast),
            hmakes'.dated ((hmakes.elapses.trans hclock).within hmakes'.elapses hfirst hlast) hlast⟩
      obtain ⟨hnames, hstore⟩ := (huntaken.allNew hmakes).takeAll_again hbetween.issues
        (huntaken'.allNew hmakes') (Except.ok.inj (hfound'.symm.trans hsame)) hdated
      refine ⟨?_, hstore⟩
      rw [names_mapError, names_mapError, hnames]

end

/-- A file with blanks at the end of its line, as it had them once before: those were
resolved. -/
def blanks : World := { (default : World) with
  supply := { (default : Supply) with given := 5 }
  here := ⟨.root, []⟩
  files := ⟨[(["project", "f.txt"], .file "a \n".toUTF8)]⟩
  store := { Store.empty with issues := [{ (default : Issue) with
    id := Supply.nameOf 2, filePath := "f.txt", line := 1, kind := .style
    message := "Trailing whitespace.", status := .resolved }] } }

/-- A session that looks at texts. -/
def reader : Session := { (default : Session) with
  settings := { Settings.usual with
    analysis := { AnalysisSettings.usual with extensions := [".txt"] } }
  repository := ⟨⟨.root, ["project"]⟩, .usual⟩ }

theorem blanks_untaken : blanks.Untaken := by
  rintro n hn ⟨i, hi, hid⟩
  have hgiven : 5 < n := hn
  rw [List.mem_singleton.1 hi] at hid
  have hnum := Supply.nameOf_inj hid
  omega

theorem blanks_distinct : blanks.store.Distinct := List.nodup_singleton _

/-- The detection comes to a new issue. -/
theorem reader_blanks : ∃ is v, (reader.detectAndRecord none).run blanks = (.ok is, v) ∧
    is.map Issue.id = [Supply.nameOf 6] := by
  have hids : ((reader.detectAndRecord none).run blanks).1.toOption.map (List.map Issue.id) =
      some [Supply.nameOf 6] := by decide +kernel
  cases hrun : (reader.detectAndRecord none).run blanks with
  | mk r v =>
    rw [hrun] at hids
    cases r with
    | error f => cases hids
    | ok is => exact ⟨is, v, rfl, Option.some.inj hids⟩

/-- **A detection is idempotent on the store.** Where no file and no issue has changed
since, a second one stores nothing and comes to issues of the same names in the same
order. If the clock shows times of the calendar it also stops where the first one did. -/
theorem detectAndRecord_again (s : Session) (root : Option Path) {w v : World}
    (huntaken : w.Untaken) (hbetween : Undisturbed ((s.detectAndRecord root).run w).2 v) :
    (∀ is, ((s.detectAndRecord root).run w).1 = .ok is →
      ∃ js, ((s.detectAndRecord root).run v).1 = .ok js ∧ js.map Issue.id = is.map Issue.id ∧
        ((s.detectAndRecord root).run v).2.store = v.store) ∧
    (w.supply.now.toUniversal?.isSome = true →
      ((s.detectAndRecord root).run v).2.supply.now.toUniversal?.isSome = true →
      names ((s.detectAndRecord root).run v).1 = names ((s.detectAndRecord root).run w).1 ∧
        ((s.detectAndRecord root).run v).2.store = v.store) := by
  refine ⟨fun is his => ?_, fun hfirst hlast =>
    detectAndRecord_repeats huntaken hbetween (.inr ⟨hfirst, hlast⟩)⟩
  obtain ⟨hnames, hstore⟩ := detectAndRecord_repeats huntaken hbetween (.inl ⟨is, his⟩)
  rw [his] at hnames
  cases hagain : ((s.detectAndRecord root).run v).1 with
  | error f =>
    rw [hagain] at hnames
    cases hnames
  | ok js =>
    rw [hagain] at hnames
    exact ⟨js, rfl, Except.ok.inj hnames, hstore⟩

theorem detectAndRecord_again_blanks : ∃ is js v,
    (reader.detectAndRecord none).run blanks = (.ok is, v) ∧
      is.map Issue.id = [Supply.nameOf 6] ∧
      ((reader.detectAndRecord none).run v).1 = .ok js ∧ js.map Issue.id = is.map Issue.id ∧
      ((reader.detectAndRecord none).run v).2.store = v.store := by
  obtain ⟨is, v, hrun, hids⟩ := reader_blanks
  have hbetween : Undisturbed ((reader.detectAndRecord none).run blanks).2 v := by
    rw [hrun]
    exact ⟨rfl, rfl, rfl, .refl _⟩
  obtain ⟨js, hagain, hnames, hstore⟩ :=
    (detectAndRecord_again reader none blanks_untaken hbetween).1 is (by rw [hrun])
  exact ⟨is, js, v, hrun, hids, hagain, hnames, hstore⟩

/-- **The issues that a detection comes to have distinct names exactly where what it
finds are distinct defects.** -/
theorem detectAndRecord_nodup_iff (s : Session) (root : Option Path) {w w' : World}
    {is : List Issue} (huntaken : w.Untaken) (hdistinct : w.store.Distinct)
    (hrun : (s.detectAndRecord root).run w = (.ok is, w')) :
    ∃ fs, found s.settings.analysis (root.getD s.repository.root) w = .ok fs ∧
      ((is.map Issue.id).Nodup ↔ (fs.map Finding.defect).Nodup) := by
  obtain ⟨f, t, events, -, hrun'⟩ | ⟨js, t, events, hmakes, hfound, hrun'⟩ :=
    s.detectAndRecord_run root w
  · cases (Prod.mk.inj (hrun.symm.trans hrun')).1
  · refine ⟨js.map Issue.finding, hfound, ?_⟩
    have htaken := mapError_eq_ok.1 (Prod.mk.inj (hrun.symm.trans hrun')).1.symm
    rw [(huntaken.allNew hmakes).nodup_iff hdistinct (Prod.ext htaken rfl), List.map_map]
    rfl

theorem detectAndRecord_nodup_blanks : ∃ fs, found reader.settings.analysis
    reader.repository.root blanks = .ok fs ∧ (fs.map Finding.defect).Nodup := by
  obtain ⟨is, v, hrun, hids⟩ := reader_blanks
  obtain ⟨fs, hfound, hiff⟩ :=
    detectAndRecord_nodup_iff reader none blanks_untaken blanks_distinct hrun
  exact ⟨fs, hfound, hiff.1 (hids ▸ by decide +kernel)⟩

/-- The source `eval(a); eval(b)`, a line with two calls. -/
def twoCalls : Source :=
  ⟨"a.py", .python, ["eval(a); eval(b)"], ["eval(a); eval(b)"],
    some (.node .module 1 0 16 [
      .node .exprStmt 1 0 7 [.node .call 1 0 7 [
        .node (.name "eval") 1 0 4 [], .node (.name "a") 1 5 6 []]],
      .node .exprStmt 1 9 16 [.node .call 1 9 16 [
        .node (.name "eval") 1 9 13 [], .node (.name "b") 1 14 15 []]]]),
    .usual⟩

/-- Both calls are found, and both are recorded as the first. -/
theorem recordIssues_twoCalls :
    (((do recordIssues (← Act.supplied (Inspection.recordAll (Inspection.inspect twoCalls)))) :
      Act (List Issue)).run default).1.toOption.map (List.map Issue.id) =
        some [Supply.nameOf 1, Supply.nameOf 1] := by
  have hrecord : (Inspection.recordAll (Inspection.inspect twoCalls)).run (default : World).supply =
      ((Inspection.inspect twoCalls).mapM Finding.record).run (default : World).supply := by
    -- they are found in order
    refine Prod.ext (List.mergeSort_of_pairwise ?_) rfl
    decide +kernel
  rw [run_bind_of_ok (Act.supplied_run _ _), hrecord]
  decide +kernel

end Session

end RepairLoop
