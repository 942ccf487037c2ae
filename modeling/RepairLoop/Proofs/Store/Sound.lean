import Mathlib.Data.List.Nodup
import RepairLoop.Proofs.Store.Changes
/-!
# Store — nothing is applied without a validation on record

A store is sound if every valid patch in it has a result on record that
passes, and every applied one is valid and can be undone (`Sound`). Adding
issues and results keeps a store sound, and so does putting a patch that was
never applied and that has such a result if it is valid. Marking a patch
applied keeps it sound as well: the store only marks what is valid, and
marks nothing else (`markApplied_sound`, `markApplied_marks`).
-/

namespace RepairLoop.Store

variable {allow : Bool} {s s' : Store} {p q : Patch} {id : String} {ids : List String}

/-! ## Sound stores -/

/-- A result on record lets the patch be applied: it is a success, or a
warning where these are allowed, and the build and the tests passed. -/
def Backed (allow : Bool) (s : Store) (id : String) : Prop :=
  ∃ r ∈ s.results, r.result.patchId = id ∧ r.result.passes allow = true ∧
    r.result.buildSuccess = true ∧ r.result.testSuccess = true

/-- The patch may stand in the store as it is. -/
structure Bears (allow : Bool) (s : Store) (p : Patch) : Prop where
  valid : p.validationStatus = .valid → s.Backed allow p.id
  applied : p.applied = true → p.validationStatus = .valid ∧
    ∃ rollback, p.rollbackPatch = some rollback ∧ rollback ≠ ""

/-- **Every patch may stand in the store as it is**, and no two have one
name. -/
structure Sound (allow : Bool) (s : Store) : Prop where
  bears : ∀ p ∈ s.patches, s.Bears allow p
  names : (s.patches.map Patch.id).Nodup

theorem sound_empty (allow : Bool) : empty.Sound allow :=
  ⟨fun _ hp => (List.not_mem_nil hp).elim, List.nodup_nil⟩

theorem Backed.mono (h : s.Backed allow id) (hr : s.results ⊆ s'.results) :
    s'.Backed allow id := by
  obtain ⟨r, hmem, hr'⟩ := h
  exact ⟨r, hr hmem, hr'⟩

theorem Bears.mono (h : s.Bears allow p) (hr : s.results ⊆ s'.results) : s'.Bears allow p :=
  ⟨fun hv => (h.valid hv).mono hr, h.applied⟩

/-- A store with the same patches and at least the same results. -/
theorem Sound.of_results (h : s.Sound allow) (hp : s'.patches = s.patches)
    (hr : s.results ⊆ s'.results) : s'.Sound allow :=
  ⟨fun p hmem => (h.bears p (hp ▸ hmem)).mono hr, hp ▸ h.names⟩

/-- A store in which patches were changed where they stood. -/
theorem Sound.of_map (h : s.Sound allow) {f : Patch → Patch} (hid : ∀ p ∈ s.patches, (f p).id = p.id)
    (hf : ∀ p ∈ s.patches, s.Bears allow (f p)) :
    ({ s with patches := s.patches.map f } : Store).Sound allow := by
  refine ⟨fun p hmem => ?_, ?_⟩
  · obtain ⟨q, hq, rfl⟩ := List.mem_map.1 hmem
    exact (hf q hq).mono (List.Subset.refl _)
  · have hnames : (s.patches.map f).map Patch.id = s.patches.map Patch.id := by
      rw [List.map_map]
      exact List.map_congr_left hid
    exact hnames ▸ h.names

/-- A store with one more patch, whose name is not taken. -/
theorem Sound.of_append (h : s.Sound allow) (hfresh : (s.rawPatch? p.id).isSome = false)
    (hp : s.Bears allow p) : ({ s with patches := s.patches ++ [p] } : Store).Sound allow := by
  refine ⟨fun q hq => ?_, ?_⟩
  · rcases List.mem_append.1 hq with hq | hq
    · exact (h.bears q hq).mono (List.Subset.refl _)
    · rw [List.mem_singleton.1 hq]
      exact hp.mono (List.Subset.refl _)
  · rw [List.map_append, List.map_singleton, List.nodup_append]
    refine ⟨h.names, List.nodup_singleton _, fun name hname other hother heq => ?_⟩
    obtain ⟨q, hq, rfl⟩ := List.mem_map.1 hname
    rw [List.mem_singleton.1 hother] at heq
    have hsome : (s.rawPatch? p.id).isSome = true := by
      rw [rawPatch?, List.find?_isSome]
      exact ⟨q, hq, beq_iff_eq.2 heq⟩
    rw [hfresh] at hsome
    cases hsome

/-! ## What was marked -/

/-- Only patches with a name in `ids` were marked applied. -/
def Marks (ids : List String) (s s' : Store) : Prop :=
  ∀ p ∈ s'.patches, p.applied = true →
    p.id ∈ ids ∨ ∃ q ∈ s.patches, q.id = p.id ∧ q.applied = true

theorem Marks.refl (s : Store) : Marks ids s s := fun p hp ha =>
  Or.inr ⟨p, hp, rfl, ha⟩

theorem Marks.trans {s'' : Store} (h : Marks ids s s') (h' : Marks ids s' s'') :
    Marks ids s s'' := by
  intro p hp ha
  rcases h' p hp ha with hid | ⟨q, hq, hqid, hqa⟩
  · exact Or.inl hid
  · rcases h q hq hqa with hid | ⟨o, ho, hoid, hoa⟩
    · exact Or.inl (hqid ▸ hid)
    · exact Or.inr ⟨o, ho, hoid.trans hqid, hoa⟩

theorem Marks.mono {ids' : List String} (h : Marks ids s s') (hids : ids ⊆ ids') :
    Marks ids' s s' := fun p hp ha => (h p hp ha).imp_left fun hid => hids hid

theorem Marks.of_patches (h : s'.patches = s.patches) : Marks ids s s' :=
  fun p hp ha => Or.inr ⟨p, h ▸ hp, rfl, ha⟩

/-- A store whose patches are changed in place. -/
theorem Marks.of_map {f : Patch → Patch} (hid : ∀ q ∈ s.patches, (f q).id = q.id)
    (hf : ∀ q ∈ s.patches, (f q).applied = true → q.id ∈ ids ∨ q.applied = true) :
    Marks ids s ({ s with patches := s.patches.map f } : Store) := by
  intro p hp ha
  obtain ⟨q, hq, rfl⟩ := List.mem_map.1 hp
  rw [hid q hq]
  exact (hf q hq ha).imp_right fun hqa => ⟨q, hq, rfl, hqa⟩

/-- A store with one more patch, which is not applied. -/
theorem Marks.of_append (hp : p.applied = false) :
    Marks ids s ({ s with patches := s.patches ++ [p] } : Store) := by
  intro q hq ha
  rcases List.mem_append.1 hq with hq | hq
  · exact Or.inr ⟨q, hq, rfl, ha⟩
  · rw [List.mem_singleton.1 hq, hp] at ha
    cases ha

/-! ## Issues -/

theorem addIssue_patches {i : Issue} (h : s.addIssue i = .ok s') :
    s'.patches = s.patches ∧ s'.results = s.results := by
  obtain ⟨kept, -, -, -, rfl⟩ := addIssue_eq h
  exact ⟨rfl, rfl⟩

theorem setIssueStatus_patches {status : IssueStatus} {now : Moment}
    (h : s.setIssueStatus id status now = .ok s') :
    s'.patches = s.patches ∧ s'.results = s.results := by
  obtain ⟨time, -, rfl⟩ := setIssueStatus_eq h
  exact ⟨rfl, rfl⟩

/-! ## Results -/

/-- **What a result says of its patch is on record as it was.** -/
theorem addResult_spec {r : ValidationResult} (h : s.addResult r = .ok s') :
    s'.patches = s.patches ∧ s.results ⊆ s'.results ∧
      (r.passes allow = true → r.buildSuccess = true → r.testSuccess = true →
        s'.Backed allow r.patchId) := by
  obtain ⟨stamp, rfl⟩ := addResult_eq h
  refine ⟨rfl, List.subset_append_left _ _, fun hpass hbuild htest => ?_⟩
  exact ⟨_, List.mem_append_right _ (List.mem_singleton.2 rfl), rfl, hpass, hbuild, htest⟩

/-! ## Patches -/

/-- **A patch that was never applied may be put**, if it has a result on
record where it is valid. -/
theorem putPatch_sound (hput : s.putPatch p = .ok s') (hna : p.applied = false)
    (hv : p.validationStatus = .valid → s.Backed allow p.id) :
    (s.Sound allow → s'.Sound allow) ∧ Marks ids s s' := by
  obtain ⟨kept, hkept, hput⟩ := putPatch_cases hput
  obtain ⟨_, _, _, hkept⟩ := keptPatch_eq hkept
  have hid : kept.id = p.id := hkept ▸ rfl
  have hstatus : kept.validationStatus = p.validationStatus := hkept ▸ rfl
  have happlied : kept.applied = false := by rw [hkept, hna]
  -- what is put bears itself: it is not applied, and backed if it is valid
  have hnew : ∀ q : Patch, q.id = kept.id → q.validationStatus = kept.validationStatus →
      q.applied = kept.applied → s.Bears allow q := by
    intro q hqid hqs hqa
    refine ⟨fun hvalid => ?_, fun ha => ?_⟩
    · rw [hqid, hid]
      exact hv ((hqs.trans hstatus).symm.trans hvalid)
    · rw [hqa, happlied] at ha
      cases ha
  rcases hput with rfl | ⟨hfresh, rfl⟩
  · -- the patch takes the place of the one with its name
    have hkeep : ∀ q ∈ s.patches,
        (if q.id == p.id then mergePatch q kept else q).id = q.id := by
      intro q _
      split
      · rename_i heq
        exact hid.trans (beq_iff_eq.1 heq).symm
      · rfl
    refine ⟨fun h => h.of_map hkeep fun q hq => ?_, .of_map hkeep fun q _ ha => ?_⟩
    · split
      · exact hnew _ rfl rfl rfl
      · exact h.bears q hq
    · split at ha
      · exact absurd (happlied.symm.trans ha) (by decide)
      · exact Or.inr ha
  · have hfresh : (s.rawPatch? kept.id).isSome = false := by
      rw [hid, rawPatch?_eq_none.2 hfresh]
      rfl
    exact ⟨fun h => h.of_append hfresh (hnew kept rfl rfl rfl), .of_append happlied⟩

/-! ## Marks -/

/-- **Only what is valid is marked applied**, so a store stays sound if what
undoes the patch is not empty. -/
theorem markApplied_sound {rollback : String} {commit backup : Option String} {now : Moment}
    (h : s.Sound allow) (hr : rollback ≠ "")
    (hmark : s.markApplied id rollback commit backup now = .ok s') : s'.Sound allow := by
  obtain ⟨-, time, rfl⟩ := markApplied_eq hmark
  refine h.of_map (fun q _ => ?_) fun q hq => ?_
  · split <;> rfl
  · split
    · rename_i hkind
      rw [Bool.and_eq_true, beq_iff_eq, beq_iff_eq] at hkind
      exact ⟨(h.bears q hq).valid, fun _ => ⟨hkind.2, rollback, rfl, hr⟩⟩
    · exact h.bears q hq

theorem markApplied_marks {rollback : String} {commit backup : Option String} {now : Moment}
    (hmark : s.markApplied id rollback commit backup now = .ok s') : Marks [id] s s' := by
  obtain ⟨-, time, rfl⟩ := markApplied_eq hmark
  refine .of_map (fun q _ => ?_) fun q _ ha => ?_
  · split <;> rfl
  · split at ha
    · rename_i hkind
      rw [Bool.and_eq_true, beq_iff_eq] at hkind
      exact Or.inl (List.mem_singleton.2 hkind.1)
    · exact Or.inr ha

/-- What is rolled back stays marked applied. -/
theorem markRolledBack_sound {now : Moment} (hmark : s.markRolledBack id now = .ok s') :
    (s.Sound allow → s'.Sound allow) ∧ Marks ids s s' := by
  obtain ⟨time, rfl⟩ := markRolledBack_eq hmark
  refine ⟨fun h => h.of_map (fun q _ => ?_) fun q hq => ?_,
    .of_map (fun q _ => ?_) fun q _ ha => Or.inr ?_⟩
  · split <;> rfl
  · split
    · exact ⟨(h.bears q hq).valid, (h.bears q hq).applied⟩
    · exact h.bears q hq
  · split <;> rfl
  · split at ha <;> exact ha

/-! ## Old records -/

/-- **What is swept away takes its results with it, and nobody else's.** -/
theorem cleanUp_sound {age : Int} {now : Moment} {n : Nat} (h : s.Sound allow)
    (hclean : s.cleanUp age now = .ok (s', n)) : s'.Sound allow := by
  unfold cleanUp at hclean
  obtain ⟨cutoff, -, hclean⟩ := ok_of_bind hclean
  obtain ⟨kept, -, hclean⟩ := ok_of_bind hclean
  obtain ⟨rfl, -⟩ := Prod.mk.inj (Except.ok.inj hclean)
  refine ⟨fun p hp => ?_, h.names.sublist (List.filter_sublist.map _)⟩
  -- the results of a patch that stays are not swept
  have hbears := h.bears p (List.mem_of_mem_filter hp)
  refine ⟨fun hv => ?_, hbears.applied⟩
  obtain ⟨r, hr, hrp, hr'⟩ := hbears.valid hv
  refine ⟨r, List.mem_filter.2 ⟨hr, ?_⟩, hrp, hr'⟩
  exact List.any_eq_true.2 ⟨p, hp, by rw [hrp, beq_self_eq_true]⟩

end RepairLoop.Store
