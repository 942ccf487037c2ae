import Mathlib.Data.List.Nodup
import RepairLoop.Proofs.Proposal.Vetting
import RepairLoop.Proofs.Store.Changes
/-!
# Repair — what the store holds of an issue that is worked on

While an issue is worked on the store keeps to one shape (`Store.Tracks`): the
issue is in progress, the patches under the names of its candidates are vetted
and none of them is applied but the one that has landed, and every other patch
is one that was there before. Each change that a repair makes to the store
keeps to that shape; the last ones lead from it to where the issue is settled.
-/

namespace RepairLoop

/-- What is known of a repair before it stores any candidate: the name of its
issue, the patches on record, the offers that may be applied, and whether the
names of the candidates are new to the store. -/
structure Track where
  issue : String
  old : List Patch
  ok : Patch.Offer → Prop
  fresh : Prop

namespace Track

variable {t : Track} {landed : Option String} {p q : Patch}

/-- What is known of a patch under the name of a candidate. -/
structure Holds (t : Track) (landed : Option String) (p : Patch) : Prop where
  kept : p.rolledBack = false
  vetted : p.Vetted t.ok
  applied : p.applied = true → landed = some p.id ∧ p.needsReview = false ∧ t.ok p.offer
  owner : t.fresh → p.issueId = t.issue

/-- A patch that is not applied is known by what it says. -/
theorem Holds.of_eq (h : t.Holds none p) (hkept : q.rolledBack = p.rolledBack)
    (hstatus : q.validationStatus = p.validationStatus) (hreview : q.needsReview = p.needsReview)
    (hoffer : q.offer = p.offer) (happlied : q.applied = p.applied)
    (howner : t.fresh → q.issueId = t.issue) : t.Holds landed q := by
  refine ⟨hkept.trans h.kept, ?_, fun ha => ?_, howner⟩
  · cases h.vetted with
    | refused hs => exact .refused (hstatus ▸ hs)
    | held hs hr => exact .held (hstatus.trans hs) (hreview.trans hr)
    | cleared hr ho => exact .cleared (hreview.trans hr) (hoffer ▸ ho)
  · cases (h.applied (happlied ▸ ha)).1

/-- What is stored of a patch says what the patch says. -/
theorem Holds.stored {kept : Patch} (h : t.Holds none p) (hkept : Store.keptPatch p = .ok kept) :
    t.Holds landed kept := by
  obtain ⟨_, _, _, rfl⟩ := Store.keptPatch_eq hkept
  exact h.of_eq rfl rfl rfl rfl rfl h.owner

theorem Holds.merged {kept : Patch} (h : t.Holds none p) (hkept : Store.keptPatch p = .ok kept)
    (howner : t.fresh → q.issueId = t.issue) : t.Holds landed (Store.mergePatch q kept) := by
  obtain ⟨_, _, _, rfl⟩ := Store.keptPatch_eq hkept
  exact h.of_eq rfl rfl rfl rfl rfl howner

end Track

namespace Store

variable {t : Track} {ids : List String} {landed : Option String} {s s' : Store} {p : Patch}
variable {id : String}

/-- What is applied was applied before, or was let through by the gate. -/
def Safe (t : Track) (s : Store) : Prop :=
  ∀ q ∈ s.patches, q.applied = true → q ∈ t.old ∨ (q.needsReview = false ∧ t.ok q.offer)

/-- The issue has a status. -/
def Shows (s : Store) (issue : String) (status : IssueStatus) : Prop :=
  (s.issue? issue).map Issue.status = some status

/-- A patch under a name is applied and was not rolled back. -/
def standing (s : Store) (id : String) : Bool :=
  (s.rawPatch? id).any fun q => q.applied && !q.rolledBack

/-- **The store while an issue is worked on.** The candidates with a name in
`ids` may be stored, and the one that has landed is. -/
structure Tracks (t : Track) (ids : List String) (landed : Option String) (s : Store) : Prop where
  status : s.Shows t.issue .inProgress
  rows : ∀ q ∈ s.patches, q.id ∈ ids → t.Holds landed q
  others : ∀ q ∈ s.patches, q.id ∉ ids → q ∈ t.old
  unique : t.fresh → ∀ q ∈ s.patches, ∀ r ∈ s.patches, q.id ∈ ids → q.id = r.id → q = r
  stands : ∀ id, landed = some id → ∃ q ∈ s.patches, q.id = id ∧ q.applied = true

/-- The store where the work was stopped. -/
structure Halted (t : Track) (s : Store) : Prop where
  status : s.Shows t.issue .inProgress
  safe : s.Safe t

namespace Tracks

theorem safe (h : s.Tracks t ids landed) : s.Safe t := by
  intro q hq ha
  by_cases hid : q.id ∈ ids
  · exact Or.inr ((h.rows q hq hid).applied ha).2
  · exact Or.inl (h.others q hq hid)

theorem halted (h : s.Tracks t ids landed) : s.Halted t := ⟨h.status, h.safe⟩

/-- Before any candidate is stored. -/
theorem start (hstatus : s.Shows t.issue .inProgress) (hold : s.patches = t.old) :
    s.Tracks t [] none :=
  ⟨hstatus, fun _ _ h => (List.not_mem_nil h).elim, fun _ hq _ => hold ▸ hq,
    fun _ _ _ _ _ h => (List.not_mem_nil h).elim, fun _ h => by cases h⟩

/-- What is said of names is said of them in any order. -/
theorem congr {ids' : List String} (h : s.Tracks t ids landed) (hids : ∀ id, id ∈ ids ↔ id ∈ ids') :
    s.Tracks t ids' landed :=
  ⟨h.status, fun q hq hid => h.rows q hq ((hids _).2 hid),
    fun q hq hid => h.others q hq fun h => hid ((hids _).1 h),
    fun hf q hq r hr hid => h.unique hf q hq r hr ((hids _).2 hid), h.stands⟩

/-- Changes of other records. -/
theorem of_eq (h : s.Tracks t ids landed) (hissues : s'.issues = s.issues)
    (hpatches : s'.patches = s.patches) : s'.Tracks t ids landed := by
  have hissue : s'.issue? t.issue = s.issue? t.issue := by rw [issue?, issue?, hissues]
  refine ⟨?_, ?_, ?_, ?_, ?_⟩
  · rw [Shows, hissue]
    exact h.status
  · exact hpatches ▸ h.rows
  · exact hpatches ▸ h.others
  · exact hpatches ▸ h.unique
  · exact hpatches ▸ h.stands

/-- Patches are changed where they stand; the names in `ids'` are those that
may be changed. -/
theorem of_map {ids' : List String} {landed' : Option String} {f : Patch → Patch}
    (h : s.Tracks t ids landed) (hname : ∀ q, (f q).id = q.id) (hids : ids ⊆ ids')
    (hrows : ∀ q ∈ s.patches, q.id ∈ ids' → t.Holds landed' (f q))
    (hothers : ∀ q ∈ s.patches, q.id ∉ ids' → f q = q)
    (hknown : t.fresh → ∀ q ∈ s.patches, q.id ∈ ids' → q.id ∈ ids)
    (hstands : ∀ id, landed' = some id → ∃ q ∈ s.patches, q.id = id ∧ (f q).applied = true) :
    ({ s with patches := s.patches.map f } : Store).Tracks t ids' landed' := by
  refine ⟨h.status, fun q' hq' hid => ?_, fun q' hq' hid => ?_, ?_, fun id hid => ?_⟩
  · obtain ⟨q, hq, rfl⟩ := List.mem_map.1 hq'
    exact hrows q hq (hname q ▸ hid)
  · obtain ⟨q, hq, rfl⟩ := List.mem_map.1 hq'
    rw [hname] at hid
    rw [hothers q hq hid]
    exact h.others q hq fun hmem => hid (hids hmem)
  · intro hf q' hq' r' hr' hid hsame
    obtain ⟨q, hq, rfl⟩ := List.mem_map.1 hq'
    obtain ⟨r, hr, rfl⟩ := List.mem_map.1 hr'
    rw [hname] at hid
    rw [hname, hname] at hsame
    rw [h.unique hf q hq r hr (hknown hf q hq hid) hsame]
  · obtain ⟨q, hq, hqid, ha⟩ := hstands id hid
    exact ⟨f q, List.mem_map_of_mem hq, (hname q).trans hqid, ha⟩

/-! ## Putting a candidate -/

/-- A patch under the name of a candidate is one that was put for the issue,
unless it is an old one and the name is not new. -/
theorem known {q : Patch} (h : s.Tracks t ids landed) (hq : q ∈ s.patches)
    (hnew : q.id ∈ ids ∨ (t.fresh → ∀ r ∈ t.old, r.id ≠ q.id)) (hf : t.fresh) : q.id ∈ ids := by
  by_cases hid : q.id ∈ ids
  · exact hid
  · exact absurd rfl ((hnew.resolve_left hid) hf q (h.others q hq hid))

/-- A new patch is added under a name that no patch has. -/
theorem of_append (h : s.Tracks t ids landed) (hfree : ∀ q ∈ s.patches, q.id ≠ p.id)
    (hp : t.Holds landed p) : ({ s with patches := s.patches ++ [p] } : Store).Tracks t
      (p.id :: ids) landed := by
  have hcases {q : Patch} (hq : q ∈ s.patches ++ [p]) : (q ∈ s.patches ∧ q.id ≠ p.id) ∨ q = p := by
    rcases List.mem_append.1 hq with hq | hq
    · exact Or.inl ⟨hq, hfree q hq⟩
    · exact Or.inr (List.mem_singleton.1 hq)
  refine ⟨h.status, fun q hq hid => ?_, fun q hq hid => ?_, fun hf q hq r hr hid hsame => ?_,
    fun id hid => ?_⟩
  · rcases hcases hq with ⟨hq, hne⟩ | rfl
    · exact h.rows q hq ((List.mem_cons.1 hid).resolve_left hne)
    · exact hp
  · obtain ⟨hne, hid⟩ := not_or.1 fun h => hid (List.mem_cons.2 h)
    rcases hcases hq with ⟨hq, -⟩ | rfl
    · exact h.others q hq hid
    · exact absurd rfl hne
  · rcases hcases hq with ⟨hq, hne⟩ | rfl
    · rcases hcases hr with ⟨hr, -⟩ | rfl
      · exact h.unique hf q hq r hr ((List.mem_cons.1 hid).resolve_left hne) hsame
      · exact absurd hsame hne
    · rcases hcases hr with ⟨hr, hne⟩ | rfl
      · exact absurd hsame.symm hne
      · rfl
  · obtain ⟨q, hq, hqid, ha⟩ := h.stands id hid
    exact ⟨q, List.mem_append_left _ hq, hqid, ha⟩

/-- **A candidate that is not applied may be put**, under its own name or a new
one. -/
theorem put (h : s.Tracks t ids landed) (hput : s.putPatch p = .ok s') (hp : t.Holds none p)
    (hlanded : landed ≠ some p.id)
    (hnew : p.id ∈ ids ∨ (t.fresh → ∀ r ∈ t.old, r.id ≠ p.id)) :
    s'.Tracks t (p.id :: ids) landed := by
  obtain ⟨kept, hkept, hput⟩ := putPatch_cases hput
  have hid : kept.id = p.id := keptPatch_id hkept
  rcases hput with rfl | ⟨hfree, rfl⟩
  · -- it takes the place of those with its name
    have hknown : t.fresh → ∀ q ∈ s.patches, q.id ∈ p.id :: ids → q.id ∈ ids := by
      intro hf q hq hmem
      rcases List.mem_cons.1 hmem with heq | hmem
      · exact h.known hq (heq ▸ hnew) hf
      · exact hmem
    refine h.of_map (fun q => ?_) (List.subset_cons_self _ _) (fun q hq hmem => ?_)
      (fun q hq hmem => ?_) hknown fun id hlid => ?_
    · split
      · rename_i heq
        exact hid.trans (beq_iff_eq.1 heq).symm
      · rfl
    · split
      · exact hp.merged hkept fun hf => (h.rows q hq (hknown hf q hq hmem)).owner hf
      · rename_i hne
        exact h.rows q hq ((List.mem_cons.1 hmem).resolve_left (by simpa using hne))
    · have hne : (q.id == p.id) = false := by
        simpa using fun heq : q.id = p.id => hmem (heq ▸ List.mem_cons_self)
      rw [if_neg (by simp [hne])]
    · obtain ⟨q, hq, hqid, ha⟩ := h.stands id hlid
      refine ⟨q, hq, hqid, ?_⟩
      rw [if_neg fun heq => hlanded ?_]
      · exact ha
      · rw [hlid, ← hqid, beq_iff_eq.1 heq]
  · rw [← hid] at hfree ⊢
    exact h.of_append hfree (hp.stored hkept)

/-! ## Applying and rolling back -/

/-- **The candidate that is marked applied has been let through**, and it is
the one that has landed. -/
theorem markApplied {rollback : String} {commit backup : Option String} {now : Moment}
    (h : s.Tracks t ids none) (hid : id ∈ ids)
    (hmark : s.markApplied id rollback commit backup now = .ok s') :
    s'.Tracks t ids (some id) := by
  obtain ⟨⟨p, hp, hkind⟩, time, rfl⟩ := markApplied_eq hmark
  refine h.of_map (fun q => ?_) (List.Subset.refl _) (fun q hq hmem => ?_) (fun q hq hmem => ?_)
    (fun _ _ _ hmem => hmem) fun other hother => ?_
  · split <;> rfl
  · have hrow := h.rows q hq hmem
    split
    · rename_i hkind
      rw [Bool.and_eq_true, beq_iff_eq, beq_iff_eq] at hkind
      obtain ⟨rfl, hvalid⟩ := hkind
      obtain ⟨hreview, hok⟩ := hrow.vetted.of_status (by simp [hvalid]) (by simp [hvalid])
        (by simp [hvalid])
      exact ⟨hrow.kept, .cleared hreview hok, fun _ => ⟨rfl, hreview, hok⟩, hrow.owner⟩
    · exact ⟨hrow.kept, hrow.vetted, fun ha => (by cases (hrow.applied ha).1), hrow.owner⟩
  · rw [if_neg]
    rw [Bool.and_eq_true, beq_iff_eq]
    rintro ⟨rfl, -⟩
    exact hmem hid
  · obtain rfl := Option.some.inj hother
    refine ⟨p, hp, ?_, ?_⟩
    · rw [Bool.and_eq_true, beq_iff_eq] at hkind
      exact hkind.1
    · rw [if_pos hkind]

/-- **Where the landed candidate is rolled back, nothing stays applied.** -/
theorem markRolledBack {now : Moment} (h : s.Tracks t ids (some id)) (hid : id ∈ ids)
    (hmark : s.markRolledBack id now = .ok s') :
    s'.Halted t ∧ ∀ q ∈ s'.patches, q.id ∈ ids → q.applied = true → q.rolledBack = true := by
  obtain ⟨time, rfl⟩ := markRolledBack_eq hmark
  refine ⟨⟨h.status, fun q' hq' ha => ?_⟩, fun q' hq' hmem ha => ?_⟩
  · obtain ⟨q, hq, rfl⟩ := List.mem_map.1 hq'
    split
    · rename_i hkind
      rw [Bool.and_eq_true, beq_iff_eq] at hkind
      exact Or.inr ((h.rows q hq (hkind.1 ▸ hid)).applied hkind.2).2
    · rename_i hkind
      rw [if_neg hkind] at ha
      exact h.safe q hq ha
  · obtain ⟨q, hq, rfl⟩ := List.mem_map.1 hq'
    split
    · rfl
    · rename_i hkind
      rw [if_neg hkind] at ha hmem
      rw [Bool.and_eq_true, beq_iff_eq, not_and] at hkind
      have hlanded := ((h.rows q hq hmem).applied ha).1
      exact absurd ha (hkind (Option.some.inj hlanded).symm)

/-! ## What stands -/

/-- **Under new names the one that has landed stands, and no other.** -/
theorem standing_eq (h : s.Tracks t ids landed) (hf : t.fresh) (hid : id ∈ ids) :
    s.standing id = (landed == some id) := by
  rw [standing]
  cases hrow : s.rawPatch? id with
  | none =>
    have hnone := rawPatch?_eq_none.1 hrow
    cases hlanded : landed == some id with
    | false => rfl
    | true =>
      obtain ⟨q, hq, hqid, -⟩ := h.stands id (beq_iff_eq.1 hlanded)
      exact absurd hqid (hnone q hq)
  | some q =>
    obtain ⟨hq, rfl⟩ := rawPatch?_eq_some hrow
    have hholds := h.rows q hq hid
    rw [Option.any_some, hholds.kept, Bool.not_false, Bool.and_true]
    cases ha : q.applied with
    | true => rw [(hholds.applied ha).1, beq_self_eq_true]
    | false =>
      symm
      rw [beq_eq_false_iff_ne]
      intro hlanded
      obtain ⟨r, hr, hrid, hra⟩ := h.stands q.id hlanded
      rw [h.unique hf q hq r hr hid hrid.symm, hra] at ha
      cases ha

/-- So of the candidates none stands before one has landed. -/
theorem countP_none {ps : List Patch} (h : s.Tracks t (ps.map Patch.id) none) (hf : t.fresh) :
    ps.countP (fun p => s.standing p.id) = 0 := by
  rw [List.countP_eq_zero]
  intro p hp
  rw [h.standing_eq hf (List.mem_map_of_mem hp)]
  simp

/-- **And one stands once it has.** -/
theorem countP_some {ps : List Patch} (h : s.Tracks t (ps.map Patch.id) (some id)) (hf : t.fresh)
    (hid : id ∈ ps.map Patch.id) (hnames : (ps.map Patch.id).Nodup) :
    ps.countP (fun p => s.standing p.id) = 1 := by
  have hcount : ps.countP (fun p => s.standing p.id) = (ps.map Patch.id).count id := by
    rw [List.count, List.countP_map]
    refine List.countP_congr fun p hp => ?_
    rw [h.standing_eq hf (List.mem_map_of_mem hp), Function.comp_apply, beq_iff_eq, beq_iff_eq,
      Option.some.injEq]
    exact eq_comm
  rw [hcount, List.count_eq_one_of_mem hnames hid]

end Tracks

end Store

end RepairLoop
