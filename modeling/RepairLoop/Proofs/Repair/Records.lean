import RepairLoop.Proofs.Lifecycle
import RepairLoop.Proofs.Store.Sound
import RepairLoop.Proofs.Trial.Results
import RepairLoop.Proofs.World.Obeys
import RepairLoop.Repair.Process
/-!
# Repair — what the steps of a session record

Each step of a session that writes to the store keeps it sound. All but one
of them write patches that are not applied (`keepPatch_advances`); a patch
is written as valid only right after the result that it passed with
(`recordResult_advances`).
-/

namespace RepairLoop

open Act (Keeps Obeys)
open World (Apart)

/-- The store stays sound, nothing is marked applied but patches with some
names, and the stores that are kept stay as they are. -/
structure World.Advances (allow : Bool) (ids : List String) (w w' : World) : Prop where
  sound : w.store.Sound allow → w'.store.Sound allow
  marks : w.store.Marks ids w'.store
  stores : w'.stores = w.stores

namespace World.Advances

variable {allow : Bool} {ids ids' : List String} {w w' : World}

theorem of_apart (h : Apart w w') : Advances allow ids w w' := by
  refine ⟨fun hs => h.store ▸ hs, ?_, h.stores⟩
  rw [h.store]
  exact Store.Marks.refl _

theorem mono (h : Advances allow ids w w') (hids : ids ⊆ ids') : Advances allow ids' w w' :=
  ⟨h.sound, h.marks.mono hids, h.stores⟩

instance : IsPreorder World (Advances allow ids) where
  refl _ := of_apart (refl_of Apart _)
  trans _ _ _ h h' := ⟨fun hs => h'.sound (h.sound hs), h.marks.trans h'.marks,
    h'.stores.trans h.stores⟩

end World.Advances

/-- The store stays sound, and at most one patch is marked applied. -/
def World.Repairs (allow : Bool) (w w' : World) : Prop :=
  ∃ id, World.Advances allow [id] w w'

namespace Session

open World (Advances)

variable {allow : Bool} {ids : List String}

/-- What leaves the stores alone advances nothing. -/
theorem advances_of_apart {α : Type} {Q : α → Prop} {x : Act α} (h : Obeys Apart Q x) :
    Obeys (Advances allow ids) Q x :=
  h.weaken fun _ _ => Advances.of_apart

theorem keeps_of_apart {α : Type} {x : Act α} (h : Keeps Apart x) :
    Keeps (Advances allow ids) x :=
  advances_of_apart h

/-- A change of the store that keeps it sound and marks nothing. -/
theorem storing_advances {f : Store → Except StoreFault Store}
    (h : ∀ s s', f s = .ok s' → (s.Sound allow → s'.Sound allow) ∧ s.Marks ids s') :
    Keeps (Advances allow ids) (Act.storing f) :=
  Act.storing_keeps fun _ _ hs => ⟨(h _ _ hs).1, (h _ _ hs).2, rfl⟩

/-- A change of the store that leaves the patches and the results. -/
theorem storing_issues {f : Store → Except StoreFault Store}
    (h : ∀ s s', f s = .ok s' → s'.patches = s.patches ∧ s'.results = s.results) :
    Keeps (Advances allow ids) (Act.storing f) :=
  storing_advances fun s s' hs => by
    obtain ⟨hp, hr⟩ := h s s' hs
    exact ⟨fun hsound => hsound.of_results hp (hr ▸ List.Subset.refl _), .of_patches hp⟩

/-! ## Issues -/

theorem setStatus_advances (i : Issue) (status : IssueStatus) :
    Keeps (Advances allow ids) (setStatus i status) :=
  (keeps_of_apart Act.now_apart).bind fun _ =>
    (storing_issues fun _ _ => Store.setIssueStatus_patches).bind fun _ => .pure trivial

theorem record_grows (f : Finding) : Supply.Grows f.record :=
  .bind .freshName fun _ => .bind .readClock fun _ => .bind .readClock fun _ => .pure _

theorem analyzeFiles_grows (settings : AnalysisSettings) (files : List (Location × ByteArray)) :
    Supply.Grows (Inspection.analyzeFiles settings files).run := by
  induction files with
  | nil => exact .run_pure _
  | cons entry rest ih =>
    have hfile (findings : List Finding) : Supply.Grows (Inspection.recordAll findings) :=
      .bind (.mapM record_grows findings) fun _ => .pure _
    exact .run_bind (.run_known _) fun findings => .run_bind (.run_lift (hfile findings))
      fun _ => .run_bind ih fun _ => .run_pure _

theorem detect_apart (settings : AnalysisSettings) (root : Path) :
    Keeps Apart (detect settings root) :=
  Keeps.get.bind fun _ => Act.files_apart.bind fun _ =>
    Obeys.bind (Act.supplying_apart (analyzeFiles_grows _ _) fun _ _ _ _ => trivial) fun _ _ =>
      (Act.emit_apart _).bind fun _ => .pure trivial

theorem recordIssues_advances (is : List Issue) :
    Keeps (Advances allow ids) (recordIssues is) := by
  induction is with
  | nil => exact .pure trivial
  | cons i rest ih =>
    refine (keeps_of_apart (Act.stored_apart _)).bind fun known => ?_
    split
    · exact ih.bind fun _ => .pure trivial
    · exact (storing_issues fun _ _ => Store.addIssue_patches).bind fun _ =>
        ih.bind fun _ => .pure trivial

theorem detectAndRecord_advances (s : Session) (root : Option Path) :
    Keeps (Advances allow ids) (s.detectAndRecord root) :=
  (keeps_of_apart (detect_apart _ _)).bind fun _ => recordIssues_advances _

/-! ## Patches -/

/-- **A move comes to what the action makes of the patch.** -/
theorem move_act (p : Patch) (a : PatchAction) :
    Obeys Apart (fun q => ∃ applied touched, p.act a applied touched = .ok q) (move p a) := by
  intro w
  rw [move, run_bind_of_ok (Act.supplied_run _ w), Act.ofExcept_run]
  refine ⟨⟨rfl, rfl, rfl, Supply.Grows.actNow p a w.supply⟩, fun q hq => ?_⟩
  simp only [mapError_eq_ok] at hq
  exact Patch.act_of_actNow (Prod.ext hq rfl)

/-- A move that is allowed at all times is made. -/
theorem move_isOk {p : Patch} {a : PatchAction}
    (h : ∀ applied touched, ∃ q, p.act a applied touched = .ok q) (w : World) :
    ∃ q w', (move p a).run w = (.ok q, w') := by
  obtain ⟨q, s', hq⟩ := Patch.actNow_isOk h w.supply
  have hsupplied : (Act.supplied (p.actNow a).run).run w = (.ok (.ok q), { w with supply := s' }) := by
    rw [Act.supplied_run]
    exact Prod.ext (congrArg (fun r => Except.ok r.1) hq) (congrArg (fun r => { w with supply := r.2 }) hq)
  rw [move, run_bind_of_ok hsupplied, Act.ofExcept_run]
  exact ⟨q, _, rfl⟩

/-- **Keeping a patch that was never applied keeps the store sound**, if a
valid one has its result on record. -/
theorem keepPatch_advances {p : Patch} {w : World} (hna : p.applied = false)
    (hv : p.validationStatus = .valid → w.store.Backed allow p.id) :
    Advances allow ids w ((keepPatch p).run w).2 := by
  rw [keepPatch, Act.now, run_bind_of_ok (Act.supplied_run _ w), Act.storing_run]
  simp only
  split
  · rename_i s hput
    obtain ⟨hsound, hmarks⟩ := Store.putPatch_sound hput hna hv
    exact ⟨hsound, hmarks, rfl⟩
  · exact Advances.of_apart ⟨rfl, rfl, rfl, Supply.Grows.readClock w.supply⟩

theorem keepPatch_keeps {p : Patch} (hna : p.applied = false) (hv : p.validationStatus ≠ .valid) :
    Keeps (Advances allow ids) (keepPatch p) := fun _ =>
  ⟨keepPatch_advances hna fun h => absurd h hv, fun _ _ => trivial⟩

theorem keepPatches_advances {ps : List Patch} (h : ∀ p ∈ ps, p.New) :
    Keeps (Advances allow ids) (keepPatches ps) := by
  induction ps with
  | nil => exact .pure trivial
  | cons p ps ih =>
    obtain ⟨hp, hps⟩ := List.forall_mem_cons.1 h
    refine (keepPatch_keeps hp.applied ?_).bind fun _ => ih hps
    rcases hp.status with hs | hs <;> rw [hs] <;> decide

/-- A patch is moved, other than by a result, and kept. -/
theorem move_keep_advances {α : Type} {Q : α → Prop} {p : Patch} {a : PatchAction}
    {f : Patch → Act α} (ha : ¬ Patch.Marking a) (hr : ∀ r b, a ≠ .record r b)
    (hf : ∀ q, Obeys (Advances allow ids) Q (f q)) :
    Obeys (Advances allow ids) Q (do
      let q ← move p a
      keepPatch q
      f q) := by
  refine (advances_of_apart (move_act p a)).bind fun q hq => ?_
  obtain ⟨applied, touched, hact⟩ := hq
  obtain ⟨-, hna, hvalid⟩ := Patch.act_unapplied hact ha
  refine (keepPatch_keeps hna fun hv => ?_).bind fun _ => hf q
  obtain ⟨r, b, heq, -⟩ := hvalid hv
  exact hr r b heq

/-- Patches of one kind are moved and kept; the others stay as they are. -/
theorem move_kind_advances {α : Type} {Q : α → Prop} {c : Prop} [Decidable c] {p : Patch}
    {a : PatchAction} {f : Patch → Act α} (ha : ¬ Patch.Marking a) (hr : ∀ r b, a ≠ .record r b)
    (hf : ∀ q, Obeys (Advances allow ids) Q (f q)) :
    Obeys (Advances allow ids) Q (if c then do
        let q ← move p a
        keepPatch q
        let q ← pure q
        f q
      else do
        let q ← pure p
        f q) := by
  split
  · exact move_keep_advances ha hr hf
  · exact hf p

/-- A patch is moved by a result and kept; where it passes it is on record. -/
theorem move_record_advances {p : Patch} {r : ValidationResult} {w : World}
    (hback : r.passes allow = true → w.store.Backed allow r.patchId) :
    Advances allow ids w (((do
      let q ← move p (.record r allow)
      keepPatch q
      pure q : Act Patch)).run w).2 := by
  rw [run_bind_eq]
  split
  · rename_i q w' hmove
    obtain ⟨hapart, applied, touched, hact⟩ := (move_act p _).of_run hmove
    obtain ⟨hid, hna, hvalid⟩ := Patch.act_unapplied hact id
    refine trans_of (Advances allow ids) (Advances.of_apart hapart) ?_
    -- the result is on record before the patch is kept
    have hkeep : Advances allow ids w' ((keepPatch q).run w').2 := by
      refine keepPatch_advances hna fun hv => ?_
      obtain ⟨r', b, heq, hpass, howner⟩ := hvalid hv
      obtain ⟨rfl, rfl⟩ := PatchAction.record.inj heq
      rw [hapart.store, hid, ← howner]
      exact hback hpass
    rw [run_bind_eq]
    split
    · rename_i hrun
      rw [hrun] at hkeep
      exact hkeep
    · rename_i hrun
      rw [hrun] at hkeep
      exact hkeep
  · rename_i hmove
    exact Advances.of_apart ((move_act p _).of_stop hmove)

/-- **A result is recorded before the patch that it validates**, so a patch
is never kept as valid without it. -/
theorem recordResult_advances {p : Patch} {r : ValidationResult} (hr : r.Earned) :
    Keeps (Advances allow ids) (recordResult allow p r) := fun w => by
  refine ⟨?_, fun _ _ => trivial⟩
  rw [recordResult, run_bind_eq, Act.storing_run]
  cases hadd : w.store.addResult r with
  | error e => exact Advances.of_apart (refl_of Apart w)
  | ok s =>
    obtain ⟨hpatches, hresults, hbacked⟩ := Store.addResult_spec hadd
    have hfirst : Advances allow ids w { w with store := s } :=
      ⟨fun hs => hs.of_results hpatches hresults, .of_patches hpatches, rfl⟩
    refine trans_of (Advances allow ids) hfirst (move_record_advances fun hpass => ?_)
    obtain ⟨hbuild, htest⟩ := hr.of_passes hpass
    exact hbacked hpass hbuild htest

/-- **Wherever the recording of a result ends, the patch is as it was or was moved by the
result.** The world is that of a recording whose fault is passed on. -/
theorem recordInto_run (allow : Bool) (p : Patch) (r : ValidationResult) (w : World) :
    ∃ q fault, (recordInto allow p r).run w = (.ok (q, fault), ((recordResult allow p r).run w).2) ∧
      (q = p ∨ Patch.Moves p (.record r allow) q) := by
  rw [recordInto, recordResult, run_bind_of_ok (Act.attempt_run _ w), run_bind_eq, run_bind_eq]
  cases hadd : (Act.storing fun s => s.addResult r).run w with
  | mk added v =>
    cases added with
    | error f => exact ⟨p, some f, rfl, .inl rfl⟩
    | ok _ =>
      simp only
      rw [run_bind_eq]
      cases hmove : (move p (.record r allow)).run v with
      | mk moved u =>
        cases moved with
        | error f => exact ⟨p, some f, rfl, .inl rfl⟩
        | ok q =>
          obtain ⟨-, applied, touched, hact⟩ := (move_act p _).of_run hmove
          have hmoves : Patch.Moves p (.record r allow) q := Patch.moves_of_act hact
          simp only
          rw [run_bind_of_ok (Act.attempt_run _ u), run_bind_eq]
          cases (keepPatch q).run u with
          | mk kept x =>
            cases kept with
            | error f => exact ⟨q, some f, rfl, .inr hmoves⟩
            | ok _ => exact ⟨q, none, rfl, .inr hmoves⟩

/-- What a recording keeps is kept where its fault is looked at. -/
theorem recordInto_obeys {R : World → World → Prop} {p : Patch} {r : ValidationResult}
    (h : Keeps R (recordResult allow p r)) :
    Obeys R (fun e => e.1 = p ∨ Patch.Moves p (.record r allow) e.1) (recordInto allow p r) := by
  intro w
  obtain ⟨q, fault, hrun, hmoved⟩ := recordInto_run allow p r w
  rw [hrun]
  exact ⟨(h w).1, fun e he => Except.ok.inj he ▸ hmoved⟩

end Session

end RepairLoop
