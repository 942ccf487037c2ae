import RepairLoop.Proofs.Proposal.Vetting
import RepairLoop.Proofs.Repair.Records
/-!
# Repair — what a repair does to the store

The steps of a repair before and after the application mark nothing, so a
repair marks at most the winner (`process_repairs`), whatever the service,
git and the stages answer and wherever a fault stops it.
-/

/-!
## Repair — what applying and rolling back do to the store

An application works in the repository first and in the store last, where it
marks one patch, by its name, and only with something that undoes it
(`applyPatch_advances`). A rollback marks nothing applied.
-/

namespace RepairLoop.Session

open Act (Keeps Obeys)
open World (Apart Advances)

variable {allow : Bool} {ids : List String}

/-! ### In the repository -/

section

variable (r : Repository) (i : Issue) (p : Patch)

theorem commitPatch_apart : Keeps Apart (commitPatch r i p) :=
  (r.applyDiff_apart _ _ _).bind fun _ => Keeps.ofExcept.bind fun _ => r.commit_apart _ _ _

theorem returnTo_apart (base : String) : Keeps Apart (returnTo r base) :=
  (r.try_apart _).bind fun _ => r.checkOut_apart base

theorem transfer_apart (base branch : String) : Keeps Apart (transfer r base branch i p) :=
  (r.checkOut_apart branch).bind fun _ =>
    Obeys.bind (Obeys.finally_ (commitPatch_apart r i p) (returnTo_apart r base)) fun _ _ =>
      (r.cherryPick_apart _).bind fun _ => Keeps.get.bind fun _ => r.head_apart.bind fun _ =>
        (r.difference_apart _ _ _).bind fun _ => .pure trivial

theorem dropBranch_apart (branch : String) : Keeps Apart (dropBranch r branch) := by
  refine r.currentBranch_apart.bind fun current => ?_
  split
  · refine (r.hasBranch_apart branch).bind fun found => ?_
    split
    · exact r.deleteBranch_apart branch true
    · exact .pure trivial
  · exact .pure trivial

theorem requireClean_apart : Keeps Apart (requireClean r) := by
  refine (r.isClean_apart false).bind fun clean => ?_
  split
  · exact (r.status_apart false).bind fun _ => Repository.refuse_apart _ _
  · exact .pure trivial

/-- **The repository is worked in without the store.** -/
theorem applyToRepository_apart : Keeps Apart (applyToRepository r i p) := by
  unfold applyToRepository
  refine r.currentBranch_apart.bind fun current => ?_
  split
  · exact Repository.refuse_apart _ _
  · refine (requireClean_apart r).bind fun _ => (r.isolate_apart _ _ _).bind fun branch => ?_
    refine Obeys.bind (Obeys.finally_ (transfer_apart r i p _ branch) (dropBranch_apart r branch))
      fun change _ => ?_
    split
    split
    · split
      · exact Repository.refuse_apart _ _
      · exact .pure trivial
    · exact Repository.refuse_apart _ _

theorem requireValidated_apart : Keeps Apart (requireValidated p) := by
  refine Act.store_apart.bind fun s => (Act.stored_apart _).bind fun known => ?_
  split
  · exact .throw
  · exact .pure trivial

end

/-! ### In the store -/

/-- **An application marks its patch and no other.** -/
theorem applyPatch_advances (s : Session) (i : Issue) (p : Patch) :
    Obeys (Advances allow [p.id]) (fun q => q.id = p.id) (s.applyPatch i p) := by
  refine (keeps_of_apart (requireValidated_apart p)).bind fun _ =>
    (keeps_of_apart (applyToRepository_apart _ i p)).bind fun change => ?_
  -- the store is only written once the repository has been
  refine (advances_of_apart (move_act p _)).bind fun q hq => ?_
  obtain ⟨applied, touched, hact⟩ := hq
  obtain ⟨hrollback, hid⟩ := Patch.rollback_of_apply hact
  refine (keeps_of_apart Act.now_apart).bind fun now => ?_
  refine (Act.storing_keeps fun w s' hmark => ?_).bind fun _ =>
    (keeps_of_apart (Act.emit_apart _)).bind fun _ => .pure hid
  exact ⟨fun hs => Store.markApplied_sound hs hrollback hmark, Store.markApplied_marks hmark, rfl⟩

/-! ### Rolling back -/

theorem commitRollback_apart (r : Repository) (p : Patch) : Keeps Apart (commitRollback r p) :=
  (r.applyDiff_apart _ _ _).bind fun _ => (r.commit_apart _ _ _).bind fun _ => .pure trivial

theorem resetToBackup_apart (r : Repository) (p : Patch) (backup : String) :
    Keeps Apart (resetToBackup r p backup) := by
  exact (r.run_apart _).bind fun out =>
    Keeps.when (Repository.refuse_apart _ _) (r.resetTo_apart backup true)

theorem undo_apart (r : Repository) (p : Patch) : Keeps Apart (undo r p) := by
  refine (commitRollback_apart r p).attempt.bind fun done => ?_
  split
  · exact .pure trivial
  · split
    · split
      · exact (resetToBackup_apart r p _).bind fun _ => .pure trivial
      · exact .throw
    · exact .throw

/-- **A rollback marks nothing applied.** -/
theorem rollBack_advances (s : Session) (id : String) :
    Keeps (Advances allow ids) (s.rollBack id) := by
  refine (keeps_of_apart (Act.stored_apart _)).bind fun known => ?_
  split
  · exact .throw
  · rename_i p
    refine Keeps.when .throw ?_
    refine (keeps_of_apart (undo_apart _ p)).bind fun method => ?_
    refine (keeps_of_apart (move_act p _).keeps).bind fun q => ?_
    refine (keeps_of_apart Act.now_apart).bind fun now => ?_
    refine (storing_advances fun _ _ => Store.markRolledBack_sound).bind fun _ => ?_
    refine (keeps_of_apart Act.now_apart).bind fun now => ?_
    refine (storing_issues fun _ _ => Store.setIssueStatus_patches).bind fun _ => ?_
    exact (keeps_of_apart (Act.emit_apart _)).bind fun _ => .pure trivial

end RepairLoop.Session

namespace RepairLoop.Session

open Act (Keeps Obeys)
open World (Apart Advances Repairs)

variable {allow : Bool} {ids : List String} (s : Session)

/-! ## Candidates -/

theorem asking_apart : Keeps Apart s.asking := by
  unfold asking
  split
  · exact .pure trivial
  · exact Keeps.get.bind fun _ => Keeps.ofExcept.bind fun _ => Proposer.make_apart _ _ _ _

theorem proposePatiently_new (i : Issue) (index : Int) (waited left : Nat) :
    Obeys Apart Patch.New (s.proposePatiently i index waited left) := by
  induction left generalizing waited with
  | zero => exact s.asking_apart.bind fun p => p.propose_new i index
  | succ left ih =>
    refine s.asking_apart.bind fun p => (p.propose_new i index).attempt.bind fun r hr => ?_
    split
    · exact .pure (hr _ rfl)
    · split
      · exact (Act.pause_apart _).bind fun _ => ih (waited + 1)
      · exact .throw

theorem proposeEach_new (i : Issue) (index : Int) (count : Nat) :
    Obeys Apart (fun ps => ∀ p ∈ ps, p.New) (s.proposeEach i index count) := by
  induction count generalizing index with
  | zero => exact .pure (by simp)
  | succ count ih =>
    refine (s.proposePatiently_new i index _ _).bind fun p hp => (ih (index + 1)).bind fun ps hps =>
      .pure ?_
    exact List.forall_mem_cons.2 ⟨hp, hps⟩

/-- **The candidates of an issue are new.** -/
theorem proposeAll_new (i : Issue) :
    Obeys Apart (fun ps => ∀ p ∈ ps, p.New) (s.proposeAll i) :=
  (s.proposeEach_new i 0 _).bind fun _ hps => .pure fun p hp => hps p (Patch.mem_ranked.1 hp)

/-! ## Candidates one after the other -/

/-- Moves the patches of a kind and stores them; the others stay as they are. -/
def moveEach (c : Patch → Bool) (a : PatchAction) : List Patch → Act (List Patch)
  | [] => pure []
  | p :: ps => do
    let q ← if c p then do
        let q ← move p a
        keepPatch q
        pure q
      else pure p
    let qs ← moveEach c a ps
    pure (q :: qs)

theorem beginAll_eq (ps : List Patch) : beginAll ps = moveEach isOpenCandidate .begin ps := by
  induction ps with
  | nil => rfl
  | cons p ps ih => rw [beginAll, moveEach, ih]

theorem giveUp_eq (ps : List Patch) :
    giveUp ps = moveEach (·.state == .validating) (.invalidate .validationError false) ps := by
  induction ps with
  | nil => rfl
  | cons p ps ih => rw [giveUp, moveEach, ih]

theorem rejectOthers_eq (winner : String) (ps : List Patch) :
    rejectOthers winner ps =
      moveEach (fun p => p.id != winner && p.validationStatus == .valid) (.reject none) ps := by
  induction ps with
  | nil => rfl
  | cons p ps ih => rw [rejectOthers, moveEach, ih]

theorem moveEach_advances {c : Patch → Bool} {a : PatchAction} (ha : ¬ Patch.Marking a)
    (hr : ∀ r b, a ≠ .record r b) (ps : List Patch) : Keeps (Advances allow ids) (moveEach c a ps) := by
  induction ps with
  | nil => exact .pure trivial
  | cons p ps ih => exact move_kind_advances ha hr fun _ => ih.bind fun _ => .pure trivial

/-! ## Validation -/

theorem beginAll_advances (ps : List Patch) : Keeps (Advances allow ids) (beginAll ps) := by
  rw [beginAll_eq]
  exact moveEach_advances id (fun _ _ h => by cases h) ps

theorem giveUp_advances (ps : List Patch) : Keeps (Advances allow ids) (giveUp ps) := by
  rw [giveUp_eq]
  exact moveEach_advances id (fun _ _ h => by cases h) ps

theorem rejectOthers_advances (winner : String) (ps : List Patch) :
    Keeps (Advances allow ids) (rejectOthers winner ps) := by
  rw [rejectOthers_eq]
  exact moveEach_advances id (fun _ _ h => by cases h) ps

theorem recordAll_advances (report : IssueReport) (rs : List (Patch × ValidationResult))
    (h : ∀ r ∈ rs, r.2.Earned) : Keeps (Advances allow ids) (recordAll allow report rs) := by
  induction rs generalizing report with
  | nil => exact .pure trivial
  | cons r rest ih =>
    obtain ⟨hr, hrest⟩ := List.forall_mem_cons.1 h
    refine (recordInto_obeys (recordResult_advances hr)).keeps.bind fun recorded => ?_
    obtain ⟨q, fault⟩ := recorded
    cases fault with
    | some f => exact .pure trivial
    | none => exact ih _ hrest

/-- **The results of the gate are recorded**, as far as they are taken. -/
theorem validateInto_advances (report : IssueReport)
    (hs : s.settings.validation.allowSecurityWarnings = allow) :
    Keeps (Advances allow ids) (s.validateInto report) := by
  refine (advances_of_apart (s.gate.validateMany_earned _)).attempt.bind fun results hr => ?_
  split
  · exact .pure trivial
  · rename_i rs
    rw [hs]
    exact recordAll_advances _ _ fun r hmem => hr rs rfl r.2 (List.of_mem_zip hmem).2

/-! ## After the validation -/

theorem firstFailure_apart (patch : String) (specs : List StageSpec) :
    Keeps Apart (s.firstFailure patch specs) := by
  induction specs with
  | nil => exact .pure trivial
  | cons spec specs ih =>
    refine (spec.run_apart _ _).bind fun r => ?_
    split
    · exact ih
    · exact .pure trivial

theorem leftOpen_advances (report : IssueReport) (error : String) :
    Keeps (Advances allow ids) (leftOpen report error) :=
  (setStatus_advances _ _).bind fun _ => .pure trivial

theorem afterApplying_advances (report : IssueReport) (winner : String) :
    Keeps (Advances allow ids) (s.afterApplying report winner) := by
  refine (rejectOthers_advances winner _).bind fun candidates => ?_
  refine (keeps_of_apart (s.firstFailure_apart _ _)).bind fun failed => ?_
  split
  · exact (s.rollBack_advances winner).bind fun _ => .pure trivial
  · exact (setStatus_advances _ _).bind fun _ => .pure trivial

/-- **Of the validated candidates the winner is marked, if there is one**, and
no other. -/
theorem afterValidating_repairs (report : IssueReport) :
    Keeps (Repairs allow) (s.afterValidating report) := by
  unfold afterValidating
  split
  · exact (leftOpen_advances report _).weaken fun _ _ h => ⟨"", h⟩
  · rename_i winner _
    refine Obeys.weaken (R := Advances allow [winner.id]) ?_ fun _ _ h => ⟨winner.id, h⟩
    refine (s.applyPatch_advances report.issue winner).attempt.bind fun applied _ => ?_
    split
    · split
      · exact leftOpen_advances _ _
      · exact .throw
    · exact s.afterApplying_advances _ _

/-! ## Processing -/

theorem repairs_of_advances {α : Type} {Q : α → Prop} {x : Act α}
    (h : Obeys (Advances allow []) Q x) : Obeys (Repairs allow) Q x :=
  h.weaken fun _ _ hw => ⟨"", hw.mono (List.nil_subset _)⟩

/-- What marks nothing may be done before a repair. -/
theorem repairs_bind {α β : Type} {Q : α → Prop} {Q' : β → Prop} {x : Act α} {f : α → Act β}
    (hx : Obeys (Advances allow []) Q x) (hf : ∀ a, Q a → Obeys (Repairs allow) Q' (f a)) :
    Obeys (Repairs allow) Q' (x >>= f) := by
  refine Obeys.bind_of hx hf (fun _ _ h => ⟨"", h.mono (List.nil_subset _)⟩) ?_
  rintro w w₁ w₂ h ⟨id, h'⟩
  exact ⟨id, trans_of (Advances allow [id]) (h.mono (List.nil_subset _)) h'⟩

/-- Where it is only done under a condition, too. -/
theorem repairs_when {α β : Type} {Q : α → Prop} {Q' : β → Prop} {c : Prop} [Decidable c]
    {x : Act α} {rest : Act β} (hx : Obeys (Advances allow []) Q x)
    (hrest : Obeys (Repairs allow) Q' rest) :
    Obeys (Repairs allow) Q' (if c then x >>= fun _ => rest else rest) := by
  split
  · exact repairs_bind hx fun _ _ => hrest
  · exact hrest

theorem afterProposing_repairs (report : IssueReport) (h : ∀ p ∈ report.candidates, p.New)
    (hs : s.settings.validation.allowSecurityWarnings = allow) :
    Keeps (Repairs allow) (s.afterProposing report) := by
  refine repairs_bind (keepPatches_advances h) fun _ _ => ?_
  refine repairs_bind (beginAll_advances _) fun candidates _ => ?_
  refine repairs_bind (s.validateInto_advances _ hs) fun validated _ => ?_
  split
  split
  · exact s.afterValidating_repairs _
  · exact repairs_of_advances ((giveUp_advances _).bind fun _ => leftOpen_advances _ _)

/-- **A repair marks at most one patch applied and keeps the store sound**,
whether it comes to a report or is stopped. -/
theorem process_repairs (i : Issue) (hs : s.settings.validation.allowSecurityWarnings = allow) :
    Keeps (Repairs allow) (s.process i) := by
  refine repairs_bind (keeps_of_apart Act.store_apart) fun known _ => ?_
  refine repairs_when (storing_issues fun _ _ => Store.addIssue_patches) ?_
  refine repairs_bind (setStatus_advances _ _) fun i _ => ?_
  refine repairs_bind (advances_of_apart (s.proposeAll_new i)).attempt fun r hr => ?_
  split
  · exact s.afterProposing_repairs _ (hr _ rfl) hs
  · split
    · exact repairs_of_advances (leftOpen_advances _ _)
    · exact repairs_of_advances .throw

end RepairLoop.Session

/-!
## Repair — sessions and the stores that they keep

A session opens a store that is kept in a file, or an empty one, and puts it
in its place when it is closed. So if the open store and all that are kept
are sound, they stay so over whole sessions (`World.Upholds`).
-/

namespace RepairLoop

open Act (Keeps Obeys)
open World (Apart Advances Repairs)

namespace World

/-- The open store is sound, and so are all that are kept. -/
structure Sound (allow : Bool) (w : World) : Prop where
  store : w.store.Sound allow
  stores : ∀ e ∈ w.stores, e.2.Sound allow

/-- What is sound stays sound. -/
def Upholds (allow : Bool) (w w' : World) : Prop :=
  w.Sound allow → w'.Sound allow

instance (allow : Bool) : IsPreorder World (Upholds allow) where
  refl _ h := h
  trans _ _ _ h h' hs := h' (h hs)

theorem Advances.upholds {allow : Bool} {ids : List String} {w w' : World}
    (h : Advances allow ids w w') : Upholds allow w w' := fun hs =>
  ⟨h.sound hs.store, h.stores ▸ hs.stores⟩

end World

open World (Upholds)

namespace Session

variable {allow : Bool} {α : Type} {Q : α → Prop} {x : Act α}

theorem upholds_of_advances (h : Obeys (Advances allow []) Q x) : Obeys (Upholds allow) Q x :=
  h.weaken fun _ _ => Advances.upholds

theorem keeps_upholds (h : Keeps (Advances allow []) x) : Keeps (Upholds allow) x :=
  upholds_of_advances h

theorem upholds_of_apart (h : Keeps Apart x) : Keeps (Upholds allow) x :=
  keeps_upholds (keeps_of_apart h)

/-! ### Opening and closing -/

/-- The store of a session takes the place of the open one. -/
theorem setStore_upholds {f : World → World}
    (h : ∀ w, w.Sound allow → (f w).store.Sound allow ∧ (f w).stores = w.stores) :
    Keeps (Upholds allow) (modify f : Act Unit) :=
  Keeps.modify fun w hs => ⟨(h w hs).1, (h w hs).2 ▸ hs.stores⟩

theorem lookup_sound {w : World} (hs : w.Sound allow) (place : Location) :
    ((w.stores.lookup place).getD Store.empty).Sound allow := by
  cases h : w.stores.lookup place with
  | none => exact Store.sound_empty allow
  | some store =>
    obtain ⟨front, rest, hmem, -⟩ := List.lookup_eq_some_iff.1 h
    exact hs.stores (place, store) (hmem ▸ List.mem_append_right _ List.mem_cons_self)

/-- **The store that is opened is one that was kept, or empty.** -/
theorem openFile_upholds (path : Path) : Keeps (Upholds allow) (openFile path) := by
  have hcannot : ∀ reason : String, Keeps (Upholds allow) (cannotOpen path reason : Act Unit) :=
    fun _ => .throw
  unfold openFile
  refine (upholds_of_apart Act.files_apart).bind fun files => ?_
  refine Keeps.ofExcept.bind fun made => (upholds_of_apart (Act.setFiles_apart _)).bind fun _ => ?_
  refine Keeps.when (hcannot _) ?_
  simp only
  split
  · refine Keeps.bind (setStore_upholds fun w _ => ⟨?_, rfl⟩) fun _ => .pure trivial
    exact Store.sound_empty allow
  · split
    · refine Keeps.bind (setStore_upholds fun w hs => ⟨?_, rfl⟩) fun _ => .pure trivial
      exact lookup_sound hs _
    · exact (hcannot _).bind fun _ => .pure trivial

theorem openStore_upholds (settings : Settings) : Keeps (Upholds allow) (openStore settings) := by
  unfold openStore
  simp only
  split
  · refine Keeps.bind (setStore_upholds fun w _ => ⟨?_, rfl⟩) fun _ => .pure trivial
    exact Store.sound_empty allow
  · exact Keeps.get.bind fun w => (openFile_upholds _).map

theorem close_upholds (s : Session) : Keeps (Upholds allow) s.close := by
  unfold close
  split
  · exact .pure trivial
  · rename_i place _
    refine Keeps.modify fun w hs => ⟨hs.store, fun e he => ?_⟩
    rcases List.mem_cons.1 he with rfl | he
    · exact hs.store
    · exact hs.stores e (List.mem_of_mem_filter he)

theorem openRepository_apart (settings : Settings) : Keeps Apart (openRepository settings) := by
  refine Keeps.get.bind fun w => (Repository.at_apart _ _).attempt.bind fun r => ?_
  split
  · exact .pure trivial
  · split
    · split <;> exact .throw
    · exact .throw

theorem opened_upholds (settings : Settings) (proposer : Option Proposer) :
    Obeys (Upholds allow) (fun s => s.settings = settings) (opened settings proposer) := by
  have hforget : Keeps Apart (forget proposer) := Keeps.modify fun _ => .of_eq rfl rfl rfl rfl
  refine (upholds_of_apart hforget).bind fun _ => ?_
  refine (upholds_of_apart (openRepository_apart settings)).bind fun r => ?_
  refine (upholds_of_apart r.head_apart).bind fun head => ?_
  split
  · exact .throw
  · exact (openStore_upholds settings).bind fun _ => .pure rfl

/-- Work in a session that upholds the stores does so until it is closed. -/
theorem within_upholds (s : Session) (h : Obeys (Upholds allow) Q x) :
    Obeys (Upholds allow) Q (s.within x) :=
  Obeys.finally_ h s.close_upholds

/-! ### Runs -/

variable (s : Session)

theorem process_upholds (i : Issue) (hs : s.settings.validation.allowSecurityWarnings = allow) :
    Keeps (Upholds allow) (s.process i) :=
  (s.process_repairs i hs).weaken fun _ _ ⟨_, h⟩ => h.upholds

theorem processEach_upholds (is : List Issue)
    (hs : s.settings.validation.allowSecurityWarnings = allow) :
    Keeps (Upholds allow) (s.processEach is) := by
  induction is with
  | nil => exact .pure trivial
  | cons i is ih => exact (s.process_upholds i hs).bind fun _ => ih.bind fun _ => .pure trivial

/-- **A run upholds the stores.** -/
theorem run_upholds (root : Option Path) (limit : Option Int)
    (hs : s.settings.validation.allowSecurityWarnings = allow) :
    Keeps (Upholds allow) (s.run root limit) :=
  (keeps_upholds (s.detectAndRecord_advances root)).bind fun _ =>
    (s.processEach_upholds _ hs).bind fun _ =>
      (upholds_of_apart (Act.emit_apart _)).bind fun _ => .pure trivial

end Session

end RepairLoop

/-!
## Repair — the clock

The clock only ever moves on, by its tick. What has left the calendar therefore never
comes back to it (`World.Dated.expired`): where the store refuses a time, it refuses every
later one.
-/

namespace RepairLoop

open Act (Keeps Obeys)

/-! ### Time goes on -/

/-- The clock has gone on. -/
def World.Clocked (w w' : World) : Prop := w.supply.Elapses w'.supply

open World (Apart Clocked Quiet)

instance : IsPreorder World Clocked where
  refl w := .refl w.supply
  trans _ _ _ h h' := h.trans h'

theorem Act.git_clocked (c : GitCall) : Keeps Clocked (Act.git c) := by
  refine fun w => ⟨?_, fun _ _ => trivial⟩
  rw [Act.git_run]
  exact .refl w.supply

theorem Act.command_clocked (c : CommandCall) : Keeps Clocked (Act.command c) := by
  refine fun w => ⟨?_, fun _ _ => trivial⟩
  rw [Act.command_run]
  exact .refl w.supply

theorem Act.now_clocked : Keeps Clocked Act.now := Act.now_quiet.weaken fun _ _ hq => hq.clock

/-- A change of the store takes no time. -/
theorem Act.storing_clocked (f : Store → Except StoreFault Store) :
    Keeps Clocked (Act.storing f) :=
  Act.storing_keeps fun w _ _ => .refl w.supply

theorem Repository.bears_clocked (r : Repository) : r.Bears Clocked :=
  .of_quiet (fun _ _ hq => hq.clock) fun _ _ _ => Act.git_clocked _

theorem Gate.bears_clocked (g : Gate) : g.Bears (fun _ => True) Clocked Clocked :=
  g.bears_of_quiet (fun _ _ hq => hq.clock) Act.git_clocked Act.command_clocked

theorem Patch.actNow_elapses (p : Patch) (a : PatchAction) (s : Supply) :
    s.Elapses ((p.actNow a).run.run s).2 := by
  have hread (s : Supply) : s.Elapses s.afterReading := .readClock s
  rcases Supply.actNow_supply p a s with h | h | h <;> rw [h]
  · exact .refl s
  · exact hread s
  · exact (hread s).trans (hread _)

namespace Session

theorem move_quiet (p : Patch) (a : PatchAction) : Obeys Quiet (Patch.Moves p a) (move p a) := by
  intro w
  obtain ⟨happ, hact⟩ := move_act p a w
  rw [move, run_bind_of_ok (Act.supplied_run _ w), Act.ofExcept_run] at happ hact ⊢
  refine ⟨⟨happ, rfl, p.actNow_elapses a w.supply⟩, fun q hq => ?_⟩
  obtain ⟨_, _, hmoved⟩ := hact q hq
  exact Patch.moves_of_act hmoved

theorem move_clocked (p : Patch) (a : PatchAction) : Keeps Clocked (move p a) :=
  (move_quiet p a).keeps.weaken fun _ _ hq => hq.clock

theorem keepPatch_clocked (p : Patch) : Keeps Clocked (keepPatch p) :=
  Act.now_clocked.bind fun _ => Act.storing_clocked _

theorem moveEach_clocked (c : Patch → Bool) (a : PatchAction) (ps : List Patch) :
    Keeps Clocked (moveEach c a ps) := by
  induction ps with
  | nil => exact .pure trivial
  | cons p ps ih =>
    have hnext (q : Patch) : Keeps Clocked (do
        let qs ← moveEach c a ps
        pure (q :: qs)) := ih.bind fun _ => .pure trivial
    rw [moveEach]
    split
    · have hmoved := (move_clocked p a).bind fun q => (keepPatch_clocked q).bind fun _ => hnext q
      simpa only [bind_assoc, pure_bind] using hmoved
    · exact hnext p

end Session

/-! ### The end of the calendar -/

/-- **Between two times of the calendar there are only such**, whichever way the clock runs. -/
theorem Supply.Elapses.within {s s' s'' : Supply} (h : s.Elapses s') (h' : s'.Elapses s'')
    (hfirst : s.now.toUniversal?.isSome = true) (hlast : s''.now.toUniversal?.isSome = true) :
    s'.now.toUniversal?.isSome = true := by
  rcases Int.le_total 0 s.tick with htick | htick
  · exact h.between h' htick hfirst hlast
  · obtain ⟨m, hm⟩ := h.now
    obtain ⟨n, hn⟩ := h'.now
    have hearly : (m : Int) * s.tick ≤ 0 := Int.mul_nonpos_of_nonneg_of_nonpos (Int.natCast_nonneg m) htick
    have hlate : (n : Int) * s'.tick ≤ 0 :=
      Int.mul_nonpos_of_nonneg_of_nonpos (Int.natCast_nonneg n) (h.tick ▸ htick)
    rw [Moment.toUniversal?_isSome] at hfirst hlast ⊢
    rw [hn] at hlast
    rw [hm] at hlast ⊢
    simp only [Moment.instant, Moment.later] at hfirst hlast ⊢
    omega

namespace World

variable {w w' : World}

/-- The clock has shown a time of the calendar. -/
def Dated (w : World) : Prop :=
  ∃ s : Supply, s.now.toUniversal?.isSome = true ∧ s.Elapses w.supply

/-- The clock shows no time of the calendar, and it never will again. -/
def Expired (w : World) : Prop := ∀ s, w.supply.Elapses s → s.now.toUniversal? = none

theorem Dated.on (h : w.Dated) (hclock : Clocked w w') : w'.Dated := by
  obtain ⟨s, hs, hw⟩ := h
  exact ⟨s, hs, hw.trans hclock⟩

theorem Expired.on (h : w.Expired) (hclock : Clocked w w') : w'.Expired :=
  fun s hs => h s (hclock.trans hs)

/-- **A clock that has left the calendar does not come back to it.** -/
theorem Dated.expired (h : w.Dated) (hnow : w.supply.now.toUniversal? = none) : w.Expired := by
  obtain ⟨first, hfirst, hw⟩ := h
  intro s hs
  by_contra hback
  have hlast : s.now.toUniversal?.isSome = true := Option.isSome_iff_ne_none.2 hback
  have hthere := hw.within hs hfirst hlast
  rw [hnow] at hthere
  cases hthere

end World

end RepairLoop
