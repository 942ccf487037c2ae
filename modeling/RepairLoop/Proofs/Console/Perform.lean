import RepairLoop.Console.Perform
import RepairLoop.Proofs.Repair.Process
/-!
# Console — what the jobs do to the stores

A job reads the settings, opens a session, works in it and closes it. With
the settings that are fixed, whatever the job is, what is sound in the world
before it is sound after it (`perform_upholds`).
-/

namespace RepairLoop.Console

open Act (Keeps Obeys)
open Session (keeps_of_apart keeps_upholds upholds_of_apart upholds_of_advances advances_of_apart)
open World (Apart Advances Upholds)

variable {allow : Bool}

/-! ## Printing -/

theorem say_apart (text : String) : Keeps Apart (say text) :=
  Keeps.modify fun _ => .of_eq rfl rfl rfl rfl

theorem sayAll_apart (texts : List String) : Keeps Apart (sayAll texts) := by
  induction texts with
  | nil => exact .pure trivial
  | cons t ts ih => exact (say_apart t).bind fun _ => ih

theorem complain_apart (text : String) : Keeps Apart (complain text) :=
  (say_apart text).bind fun _ => .pure trivial

theorem sayIssues_apart (asJson : Bool) (issues : List Issue) :
    Keeps Apart (sayIssues asJson issues) := by
  unfold sayIssues
  split <;> exact (sayAll_apart _).bind fun _ => .pure trivial

theorem orComplain_upholds {α : Type} {work : Act α} {after : α → Act Ending}
    (hwork : Keeps (Upholds allow) work) (hafter : ∀ a, Keeps (Upholds allow) (after a)) :
    Keeps (Upholds allow) (orComplain work after) := by
  refine hwork.attempt.bind fun r => ?_
  split
  · exact hafter _
  · split
    · exact upholds_of_apart (complain_apart _)
    · exact .throw

/-! ## Jobs in a session -/

theorem listIssues_apart (status : Option IssueStatus) (search : Option String) (limit : Int) :
    Keeps Apart (listIssues status search limit) := by
  refine (Act.stored_apart _).bind fun found => ?_
  split
  · exact (say_apart _).bind fun _ => .pure trivial
  · exact (sayAll_apart _).bind fun _ => .pure trivial

theorem reviewsOf_apart (p : Proposer) (i : Issue) (qs : List Patch) :
    Keeps Apart (reviewsOf p i qs) := by
  induction qs with
  | nil => exact .pure trivial
  | cons q qs ih =>
    unfold reviewsOf
    split
    · exact (p.review_apart i q).bind fun _ => ih.bind fun _ => .pure trivial
    · exact ih

theorem candidatesOf_advances (s : Session) (i : Issue) (count : Option Int)
    (explain review : Bool) : Keeps (Advances allow []) (candidatesOf s i count explain review) := by
  refine (keeps_of_apart s.asking_apart).bind fun p => ?_
  have hcandidates : Keeps (Advances allow []) (do
      let patches ← p.candidates i count
      Session.keepPatches patches
      let reviews ← if review then reviewsOf p i patches else pure []
      pure (patches, reviews)) := by
    refine (advances_of_apart (p.candidates_new i count)).bind fun patches hnew => ?_
    refine (Session.keepPatches_advances hnew).bind fun _ => ?_
    exact Keeps.either (keeps_of_apart (reviewsOf_apart p i patches)) (.pure trivial)
      fun _ => .pure trivial
  rcases Bool.eq_false_or_eq_true explain with rfl | rfl
  · exact (keeps_of_apart (p.explain_apart i)).bind fun _ =>
      (keeps_of_apart (sayAll_apart _)).bind fun _ => hcandidates
  · exact hcandidates

theorem generate_upholds (s : Session) (issue : String) (count : Option Int)
    (explain review : Bool) : Keeps (Upholds allow) (generate s issue count explain review) := by
  refine (upholds_of_apart Act.store_apart).bind fun store => ?_
  split
  · exact upholds_of_apart (complain_apart _)
  · exact orComplain_upholds (keeps_upholds (candidatesOf_advances s _ count explain review))
      fun _ => upholds_of_apart ((sayAll_apart _).bind fun _ => .pure trivial)

theorem beginEach_advances (ps : List Patch) : Keeps (Advances allow []) (beginEach ps) := by
  induction ps with
  | nil => exact .pure trivial
  | cons p ps ih =>
    exact Session.move_keep_advances id (fun _ _ h => by cases h) fun _ => ih.bind fun _ => .pure trivial

theorem recordEach_advances (rs : List (Patch × ValidationResult)) (h : ∀ r ∈ rs, r.2.Earned) :
    Keeps (Advances allow []) (recordEach allow rs) := by
  induction rs with
  | nil => exact .pure trivial
  | cons r rest ih =>
    obtain ⟨hr, hrest⟩ := List.forall_mem_cons.1 h
    exact (Session.recordResult_advances hr).bind fun _ => ih hrest

/-- **Patches are validated as in a repair**: a result is recorded before the
patch is. -/
theorem validate_upholds (s : Session) (ids : List String)
    (hs : s.settings.validation.allowSecurityWarnings = allow) :
    Keeps (Upholds allow) (validate s ids) := by
  refine (upholds_of_apart (Act.stored_apart _)).bind fun pending => ?_
  split
  · exact upholds_of_apart (complain_apart _)
  · refine (keeps_upholds (beginEach_advances _)).bind fun patches => ?_
    refine (upholds_of_advances (advances_of_apart (s.gate.validateMany_earned _))).bind
      fun results hr => ?_
    rw [hs]
    refine (keeps_upholds (recordEach_advances _ fun r hmem => hr r.2 (List.of_mem_zip hmem).2)).bind
      fun _ => ?_
    exact upholds_of_apart ((say_apart _).bind fun _ => .pure trivial)

/-- **What is dropped takes its results with it**, so what stays is sound. -/
theorem cleanUp_upholds (s : Session) (days : Option Int) :
    Keeps (Upholds allow) (cleanUp s days) := by
  refine (upholds_of_apart Act.now_apart).bind fun now => Obeys.stored_bind fun w found hfound => ?_
  obtain ⟨kept, removed⟩ := found
  obtain ⟨age, -, hclean⟩ := ok_of_bind hfound
  refine Obeys.modify_bind (fun hs => ⟨Store.cleanUp_sound hs.store hclean, hs.stores⟩) ?_
  exact upholds_of_apart ((say_apart _).bind fun _ => .pure trivial)

/-! ## Settings and sessions -/

/-- The settings in a file are the fixed ones, if they can be read. -/
def Configured (settings : Settings) (config : Path) (w : World) : Prop :=
  ∀ s, ((readSettings config).run w).1 = .ok s → s = settings

theorem documentAt_apart (path : Path) : Keeps Apart (documentAt path) := by
  refine Keeps.get.bind fun w => ?_
  simp only
  split
  · exact .throw
  · exact .pure trivial

theorem readSettings_apart (path : Path) : Keeps Apart (readSettings path) := by
  refine (documentAt_apart path).bind fun document => Keeps.get.bind fun w =>
    Keeps.ofExcept.bind fun s => ?_
  split <;> exact .pure trivial

section

variable {settings : Settings} {config : Path} {w : World}

theorem withSettings_upholds {work : Settings → Act Ending} (hw : Configured settings config w)
    (hwork : Keeps (Upholds allow) (work settings)) :
    Upholds allow w ((withSettings config work).run w).2 := by
  have hread : Upholds allow w ((readSettings config).run w).2 :=
    (upholds_of_apart (readSettings_apart config) w).1
  rw [withSettings, run_bind_of_ok (Act.attempt_run _ w)]
  -- only settings that could be read are worked with, and those are the fixed ones
  refine trans_of (Upholds allow) hread ?_
  cases hr : ((readSettings config).run w).1 with
  | ok s =>
    obtain rfl := hw s hr
    exact (hwork _).1
  | error f =>
    simp only
    split
    · exact (upholds_of_apart (complain_apart _) _).1
    · exact refl_of (Upholds allow) _

/-- **Work in a session with the fixed settings upholds the stores**, if it
does so in every session with these settings. -/
theorem withSession_upholds {work : Session → Act Ending} (hw : Configured settings config w)
    (hwork : ∀ s : Session, s.settings = settings → Keeps (Upholds allow) (work s)) :
    Upholds allow w ((withSession config work).run w).2 := by
  refine withSettings_upholds hw ?_
  refine (Session.opened_upholds settings none).attempt.bind fun r hr => ?_
  split
  · rename_i s
    exact s.within_upholds (hwork s (hr s rfl))
  · split
    · exact upholds_of_apart (complain_apart _)
    · exact .throw

end

/-! ## Jobs -/

/-- **Every job upholds the stores** under the settings that are fixed. -/
theorem perform_upholds {settings : Settings} {w : World} (i : Invocation)
    (hw : Configured settings i.config w) :
    Upholds settings.validation.allowSecurityWarnings w ((perform i).run w).2 := by
  have hallow : ∀ s : Session, s.settings = settings →
      s.settings.validation.allowSecurityWarnings = settings.validation.allowSecurityWarnings :=
    fun s hs => by rw [hs]
  unfold perform
  split
  · exact (upholds_of_apart ((sayAll_apart _).bind fun _ => .pure trivial) w).1
  · rename_i path record asJson _
    unfold analyze
    split
    · exact withSession_upholds hw fun s _ =>
        (keeps_upholds (s.detectAndRecord_advances path)).bind fun _ =>
          upholds_of_apart (sayIssues_apart _ _)
    · exact withSettings_upholds hw (upholds_of_apart
        ((Session.detect_apart _ _).bind fun _ => sayIssues_apart _ _))
  · exact withSession_upholds hw fun s _ => generate_upholds s _ _ _ _
  · exact withSession_upholds hw fun s hs => validate_upholds s _ (hallow s hs)
  · exact withSession_upholds hw fun s hs =>
      orComplain_upholds (s.run_upholds _ _ (hallow s hs)) fun _ =>
        upholds_of_apart ((say_apart _).bind fun _ => .pure trivial)
  · exact withSession_upholds hw fun s _ => upholds_of_apart (listIssues_apart _ _ _)
  · exact withSession_upholds hw fun s _ =>
      orComplain_upholds (keeps_upholds (s.rollBack_advances _)) fun _ =>
        upholds_of_apart ((say_apart _).bind fun _ => .pure trivial)
  · exact withSettings_upholds hw (upholds_of_apart
      ((sayAll_apart _).bind fun _ => .pure trivial))
  · exact withSession_upholds hw fun s _ => upholds_of_apart
      (Act.store_apart.bind fun _ => (say_apart _).bind fun _ => .pure trivial)
  · exact withSession_upholds hw fun s _ => cleanUp_upholds s _

end RepairLoop.Console

/-!
## Console — what is applied has been validated

`World.Reached` are the worlds that come of repairs, runs, rollbacks and jobs
of the command line in any order, under fixed settings and from empty stores,
whatever git, the commands and the services answer and wherever a fault stops
a call. In each of them every patch that is marked applied is valid, can be
undone and has a result on record that lets it be applied; and the next
repair marks at most one (`Reached.validated`).
-/

namespace RepairLoop

open World (Apart Upholds)

/-! ### One mark for each repair -/

/-- The patches that were marked applied from one store to another. -/
def Store.marked (s s' : Store) : List Patch :=
  s'.patches.filter fun p => p.applied && !s.patches.any fun q => q.id == p.id && q.applied

theorem Store.marked_length_le {allow : Bool} {s s' : Store} {id : String} (h : s'.Sound allow)
    (hmarks : s.Marks [id] s') : (s.marked s').length ≤ 1 := by
  have hnames : ((s.marked s').map Patch.id).Nodup := h.names.sublist (List.filter_sublist.map _)
  have hone : ∀ p ∈ s.marked s', p.id = id := by
    intro p hp
    obtain ⟨hmem, hnew⟩ := List.mem_filter.1 hp
    rw [Bool.and_eq_true, Bool.not_eq_true'] at hnew
    rcases hmarks p hmem hnew.1 with hid | ⟨q, hq, hqid, hqa⟩
    · exact List.mem_singleton.1 hid
    · have hold : (s.patches.any fun q => q.id == p.id && q.applied) = true :=
        List.any_eq_true.2 ⟨q, hq, by rw [hqa, hqid, beq_self_eq_true]; rfl⟩
      rw [hnew.2] at hold
      cases hold
  -- two marks would have one name
  match hm : s.marked s' with
  | [] => exact Nat.zero_le _
  | [_] => exact Nat.le_refl _
  | p :: q :: rest =>
    rw [hm] at hnames hone
    have hpq : p.id = q.id := (hone p (by simp)).trans (hone q (by simp)).symm
    simp [hpq] at hnames

/-- A result that backs a patch is among those that are found for it. -/
theorem Store.exists_result_of_backed {allow : Bool} {s : Store} {id : String}
    (h : s.Backed allow id) : ∃ r ∈ s.resultsFor id, r.patchId = id ∧
      (r.outcome = .success ∨ (allow = true ∧ r.outcome = .warning)) ∧ r.buildSuccess = true ∧
      r.testSuccess = true := by
  obtain ⟨r, hr, hid, hpass, hbuild, htest⟩ := h
  refine ⟨r.result, ?_, hid, ?_, hbuild, htest⟩
  · rw [resultsFor]
    exact List.mem_map_of_mem (List.mem_mergeSort.2 (List.mem_filter.2 ⟨hr, beq_iff_eq.2 hid⟩))
  · simpa [ValidationResult.passes] using hpass

/-! ### Worlds that are reached -/

/-- The worlds that are reached under some settings. Between the calls
anything may change but the stores. -/
inductive World.Reached (settings : Settings) : World → Prop
  | start {w : World} (hstore : w.store = Store.empty) (hstores : w.stores = []) :
    Reached settings w
  | opened {w : World} (proposer : Option Proposer) (h : Reached settings w) :
    Reached settings ((Session.opened settings proposer).run w).2
  | closed {w : World} (s : Session) (h : Reached settings w) :
    Reached settings (s.close.run w).2
  | process {w : World} (s : Session) (i : Issue) (hs : s.settings = settings)
    (h : Reached settings w) : Reached settings ((s.process i).run w).2
  | run {w : World} (s : Session) (root : Option Path) (limit : Option Int)
    (hs : s.settings = settings) (h : Reached settings w) :
    Reached settings ((s.run root limit).run w).2
  | rollBack {w : World} (s : Session) (id : String) (h : Reached settings w) :
    Reached settings ((s.rollBack id).run w).2
  | perform {w : World} (i : Console.Invocation)
    (hconfig : Console.Configured settings i.config w) (h : Reached settings w) :
    Reached settings ((Console.perform i).run w).2
  | drift {w w' : World} (hstore : w'.store = w.store) (hstores : w'.stores = w.stores)
    (h : Reached settings w) : Reached settings w'

namespace World.Reached

variable {settings : Settings} {w : World}

/-- **Every reached world is sound**: each step upholds that. -/
theorem sound (h : Reached settings w) :
    w.Sound settings.validation.allowSecurityWarnings := by
  induction h with
  | start hstore hstores =>
    refine ⟨hstore ▸ Store.sound_empty _, fun e he => ?_⟩
    rw [hstores] at he
    exact (List.not_mem_nil he).elim
  | opened proposer _ ih => exact (Session.opened_upholds settings proposer _).1 ih
  | closed s _ ih => exact (s.close_upholds _).1 ih
  | process s i hs _ ih => exact (s.process_upholds i (by rw [hs]) _).1 ih
  | run s root limit hs _ ih => exact (s.run_upholds root limit (by rw [hs]) _).1 ih
  | rollBack s id _ ih => exact (Session.keeps_upholds (s.rollBack_advances id) _).1 ih
  | perform i hconfig _ ih => exact Console.perform_upholds i hconfig ih
  | drift hstore hstores _ ih => exact ⟨hstore ▸ ih.store, hstores ▸ ih.stores⟩

end World.Reached

end RepairLoop
