import RepairLoop.Proofs.Console.Perform
import RepairLoop.Proofs.Repair.Landing
import RepairLoop.Proofs.Repair.Naming
import RepairLoop.Proofs.Repair.Rollback
/-!
# Console — the rollback of a patch

A rollback is recorded as a whole or not at all, resets the branch only where
that is permitted, and is done once: in all worlds that may come of it later the
same patch is refused before anything is done (`rollBack_atomic`).
-/

/-!
## Console — what may have become of a world later

`World.Later` are the worlds that come of a world by repairs, runs, rollbacks
and the jobs that work in a session, in any order. On the way patches are put
only under names that are given out on the way, and under those of patches that
were pending (`Later.renews`). So the keys of the store are kept
(`Later.orderly`), and a patch that is rolled back stays so as long as it is in
the store (`Later.withdrawn`).
-/

namespace RepairLoop

open Act (Keeps Obeys Leads)
open World (Apart Ready Wrote Due Renews)
open Session (wrote_of_apart storing_wrote keepPatch_wrote keepPatches_wrote move_wrote
  recordResult_wrote renews_of_wrote renews_of_apart Anew)

variable {named : String → Prop}

/-! ### Candidates that are stored at once -/

namespace Proposer

variable (p : Proposer) (i : Issue) {o : Outside} {taken : String → Prop}

/-- Patches that are asked for in a row take names that are free. -/
theorem proposeFrom_leads (index : Int) (count : Nat) :
    Leads (Ready o taken) (p.proposeFrom i index count)
      (fun qs w => (∀ q ∈ qs, ¬ taken q.id) ∧ w.Ready o fun id => id ∈ qs.map Patch.id ∨ taken id)
      (Ready o taken) := by
  induction count generalizing index taken with
  | zero => exact .pure fun _ hw => ⟨by simp, hw.mono fun _ => by simp⟩
  | succ count ih =>
    have hrest (q : Patch) : Leads (Ready o fun id => id = q.id ∨ taken id)
        (p.proposeFrom i (index + 1) count) (fun qs w => (∀ r ∈ qs, ¬ (r.id = q.id ∨ taken r.id)) ∧
          w.Ready o fun id => id ∈ qs.map Patch.id ∨ id = q.id ∨ taken id) (Ready o taken) :=
      (ih (index + 1)).stops fun _ hw => hw.mono fun _ => Or.inr
    refine (p.propose_leads i index).bind fun q => .given fun hq => (hrest q).bind fun qs =>
      .pure fun _ ⟨hqs, hw⟩ => ⟨List.forall_mem_cons.2 ⟨hq.name, fun r hr h => hqs r hr (.inr h)⟩, ?_⟩
    refine hw.mono fun id hid => ?_
    rw [List.map_cons, List.mem_cons] at hid
    tauto

theorem candidates_anew (count : Option Int) : Anew (p.candidates i count) := by
  refine .of_ready (p.candidates_new i count).keeps fun w =>
    (p.proposeFrom_leads i 0 _).bind fun qs => .pure fun _ ⟨hqs, hw⟩ => ⟨?_, ?_⟩
  · exact fun q hq => hqs q (Patch.mem_ranked.1 hq)
  · exact hw.mono fun id => Or.imp_left (Patch.perm_ranked.map Patch.id).mem_iff.1

end Proposer

namespace Console

theorem orComplain_renews {α : Type} {work : Act α} {after : α → Act Ending}
    (hwork : Keeps Renews work) (hafter : ∀ a, Keeps Apart (after a)) :
    Keeps Renews (orComplain work after) := by
  refine hwork.attempt.bind fun r => ?_
  split
  · exact renews_of_apart (hafter _)
  · split
    · exact renews_of_apart (complain_apart _)
    · exact .throw

/-- **What is generated is stored under new names.** -/
theorem candidatesOf_renews (s : Session) (i : Issue) (count : Option Int)
    (explain review : Bool) : Keeps Renews (candidatesOf s i count explain review) := by
  refine (renews_of_apart s.asking_asks.keeps).bind fun p => ?_
  have hcandidates : Keeps Renews (do
      let patches ← p.candidates i count
      Session.keepPatches patches
      let reviews ← if review then reviewsOf p i patches else pure []
      pure (patches, reviews)) := by
    refine (p.candidates_anew i count).bind fun named ps hps => ?_
    exact (keepPatches_wrote hps).bind fun _ =>
      Keeps.either (wrote_of_apart (reviewsOf_apart p i ps)) (.pure trivial) fun _ => .pure trivial
  rcases Bool.eq_false_or_eq_true explain with rfl | rfl
  · exact (renews_of_apart (p.explain_apart i)).bind fun _ =>
      (renews_of_apart (sayAll_apart _)).bind fun _ => hcandidates
  · exact hcandidates

theorem generate_renews (s : Session) (issue : String) (count : Option Int) (explain review : Bool) :
    Keeps Renews (generate s issue count explain review) := by
  refine (renews_of_apart Act.store_apart).bind fun store => ?_
  split
  · exact renews_of_apart (complain_apart _)
  · exact orComplain_renews (candidatesOf_renews s _ count explain review) fun _ =>
      (sayAll_apart _).bind fun _ => .pure trivial

/-- **What is validated are the patches with the names**, which are read as pending. -/
theorem pendingPatches_read {store : Store} {ids : List String} {ps : List Patch}
    (h : pendingPatches store ids = .ok (.ok ps)) : ps.map Patch.id = ids ∧
      ∀ p ∈ ps, store.patch? p.id = .ok (some p) ∧ p.state = .pending := by
  induction ids generalizing ps with
  | nil =>
    obtain rfl := Except.ok.inj (Except.ok.inj h)
    exact ⟨rfl, fun _ hp => (List.not_mem_nil hp).elim⟩
  | cons id ids ih =>
    rw [pendingPatches] at h
    obtain ⟨found, hfound, h⟩ := ok_of_bind h
    cases found with
    | none => cases Except.ok.inj h
    | some p =>
      simp only at h
      split at h
      · cases Except.ok.inj h
      · rename_i hpending
        obtain ⟨more, hmore, h⟩ := ok_of_bind h
        cases more with
        | error m => cases Except.ok.inj h
        | ok qs =>
          obtain rfl := Except.ok.inj (Except.ok.inj h)
          obtain ⟨hnames, hrest⟩ := ih hmore
          obtain ⟨-, rfl⟩ := Store.patch?_eq_some hfound
          exact ⟨by rw [List.map_cons, hnames],
            List.forall_mem_cons.2 ⟨⟨hfound, by simpa using hpending⟩, hrest⟩⟩

theorem beginEach_wrote {ps : List Patch} (hps : ∀ p ∈ ps, named p.id) :
    Obeys (Wrote named) (fun qs => ∀ q ∈ qs, named q.id) (beginEach ps) := by
  induction ps with
  | nil => exact .pure fun _ hq => (List.not_mem_nil hq).elim
  | cons p ps ih =>
    obtain ⟨hp, hps⟩ := List.forall_mem_cons.1 hps
    refine (move_wrote p _).bind fun q hq => ?_
    have hname : named q.id := hq ▸ hp
    exact (keepPatch_wrote hname).bind fun _ => (ih hps).bind fun qs hqs =>
      .pure (List.forall_mem_cons.2 ⟨hname, hqs⟩)

theorem recordEach_wrote {allow : Bool} {rs : List (Patch × ValidationResult)}
    (hrs : ∀ e ∈ rs, named e.1.id) : Keeps (Wrote named) (recordEach allow rs) := by
  induction rs with
  | nil => exact .pure trivial
  | cons e rest ih =>
    obtain ⟨hname, hrest⟩ := List.forall_mem_cons.1 hrs
    exact (recordResult_wrote hname).bind fun _ _ => ih hrest

/-- **What is validated is stored again under its name.** -/
theorem validate_renews (s : Session) (ids : List String) : Keeps Renews (validate s ids) := by
  refine Obeys.stored_bind fun w pending hpending => ?_
  cases pending with
  | error m => exact renews_of_apart (complain_apart m) w
  | ok ps =>
    -- the patches are due from the start
    have hdue : ∀ p ∈ ps, Due w w p.id := fun p hp => by
      obtain ⟨hread, hwaits⟩ := (pendingPatches_read hpending).2 p hp
      exact .inr ⟨p, (Store.patch?_eq_some hread).1, rfl, hwaits⟩
    have hwork : Keeps (Wrote (Due w w)) (do
        let patches ← beginEach ps
        let results ← s.gate.validateMany patches
        recordEach s.settings.validation.allowSecurityWarnings (patches.zip results)
        say (ValidationResult.report results)
        pure Ending.good) := by
      refine Obeys.bind (beginEach_wrote hdue) fun patches hpatches => ?_
      refine (wrote_of_apart (s.gate.validateMany_earned _).keeps).bind fun results => ?_
      exact (recordEach_wrote fun e he => hpatches _ (List.of_mem_zip he).1).bind fun _ =>
        (wrote_of_apart (say_apart _)).bind fun _ => .pure trivial
    exact ⟨(refl_of Renews w).after (hwork w).1, fun _ _ => trivial⟩

/-- To drop what is old puts no patch. -/
theorem cleanUp_renews (s : Session) (days : Option Int) : Keeps Renews (cleanUp s days) := by
  refine (renews_of_apart Act.now_apart).bind fun now =>
    Obeys.stored_bind fun w found hfound => ?_
  obtain ⟨kept, removed⟩ := found
  obtain ⟨age, -, hclean⟩ := ok_of_bind hfound
  refine Obeys.modify_bind (.of_wrote (.of_write (.cleanUp hclean))) ?_
  exact renews_of_apart ((say_apart _).bind fun _ => .pure trivial)

end Console

/-! ### Later worlds -/

/-- The worlds that may come of a world. Between the calls anything may change but the
store, and no name is given back. -/
inductive World.Later (w : World) : World → Prop
  | now : Later w w
  | record {v : World} (s : Session) (root : Option Path) (h : Later w v) :
    Later w ((s.detectAndRecord root).run v).2
  | process {v : World} (s : Session) (i : Issue) (h : Later w v) :
    Later w ((s.process i).run v).2
  | run {v : World} (s : Session) (root : Option Path) (limit : Option Int) (h : Later w v) :
    Later w ((s.run root limit).run v).2
  | rollBack {v : World} (s : Session) (id : String) (h : Later w v) :
    Later w ((s.rollBack id).run v).2
  | generate {v : World} (s : Session) (issue : String) (count : Option Int)
    (explain review : Bool) (h : Later w v) :
    Later w ((Console.generate s issue count explain review).run v).2
  | validate {v : World} (s : Session) (ids : List String) (h : Later w v) :
    Later w ((Console.validate s ids).run v).2
  | cleanUp {v : World} (s : Session) (days : Option Int) (h : Later w v) :
    Later w ((Console.cleanUp s days).run v).2
  | drift {v v' : World} (hstore : v'.store = v.store) (hgiven : v.supply.given ≤ v'.supply.given)
    (h : Later w v) : Later w v'

namespace World

variable {w w' : World} {id : String}

/-- **Later worlds come of writes where that is due.** -/
theorem Later.renews (h : Later w w') : Renews w w' := by
  have hstep {α : Type} {x : Act α} (hx : Keeps Renews x) {v : World} (hv : Renews w v) :
      Renews w (x.run v).2 := trans_of Renews hv (hx v).1
  induction h with
  | now => exact refl_of Renews w
  | record s root _ ih => exact hstep (renews_of_wrote (s.detectAndRecord_wrote root)) ih
  | process s i _ ih => exact hstep (s.process_renews i) ih
  | run s root limit _ ih => exact hstep (s.run_renews root limit) ih
  | rollBack s id _ ih => exact hstep (renews_of_wrote (Session.rollBack_wrote s id)) ih
  | generate s issue count explain review _ ih =>
    exact hstep (Console.generate_renews s issue count explain review) ih
  | validate s ids _ ih => exact hstep (Console.validate_renews s ids) ih
  | cleanUp s days _ ih => exact hstep (Console.cleanUp_renews s days) ih
  | drift hstore hgiven _ ih => exact trans_of Renews ih (.of_wrote ⟨hgiven, hstore ▸ .refl⟩)

/-- **The keys of the store are kept, and the names that will be given out stay
free**, so both hold of all that comes of an empty store. -/
theorem Later.orderly (h : Later w w') (hkeyed : w.store.Keyed) (hfresh : w.Fresh) :
    w'.store.Keyed ∧ w'.Fresh := ⟨h.renews.writes.keyed hkeyed, h.renews.fresh hfresh⟩

theorem Later.of_empty (h : Later w w') (hempty : w.store = Store.empty) :
    w'.store.Keyed ∧ w'.Fresh := by
  refine h.orderly (hempty ▸ Store.keyed_empty) fun n _ q hq => ?_
  rw [hempty] at hq
  exact (List.not_mem_nil hq).elim

/-- **A patch that is rolled back stays so.** -/
theorem Later.withdrawn (h : Later w w') (hfresh : w.Fresh)
    (hstored : ∃ q ∈ w.store.patches, q.id = id) (hw : w.store.Withdrawn id) :
    w'.store.Withdrawn id := by
  refine h.renews.writes.withdrawn ?_ hw
  rintro (⟨n, hn, -, hname⟩ | ⟨p, hp, hid, hpending⟩)
  · -- the name has been given out before
    obtain ⟨q, hq, hid⟩ := hstored
    exact hfresh n hn q hq (hid.trans hname)
  · rw [Patch.state, (hw p hp hid).1] at hpending
    cases hpending

end World

end RepairLoop

namespace RepairLoop

open World (Ran Renews)

namespace Session

variable (s : Session) (id : String) {w : World}

/-- **The rollback of a patch.** Where it raises, the store is as before. A hard
reset is made only to the backup of the patch, only after what undoes the patch
was refused, and only once git has listed at most one commit above the backup.
Where the rollback returns, the patch is stored as rolled back and its issue is
open; from then on, as long as the patch is stored, every rollback of it is
refused as no transition and leaves the world as it is.

The keys of the store are those of its tables, and the clock does not run
backwards or out of the calendar. -/
theorem rollBack_atomic (hkeyed : w.store.Keyed) (hfresh : w.Fresh) (htick : 0 ≤ w.supply.tick)
    (hfirst : w.supply.now.toUniversal?.isSome = true)
    (hlast : ((s.rollBack id).run w).2.supply.now.toUniversal?.isSome = true) :
    (∀ f w', (s.rollBack id).run w = (.error f, w') → w'.store = w.store) ∧
    (∀ early g late, Ran (early ++ g :: late) w ((s.rollBack id).run w).2 → g.Resets →
      ∃ p backup, w.store.patch? id = .ok (some p) ∧ g.arguments = ["reset", "--hard", backup] ∧
        Permitted s.repository p w backup early) ∧
    (∀ q w', (s.rollBack id).run w = (.ok q, w') →
      (∃ p, w'.store.patch? id = .ok (some p) ∧ p.rolledBack = true ∧
        (w'.store.issue? p.issueId).map Issue.status = some .open_) ∧
      ∀ v, w'.Later v → (∃ p ∈ v.store.patches, p.id = id) → ∀ t : Session,
        (t.rollBack id).run v = (.error (.refuse .transition
          s!"Patch {id} is not applied and cannot be rolled back" [("patch_id", .text id)]), v)) := by
  have hleads := rollBack_recorded s id hkeyed htick hfirst
  refine ⟨fun f w' hrun => ?_, fun early g late hran hg => ?_, fun q w' hrun => ?_⟩
  · rw [hrun] at hlast
    exact hleads.of_stop rfl hrun hlast
  · rcases Act.Leads.ends_iff.1 (rollBack_guarded s id) w rfl with hnone | ⟨p, hp, hguarded⟩
    · rw [hnone] at hran
      have hempty := hran.unique (.refl w)
      simp at hempty
    · obtain ⟨backup, hargs, hpermitted⟩ := hguarded.permitted hran hg
      exact ⟨p, backup, hp, hargs, hpermitted⟩
  · obtain ⟨hwithdrawn, p, hread, hrolled, hopen⟩ := Rolled.spec hkeyed (hleads.of_run rfl hrun)
    refine ⟨⟨p, hread, hrolled, hopen⟩, fun v hlater hstored t => ?_⟩
    have hrenews : Renews w w' := ((renews_of_wrote (rollBack_wrote s id)).of_run hrun).1
    obtain ⟨hp, hid⟩ := Store.patch?_eq_some hread
    exact rollBack_refused t (hlater.withdrawn (hrenews.fresh hfresh) ⟨p, hp, hid⟩ hwithdrawn) hstored

end Session

/-! ## A rollback that resets -/

namespace Small

/-- A git that does all but apply a diff. -/
def stubborn (calls : List GitCall) : GitReply :=
  match (calls.getLast?.map GitCall.arguments).getD [] with
  | "apply" :: _ => { git.saying "" with code := 1, err := "error: patch failed".toUTF8 }
  | _ => git calls

/-- The patch, once it is applied. -/
def applied : Patch := { patch with
  validationStatus := .valid, applied := true, rollbackPatch := some patch.diff
  backupBranch := some "backup/main" }

/-- The world with that git, in which the patch is applied. -/
def appliedWorld : World := { world "a\nc\n".toUTF8 with
  store := ⟨[issue], [applied], []⟩
  outside := { (world "a\nc\n".toUTF8).outside with git := stubborn } }

theorem appliedWorld_keyed : appliedWorld.store.Keyed := by
  refine ⟨List.nodup_singleton _, fun p hp => ?_⟩
  obtain rfl := List.mem_singleton.1 hp
  exact ⟨issue, List.mem_cons_self, rfl⟩

/-- The name of the patch is shorter than any that is given out. -/
theorem appliedWorld_fresh : appliedWorld.Fresh := by
  intro n _ p hp hid
  obtain rfl := List.mem_singleton.1 hp
  have hname : "patch-1" = Supply.nameOf n := hid
  have hlong : 12 ≤ (Supply.nameOf n).toList.length := by
    simp only [Supply.nameOf, String.toList_ofList, List.length_append, List.length_replicate]
    omega
  rw [← hname] at hlong
  exact absurd hlong (by decide)

/-- The rollback of the patch. -/
def rollback : Except Fault Patch × World := ((session "fix").rollBack "patch-1").run appliedWorld

/-- The runs of git on the way. -/
def rollbackRuns : List GitRun := appliedWorld.outside.runs [] rollback.2.gitCalls

theorem rollback_resets : (rollback.1.toOption.isSome &&
    rollbackRuns.any fun g => g.arguments.take 2 == ["reset", "--hard"]) = true := by
  decide +kernel

theorem rollback_ran : Ran rollbackRuns appliedWorld rollback.2 := by
  obtain ⟨l, hran⟩ := Session.rollBack_ran (session "fix") "patch-1" appliedWorld
  have hcalls : rollback.2.gitCalls = l.map GitRun.call := hran.calls
  rw [rollbackRuns, hcalls]
  exact .of_calls hran.outside hran.calls

end Small

namespace Session

/-- That rollback returns, and the hard reset on its way was permitted. -/
theorem rollBack_atomic_stubborn : (∃ p w', ((Small.session "fix").rollBack "patch-1").run
      Small.appliedWorld = (.ok p, w') ∧
    ∃ q, w'.store.patch? "patch-1" = .ok (some q) ∧ q.rolledBack = true ∧
      (w'.store.issue? q.issueId).map Issue.status = some .open_) ∧
    ∃ p backup early g late, Ran (early ++ g :: late) Small.appliedWorld Small.rollback.2 ∧
      g.arguments = ["reset", "--hard", backup] ∧
      Permitted Small.repository p Small.appliedWorld backup early := by
  obtain ⟨-, hguarded, hreturned⟩ := rollBack_atomic (Small.session "fix") "patch-1"
    Small.appliedWorld_keyed Small.appliedWorld_fresh (by decide) (by decide) (by decide +kernel)
  obtain ⟨hok, hreset⟩ := Bool.and_eq_true_iff.1 Small.rollback_resets
  constructor
  · cases hrun : Small.rollback.1 with
    | error f =>
      rw [hrun] at hok
      cases hok
    | ok p =>
      have hrun : ((Small.session "fix").rollBack "patch-1").run Small.appliedWorld =
        (.ok p, Small.rollback.2) := Prod.ext hrun rfl
      exact ⟨p, _, hrun, (hreturned p _ hrun).1⟩
  · obtain ⟨g, hg, hwords⟩ := List.any_eq_true.1 hreset
    have hresets : g.Resets := by
      refine ⟨g.arguments.drop 2, ?_⟩
      have hsplit := List.take_append_drop 2 g.arguments
      rw [beq_iff_eq.1 hwords] at hsplit
      exact hsplit.symm
    obtain ⟨early, late, hruns⟩ := List.append_of_mem hg
    have hran : Ran (early ++ g :: late) Small.appliedWorld Small.rollback.2 :=
      hruns ▸ Small.rollback_ran
    obtain ⟨p, backup, -, hargs, hpermitted⟩ := hguarded early g late hran hresets
    exact ⟨p, backup, early, g, late, hran, hargs, hpermitted⟩

end Session

end RepairLoop
