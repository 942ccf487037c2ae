import RepairLoop.Proofs.Repair.Process
import RepairLoop.Proofs.Repository.Runs
import RepairLoop.Proofs.Store.Writes
/-!
# Repair — what a rollback may do

A rollback commits what undoes a patch. Only where that is refused it goes back
to the backup of the patch, by a hard reset, and only once git has listed at
most one commit above the backup (`undo_guarded`). What is recorded then is
stopped only where the calendar ends, so a rollback that raises is one whose
patch could not be undone (`rollBack_refuses`).
-/

namespace RepairLoop

open Act (Keeps Obeys Leads)
open World (Ran Adds InVain Answered)

/-- The run is a hard reset. -/
def GitRun.Resets (g : GitRun) : Prop := ∃ rest, g.arguments = "reset" :: "--hard" :: rest

/-- The lines that the run has printed. -/
def GitRun.lines (g : GitRun) : List String :=
  Text.splitLines (Text.strip (GitOutput.ofReply g.reply).out)

/-- There was no hard reset between the two worlds. -/
abbrev World.Unreset : World → World → Prop := Adds fun g => ¬ g.Resets

open World (Unreset)

theorem GitRun.not_resets {g : GitRun} (h : g.arguments.head? ≠ some "reset") : ¬ g.Resets := by
  rintro ⟨rest, hg⟩
  exact h (by rw [hg]; rfl)

/-- **Routine work never resets.** -/
theorem Repository.bears_unreset (r : Repository) : r.Bears Unreset := by
  refine bears_adds fun g hg => ?_
  generalize hargs : g.arguments = arguments at hg
  rintro ⟨rest, hreset⟩
  rw [hargs] at hreset
  cases hg with
  | ask hask =>
    obtain ⟨word, hword, hhead⟩ := hask
    rw [hreset] at hhead
    obtain rfl := Option.some.inj hhead
    exact absurd hword (by decide)
  | change hword =>
    obtain ⟨rfl, -⟩ := List.cons.inj hreset
    exact absurd hword (by decide)
  | unstage paths => simp at hreset
  | backup hbackup => simp at hreset

namespace Session

/-- What stands before a hard reset: what undoes the patch was refused, and then git has
listed at most one commit above the backup of the patch. -/
structure Permitted (r : Repository) (p : Patch) (w : World) (backup : String)
    (l : List GitRun) : Prop where
  recorded : p.backupBranch = some backup
  refused : ∃ f v early late, (commitRollback r p).run w = (.error f, v) ∧ f.isRefusal = true ∧
    l = early ++ late ∧ Ran early w v ∧ ∃ g ∈ late, g.Succeeded ∧
      g.arguments = ["log", "--oneline", backup ++ "..HEAD"] ∧ g.lines.length ≤ 1

/-- A hard reset to a backup is permitted, and there was none before. -/
def Permits (r : Repository) (p : Patch) (w : World) (backup : String) (v : World) : Prop :=
  ∃ l, Permitted r p w backup l ∧ Ran l w v ∧ ∀ g ∈ l, ¬ g.Resets

/-- There was no hard reset, or those in the end were permitted. -/
def Guarded (r : Repository) (p : Patch) (w w' : World) : Prop :=
  Unreset w w' ∨ ∃ backup v, Permits r p w backup v ∧
    Adds (fun g => g.arguments = ["reset", "--hard", backup]) v w'

variable {r : Repository} {p : Patch} {w w' v u : World} {backup : String}

/-- What is permitted stays so. -/
theorem Permitted.append {l : List GitRun} (h : Permitted r p w backup l) (more : List GitRun) :
    Permitted r p w backup (l ++ more) := by
  obtain ⟨hrecorded, f, x, early, late, hcommit, hrefusal, rfl, hearly, g, hg, hlog⟩ := h
  exact ⟨hrecorded, f, x, early, late ++ more, hcommit, hrefusal, List.append_assoc _ _ _, hearly, g,
    List.mem_append_left _ hg, hlog⟩

theorem Permits.on (h : Permits r p w backup v) (hv : Unreset v u) : Permits r p w backup u := by
  obtain ⟨l, hpermitted, hran, hl⟩ := h
  obtain ⟨more, hmore, hnone⟩ := hv
  exact ⟨l ++ more, hpermitted.append more, hran.trans hmore, List.forall_mem_append.2 ⟨hl, hnone⟩⟩

/-- What comes without git changes nothing about that. -/
theorem Guarded.on (h : Guarded r p w v) (hv : Adds (fun _ => False) v u) : Guarded r p w u := by
  rcases h with hunreset | ⟨backup, x, hpermits, hadds⟩
  · exact .inl (trans_of Unreset hunreset (hv.mono fun _ h => h.elim))
  · exact .inr ⟨backup, x, hpermits, trans_of (Adds _) hadds (hv.mono fun _ h => h.elim)⟩

/-- **What stands before a hard reset permits it.** -/
theorem Guarded.permitted {early late : List GitRun} {g : GitRun} (h : Guarded r p w v)
    (hran : Ran (early ++ g :: late) w v) (hg : g.Resets) :
    ∃ backup, g.arguments = ["reset", "--hard", backup] ∧ Permitted r p w backup early := by
  rcases h with hunreset | ⟨backup, x, ⟨l, hpermitted, hl, hnone⟩, l', hl', hargs⟩
  · exact (hunreset.of_ran hran g (by simp) hg).elim
  · -- the reset is among the last runs, so those before it begin with what permits it
    have hsame : l ++ l' = early ++ g :: late := (hl.trans hl').unique hran
    refine ⟨backup, ?_⟩
    rcases List.append_eq_append_iff.1 hsame with ⟨more, rfl, hlast⟩ | ⟨more, rfl, hlast⟩
    · exact ⟨hargs g (by simp [hlast]), hpermitted.append more⟩
    · cases more with
      | nil =>
        rw [List.nil_append] at hlast
        rw [List.append_nil] at hpermitted
        exact ⟨hargs g (by simp [← hlast]), hpermitted⟩
      | cons first more =>
        obtain rfl : g = first := (List.cons.inj hlast).1
        exact (hnone g (by simp) hg).elim

theorem commitRollback_keeps {R : World → World → Prop} [IsPreorder World R] (h : r.Bears R) :
    Keeps R (commitRollback r p) :=
  (h.applyDiff _ _ _).bind fun _ => (h.commit _ _ _).bind fun _ => .pure trivial

/-- **A list of at most one commit permits the reset.** -/
theorem permits_of_log {f : Fault} {g : GitRun} (hbackup : p.backupBranch = some backup)
    (hcommit : (commitRollback r p).run w = (.error f, v)) (hrefusal : f.isRefusal = true)
    (hanswered : Answered ["log", "--oneline", backup ++ "..HEAD"] g v u) (hg : g.Succeeded)
    (hfew : g.lines.length ≤ 1) : Permits r p w backup u := by
  obtain ⟨early, hearly, hnone⟩ := (commitRollback_keeps r.bears_unreset).of_stop hcommit
  obtain ⟨x, ⟨tries, htries, hvain⟩, hlast⟩ := hanswered.tried
  have hrun : Ran (tries ++ [g]) v u := htries.trans hlast
  have hlog : ∀ g' ∈ tries ++ [g], ¬ g'.Resets := by
    have hword : ∀ g' ∈ tries ++ [g], g'.arguments = ["log", "--oneline", backup ++ "..HEAD"] :=
      List.forall_mem_append.2 ⟨fun g' hg' => (hvain g' hg').1,
        List.forall_mem_singleton.2 hanswered.asked⟩
    exact fun g' hg' => GitRun.not_resets (by rw [hword g' hg']; simp)
  refine ⟨early ++ (tries ++ [g]), ⟨hbackup, f, v, early, tries ++ [g], hcommit, hrefusal, rfl,
    hearly, g, by simp, hg, hanswered.asked, hfew⟩, hearly.trans hrun, ?_⟩
  exact List.forall_mem_append.2 ⟨hnone, hlog⟩

/-- A reset to a backup, where it is permitted. -/
theorem resetTo_guarded : Leads (Permits r p w backup) (r.resetTo backup true)
    (fun _ => Guarded r p w) (Guarded r p w) := by
  have hguarded : ∀ u, Permits r p w backup u → Guarded r p w u :=
    fun u hu => .inr ⟨backup, u, hu, refl_of (Adds _) u⟩
  have hbackUp : Leads (Permits r p w backup) (r.backUp none) (fun _ => Permits r p w backup)
      (Permits r p w backup) :=
    (Leads.of_obeys (r.bears_unreset.backUp none) fun _ _ hu hnone => hu.on hnone).post fun _ _ h => h.2
  have hreset : Leads (Permits r p w backup) (r.run ["reset", "--hard", backup])
      (fun _ => Guarded r p w) (Guarded r p w) :=
    (Leads.of_obeys (Repository.run_adds fun _ hg => hg) fun u _ hu hadds =>
      .inr ⟨backup, u, hu, hadds⟩).post fun _ _ h => h.2
  exact (hbackUp.stops hguarded).bind fun _ => hreset.bind fun _ => .pure fun _ h => h

/-- **Git is reset once it has listed at most one commit.** -/
theorem resetToBackup_guarded {f : Fault} (hbackup : p.backupBranch = some backup)
    (hcommit : (commitRollback r p).run w = (.error f, v)) (hrefusal : f.isRefusal = true) :
    Leads (· = v) (resetToBackup r p backup) (fun _ => Guarded r p w) (Guarded r p w) := by
  have hbefore : Unreset w v := (commitRollback_keeps r.bears_unreset).of_stop hcommit
  have hlog : ∀ u, Adds (fun g => g.arguments = ["log", "--oneline", backup ++ "..HEAD"]) v u →
      Guarded r p w u := by
    refine fun u hu => .inl (trans_of Unreset hbefore (hu.mono fun g hg => ?_))
    exact GitRun.not_resets (by rw [hg]; simp)
  have hrun : Leads (· = v) (r.run ["log", "--oneline", backup ++ "..HEAD"])
      (fun out u => Guarded r p w u ∧
        ((Text.splitLines (Text.strip out.out)).length ≤ 1 → Permits r p w backup u))
      (Guarded r p w) := by
    refine (r.run_leads _ v).imp (fun _ h => h) ?_ fun u hu => hlog u (hu.mono fun _ hg => hg.1)
    rintro _ u ⟨g, rfl, hg, hanswered⟩
    exact ⟨hlog u (hanswered.adds (fun _ hg _ => hg) hanswered.asked),
      permits_of_log hbackup hcommit hrefusal hanswered hg⟩
  refine hrun.bind fun out => ?_
  simp only
  split
  · exact .throw_bind fun _ hu => hu.1
  · rename_i hfew
    exact resetTo_guarded.pre fun _ hu => hu.2 (Nat.le_of_not_lt hfew)

/-- **Every hard reset of a rollback is permitted**, wherever it ends. -/
theorem undo_guarded : Guarded r p w ((undo r p).run w).2 := by
  rw [undo, run_bind_of_ok (Act.attempt_run _ w)]
  cases hcommit : (commitRollback r p).run w with
  | mk done v =>
    have hkept : Unreset w v := by
      have hends := (commitRollback_keeps (p := p) r.bears_unreset w).1
      rwa [hcommit] at hends
    cases done with
    | ok _ => exact .inl hkept
    | error f =>
      simp only
      split
      · rename_i backup hbackup
        obtain ⟨hrecorded, -⟩ := Option.filter_eq_some_iff.1 hbackup
        split
        · rename_i hrefusal
          have hreset := resetToBackup_guarded hrecorded hcommit hrefusal
          exact Leads.ends_iff.1 (hreset.bind fun _ => .pure fun _ h => h) v rfl
        · exact .inl hkept
      · exact .inl hkept

end Session

open World (Apart Clocked Quiet)

/-- Only what is applied may be rolled back. -/
theorem PatchState.rolledBack_mem_next {state : PatchState} :
    .rolledBack ∈ state.next ↔ state = .applied := by
  cases state <;> decide

namespace Session

variable (r : Repository) (p : Patch)

theorem undo_clocked : Keeps Clocked (undo r p) := by
  have hrun (arguments : List String) : Keeps Clocked (r.run arguments) :=
    Repository.run_keeps (Repository.runFrom_keeps (Act.git_clocked _)
      (fun _ => r.bears_clocked.of_still (Act.yield_still _)) _ _)
  have hreset (backup : String) : Keeps Clocked (resetToBackup r p backup) :=
    (hrun _).bind fun out => Keeps.when .throw ((r.bears_clocked.backUp none).bind fun _ =>
      (hrun _).bind fun _ => .pure trivial)
  refine (commitRollback_keeps r.bears_clocked).attempt.bind fun done => ?_
  split
  · exact .pure trivial
  · split
    · split
      · exact (hreset _).bind fun _ => .pure trivial
      · exact .throw
    · exact .throw

/-! ## The store -/

/-- What is recorded once a patch is undone. -/
def recording (p : Patch) (method : RollbackMethod) : Act Patch := do
  let p ← move p .rollBack
  let now ← Act.now
  Act.storing fun s => s.markRolledBack p.id now
  let now ← Act.now
  Act.storing fun s => s.setIssueStatus p.issueId .open_ now
  Act.emit (.of "patch_rolled_back" [("patch_id", .text p.id), ("issue_id", .text p.issueId),
    ("method", .text method.name)])
  pure p

/-- What a move to the state of a rollback makes of a patch. -/
theorem act_rollBack {applied touched : Moment} {q : Patch} (h : p.act .rollBack applied touched = .ok q) :
    q.id = p.id ∧ q.issueId = p.issueId := by
  obtain ⟨_, -, h⟩ := ok_of_bind h
  obtain rfl := Except.ok.inj h
  exact ⟨rfl, rfl⟩

/-- The world has the store, and since the start the clock has gone on. -/
structure Holding (w : World) (t : Store) (v : World) : Prop where
  store : v.store = t
  clock : Clocked w v

/-- The clock shows no time of the calendar. -/
def Spent (v : World) : Prop := v.supply.now.toUniversal? = none

/-- The patch with the name cannot be rolled back and nothing was done, or what undoes it
was stopped. -/
def Refused (s : Session) (id : String) (w v : World) : Prop :=
  (v = w ∧ ∀ p, w.store.patch? id = .ok (some p) → p.canMove .rolledBack = false) ∨
    ∃ p f, w.store.patch? id = .ok (some p) ∧ p.canMove .rolledBack = true ∧
      (undo s.repository p).run w = (.error f, v)

/-- The patch with the name is marked as rolled back, and then its issue is open. -/
def Rolled (id : String) (s s' : Store) : Prop :=
  ∃ p s₁ marked opened, s.patch? id = .ok (some p) ∧ p.canMove .rolledBack = true ∧
    s.markRolledBack p.id marked = .ok s₁ ∧ s₁.setIssueStatus p.issueId .open_ opened = .ok s'

/-- Only what is applied can be rolled back. -/
theorem applied_of_canMove {p : Patch} (h : p.canMove .rolledBack = true) : p.applied = true :=
  (Patch.state_eq_applied.1 (PatchState.rolledBack_mem_next.1 (Patch.canMove_iff.1 h))).2

/-- And that is never refused. -/
theorem move_rollBack_ok {p : Patch} (h : p.canMove .rolledBack = true) (v : World) :
    ∃ q v', (move p .rollBack).run v = (.ok q, v') := by
  refine move_isOk (fun applied touched => ⟨{ p with rolledBack := true, updatedAt := touched }, ?_⟩) v
  rw [Patch.act, Patch.require, if_pos h]
  rfl

/-- A known issue takes any status at a time of the calendar. -/
theorem setIssueStatus_isOk {s : Store} {issue : String} (status : IssueStatus) {now : Moment}
    (hknown : (s.issue? issue).isSome = true) (hnow : now.toUniversal?.isSome = true) :
    ∃ s', s.setIssueStatus issue status now = .ok s' := by
  obtain ⟨kept, htime⟩ := Store.keptTime_isOk hnow
  rw [Store.setIssueStatus, htime]
  exact ⟨_, if_pos hknown⟩

section

variable {w : World} {t : Store}

theorem holding_leads {α : Type} {T : α → Prop} {x : Act α} (hx : Obeys Apart T x)
    (hclock : Keeps Clocked x) :
    Leads (Holding w t) x (fun a v => T a ∧ Holding w t v) (Holding w t) := by
  have hstore : Leads (Holding w t) x (fun a v => T a ∧ v.store = t) (fun v => v.store = t) :=
    Leads.of_obeys hx fun _ _ hv happ => happ.store.trans hv.store
  have hlater : Leads (Holding w t) x (fun _ v => True ∧ Clocked w v) (Clocked w) :=
    Leads.of_obeys hclock fun _ _ hv hc => trans_of Clocked hv.clock hc
  exact (hstore.and hlater).imp (fun _ hv => ⟨hv, hv⟩) (fun _ _ h => ⟨h.1.1, h.1.2, h.2.2⟩)
    fun _ h => ⟨h.1, h.2⟩

/-- A reading of the clock is a time of the calendar if one is shown behind it. -/
theorem now_leads (htick : 0 ≤ w.supply.tick) (hfirst : w.supply.now.toUniversal?.isSome = true) :
    Leads (Holding w t) Act.now
      (fun now v => Holding w t v ∧ (¬ Spent v → now.toUniversal?.isSome = true)) Spent := by
  intro v hv
  have hread := Supply.Elapses.readClock v.supply
  refine ⟨⟨hv.store, hv.clock.trans hread⟩, fun hlast => ?_⟩
  exact hv.clock.between hread htick hfirst (Option.isSome_iff_ne_none.2 hlast)

/-- A change of the store that only asks for a time of the calendar. -/
theorem storing_leads {g : Store → Except StoreFault Store} {now : Moment}
    (hok : now.toUniversal?.isSome = true → ∃ t', g t = .ok t') :
    Leads (fun v => Holding w t v ∧ (¬ Spent v → now.toUniversal?.isSome = true)) (Act.storing g)
      (fun _ v => ∃ t', g t = .ok t' ∧ Holding w t' v) Spent := by
  rintro v ⟨hv, hnow⟩
  rw [Act.storing_run, hv.store]
  cases hg : g t with
  | ok t' => exact ⟨t', rfl, rfl, hv.clock⟩
  | error e =>
    by_contra hlast
    obtain ⟨t', ht'⟩ := hok (hnow hlast)
    rw [hg] at ht'
    cases ht'

/-- **What is recorded behind a rollback** is only stopped where the calendar ends. -/
theorem record_leads {p : Patch} (method : RollbackMethod) (hkeyed : w.store.Keyed)
    (htick : 0 ≤ w.supply.tick) (hfirst : w.supply.now.toUniversal?.isSome = true)
    {id : String} (hfound : w.store.patch? id = .ok (some p)) (hmove : p.canMove .rolledBack = true) :
    Leads (Holding w w.store) (recording p method) (fun _ v => Rolled id w.store v.store) Spent := by
  have hp := (Store.patch?_eq_some hfound).1
  have hmoved : Leads (Holding w w.store) (move p .rollBack)
      (fun q v => (q.id = p.id ∧ q.issueId = p.issueId) ∧ Holding w w.store v) Spent := by
    intro v hv
    obtain ⟨q, v', hrun⟩ := move_rollBack_ok hmove v
    obtain ⟨⟨_, _, hact⟩, hafter⟩ :=
      (holding_leads (move_act p .rollBack) (move_clocked p _)).of_run hv hrun
    rw [hrun]
    exact ⟨act_rollBack p hact, hafter⟩
  refine hmoved.bind fun q => .given fun ⟨hid, howner⟩ => ?_
  refine (now_leads htick hfirst).bind fun marked => ?_
  have hmark := storing_leads (w := w) (g := fun s => s.markRolledBack q.id marked) fun hmarked =>
    hid ▸ Store.markRolledBack_isOk hp (applied_of_canMove hmove) hmarked
  -- from here on the store is the marked one, in which the issue is still known
  refine hmark.bind fun _ => Leads.of_each fun v ⟨t, hmarked, hv⟩ => ?_
  rw [hid] at hmarked
  have hknown : (t.issue? q.issueId).isSome = true := by
    obtain ⟨time, hsame⟩ := Store.markRolledBack_eq hmarked
    rw [howner, hsame]
    exact Store.issue?_isSome_iff.2 (hkeyed.owners p hp)
  have hnow : Leads (· = v) Act.now
      (fun now v => Holding w t v ∧ (¬ Spent v → now.toUniversal?.isSome = true)) Spent :=
    (now_leads htick hfirst).pre fun _ hu => hu ▸ hv
  refine hnow.bind fun opened => (storing_leads (setIssueStatus_isOk .open_ hknown)).bind fun _ => ?_
  rintro u ⟨t', hopened, hu⟩
  rw [howner] at hopened
  exact ⟨p, t, marked, opened, hfound, hmove, hmarked, hu.store ▸ hopened⟩

end

/-- **A rollback is recorded as a whole or refused**, as long as the clock shows times of
the calendar. -/
theorem rollBack_refuses (s : Session) (id : String) {w : World} (hkeyed : w.store.Keyed)
    (htick : 0 ≤ w.supply.tick) (hfirst : w.supply.now.toUniversal?.isSome = true) :
    Leads (· = w) (s.rollBack id) (fun _ v => Rolled id w.store v.store)
      (fun v => ¬ Spent v → Refused s id w v) := by
  have hlookup : Leads (· = w) (Act.stored fun s => s.patch? id)
      (fun found v => w.store.patch? id = .ok found ∧ v = w)
      (fun v => ¬ Spent v → Refused s id w v) := by
    intro v hv
    rw [hv, Act.stored_run]
    cases hfound : w.store.patch? id with
    | ok found => exact ⟨rfl, rfl⟩
    | error e => exact fun _ => .inl ⟨rfl, fun p hp => by rw [hfound] at hp; cases hp⟩
  refine hlookup.bind fun found => .given fun hfound => ?_
  cases found with
  | none => exact .throw fun _ hv _ => .inl ⟨hv, fun p hp => by rw [hfound] at hp; cases hp⟩
  | some p =>
    simp only
    split
    · rename_i hstays
      refine .throw_bind fun _ hv _ => .inl ⟨hv, fun q hq => ?_⟩
      obtain rfl := Option.some.inj (Except.ok.inj (hfound.symm.trans hq))
      exact (Bool.not_eq_true' _).mp hstays
    · rename_i hmove
      have hmove : p.canMove .rolledBack = true := by simpa using hmove
      have hundo : Leads (· = w) (undo s.repository p) (fun _ => Holding w w.store)
          (fun v => ¬ Spent v → Refused s id w v) := by
        intro v hv
        subst hv
        cases hrun : (undo s.repository p).run v with
        | mk method u =>
          cases method with
          | ok method =>
            exact ⟨((undo_apart s.repository p).of_run hrun).1.store,
              ((undo_clocked s.repository p).of_run hrun).1⟩
          | error f => exact fun _ => .inr ⟨p, f, hfound, hmove, hrun⟩
      refine hundo.bind fun method => ?_
      exact (record_leads method hkeyed htick hfirst hfound hmove).stops fun _ hv hlast =>
        (hlast hv).elim

/-- Where a rollback is refused, the store is that of the start. -/
theorem Refused.store {s : Session} {id : String} {w v : World} (h : Refused s id w v) :
    v.store = w.store := by
  rcases h with ⟨rfl, -⟩ | ⟨p, f, -, -, hrun⟩
  · rfl
  · exact ((undo_apart s.repository p).of_stop hrun).store

/-- **A rollback is recorded as a whole or not at all**, as long as the clock
shows times of the calendar. -/
theorem rollBack_recorded (s : Session) (id : String) {w : World} (hkeyed : w.store.Keyed)
    (htick : 0 ≤ w.supply.tick) (hfirst : w.supply.now.toUniversal?.isSome = true) :
    Leads (· = w) (s.rollBack id) (fun _ v => Rolled id w.store v.store)
      (fun v => v.supply.now.toUniversal?.isSome = true → v.store = w.store) :=
  (rollBack_refuses s id hkeyed htick hfirst).stops fun _ hv hlast =>
    (hv (Option.isSome_iff_ne_none.1 hlast)).store

variable {w : World}

/-- **What a rollback leaves**: the patch is read as rolled back, and its issue
is open. -/
theorem Rolled.spec {id : String} {s s' : Store} (hkeyed : s.Keyed) (h : Rolled id s s') :
    s'.Withdrawn id ∧ ∃ q, s'.patch? id = .ok (some q) ∧ q.rolledBack = true ∧
      (s'.issue? q.issueId).map Issue.status = some .open_ := by
  obtain ⟨p, s₁, marked, opened, hread, hmove, hmark, hopen⟩ := h
  obtain ⟨hp, rfl⟩ := Store.patch?_eq_some hread
  have happlied : p.applied = true := applied_of_canMove hmove
  obtain ⟨time, rfl⟩ := Store.markRolledBack_eq hmark
  have hpatches := (Store.setIssueStatus_patches hopen).1
  -- of the patches with the name there is one, and it was marked
  have hone : ∀ q ∈ s'.patches, q.id = p.id → q = { p with rolledBack := true, updatedAt := time } := by
    intro q hq hid
    rw [hpatches] at hq
    obtain ⟨o, ho, rfl⟩ := List.mem_map.1 hq
    have hsame : o = p := by
      refine hkeyed.eq_of_id ho hp (Eq.trans ?_ hid)
      split <;> rfl
    rw [hsame, if_pos (by rw [beq_self_eq_true, happlied]; rfl)]
  have hwithdrawn : s'.Withdrawn p.id := by
    intro q hq hid
    have hrule : p.rule = none := Store.patch?_rule hread
    rw [hone q hq hid]
    exact ⟨rfl, hrule⟩
  have hstored : ∃ q ∈ s'.patches, q.id = p.id := by
    rw [hpatches]
    refine ⟨_, List.mem_map_of_mem hp, ?_⟩
    split <;> rfl
  obtain ⟨q, hq, hid, hrolled, hfound⟩ := hwithdrawn.read hstored
  refine ⟨hwithdrawn, q, hfound, hrolled, ?_⟩
  rw [hone q hq hid]
  exact Store.setIssueStatus_status hopen

variable (s : Session)

/-- **A patch that is rolled back is not rolled back again**, and nothing is
done. -/
theorem rollBack_refused {id : String} (hw : w.store.Withdrawn id)
    (hstored : ∃ q ∈ w.store.patches, q.id = id) :
    (s.rollBack id).run w = (.error (.refuse .transition
      s!"Patch {id} is not applied and cannot be rolled back" [("patch_id", .text id)]), w) := by
  obtain ⟨q, hq, rfl, hrolled, hread⟩ := hw.read hstored
  have hfound : (Act.stored fun s => s.patch? q.id).run w = (.ok (some q), w) := by
    rw [Act.stored_run, hread]
    rfl
  have hmove : (!q.canMove .rolledBack) = true := by
    simp [Patch.canMove, Patch.state, hrolled, PatchState.next]
  rw [rollBack, run_bind_of_ok hfound]
  simp only
  rw [if_pos hmove]
  rfl

/-! ## Git -/

/-- Nothing was done, or what was done for the patch with the name is guarded. -/
def Watched (r : Repository) (id : String) (w v : World) : Prop :=
  v = w ∨ ∃ p, w.store.patch? id = .ok (some p) ∧ Guarded r p w v

/-- **Every hard reset of a rollback is permitted.** -/
theorem rollBack_guarded (id : String) : Leads (· = w) (s.rollBack id)
    (fun _ => Watched s.repository id w) (Watched s.repository id w) := by
  -- the patch is looked up, and behind what is done in the repository git is not run
  have hlookup : Leads (· = w) (Act.stored fun s => s.patch? id)
      (fun found v => w.store.patch? id = .ok found ∧ v = w) (· = w) := by
    refine Leads.stored ?_ fun _ hv => hv
    rintro v found rfl hfound
    exact ⟨hfound, rfl⟩
  refine (hlookup.stops fun _ => .inl).bind fun found => .given fun hfound => ?_
  cases found with
  | none => exact .throw fun _ hv => .inl hv
  | some p =>
    simp only
    split
    · exact .throw_bind fun _ hv => .inl hv
    · have hundo : Leads (· = w) (undo s.repository p) (fun _ => Guarded s.repository p w)
          (Guarded s.repository p w) := Leads.ends_iff.2 fun _ hv => hv ▸ undo_guarded
      have hquiet {α : Type} {x : Act α} (hx : Keeps Quiet x) : Keeps (Adds fun _ => False) x :=
        hx.weaken fun _ _ hq => hq.adds
      have hstoring (f : Store → Except StoreFault Store) :
          Keeps (Adds fun _ => False) (Act.storing f) :=
        Act.storing_keeps fun _ _ _ => ⟨[], .of_eq rfl rfl, fun _ hg => (List.not_mem_nil hg).elim⟩
      refine (hundo.stops fun _ hv => .inr ⟨p, hfound, hv⟩).bind fun method => ?_
      have hrecord : Keeps (Adds fun _ => False) (recording p method) :=
        (hquiet (move_quiet p _).keeps).bind fun q => (hquiet Act.now_quiet).bind fun _ =>
          (hstoring _).bind fun _ => (hquiet Act.now_quiet).bind fun _ => (hstoring _).bind fun _ =>
            (hquiet (Act.emit_quiet _)).bind fun _ => .pure trivial
      exact (Leads.of_obeys hrecord fun _ _ hv hadds => .inr ⟨p, hfound, hv.on hadds⟩).post
        fun _ _ h => h.2

/-- Git ran as the outside has it. -/
theorem rollBack_ran (id : String) (w : World) : ∃ l, Ran l w ((s.rollBack id).run w).2 := by
  rcases Leads.ends_iff.1 (rollBack_guarded s id) w rfl with hnone | ⟨p, -, hguarded⟩
  · rw [hnone]
    exact ⟨[], .refl w⟩
  · rcases hguarded with ⟨l, hl, -⟩ | ⟨_, _, ⟨l, -, hl, -⟩, l', hl', -⟩
    · exact ⟨l, hl⟩
    · exact ⟨l ++ l', hl.trans hl'⟩

end Session

end RepairLoop
