import RepairLoop.Proofs.Repair.Process
import RepairLoop.Proofs.Repair.Settled
import RepairLoop.Proofs.Store.Writes
import RepairLoop.Proofs.Trial.Decided
/-!
# Repair — the names in the store

A repair stores patches under the names of its candidates and under no other,
and those have been given out by then (`process_renews`). So what `World.Fresh`
says of the store is said of it again when the repair ends (`process_fresh`,
`processEach_fresh`): where it holds at the start, as it does of an empty
store, no candidate ever takes the name of another patch.
-/

namespace RepairLoop

open Act (Keeps Obeys Leads)
open World (Apart Ready)
open Store (Write Writes)

/-- The store was written to, patches were put under some names, and no name is
given out twice. -/
structure World.Wrote (named : String → Prop) (w w' : World) : Prop where
  given : w.supply.given ≤ w'.supply.given
  writes : Writes named w.store w'.store

open World (Wrote)

variable {named : String → Prop}

namespace World.Wrote

variable {w w' : World}

theorem of_apart (h : Apart w w') : Wrote named w w' := ⟨h.given, h.store ▸ .refl⟩

theorem of_write {s : Store} (h : Write named w.store s) : Wrote named w { w with store := s } :=
  ⟨Nat.le_refl _, .single h⟩

instance : IsPreorder World (Wrote named) where
  refl _ := of_apart (refl_of Apart _)
  trans _ _ _ h h' := ⟨Nat.le_trans h.given h'.given, h.writes.trans h'.writes⟩

theorem mono {named' : String → Prop} (h : Wrote named w w') (hnames : ∀ id, named id → named' id) :
    Wrote named' w w' := ⟨h.given, h.writes.mono hnames⟩

end World.Wrote

namespace World

/-- A name under which patches are stored on the way from one world to another: it is
given out on the way, or it is that of a patch that was pending at the start. -/
def Due (w w' : World) (id : String) : Prop :=
  (∃ n, w.supply.given < n ∧ n ≤ w'.supply.given ∧ id = Supply.nameOf n) ∨
    ∃ p ∈ w.store.patches, p.id = id ∧ p.state = .pending

/-- What is due stays due. -/
theorem Due.mono {w w' w'' : World} {id : String} (hdue : Due w w' id)
    (h : w'.supply.given ≤ w''.supply.given) : Due w w'' id :=
  hdue.imp_left fun ⟨n, hlow, hhigh, hid⟩ => ⟨n, hlow, Nat.le_trans hhigh h, hid⟩

/-- The store was written to, and patches were put where that was due. -/
def Renews (w w' : World) : Prop := Wrote (Due w w') w w'

namespace Renews

variable {w w' : World}

theorem of_wrote (h : Wrote (fun _ => False) w w') : Renews w w' := h.mono fun _ h => h.elim

theorem of_apart (h : Apart w w') : Renews w w' := of_wrote (.of_apart h)

/-- Where patches are put that are due already. -/
theorem after {v : World} (h : Renews w v) (h' : Wrote (Due w v) v w') : Renews w w' :=
  trans_of (Wrote (Due w w')) (h.mono fun _ hdue => hdue.mono h'.given)
    (h'.mono fun _ hdue => hdue.mono h'.given)

instance : IsPreorder World Renews where
  refl _ := of_apart (refl_of Apart _)
  trans w w' w'' h h' := by
    have hfirst : ∀ id, Due w w' id → Due w w'' id := fun _ hdue => hdue.mono h'.given
    have hlater : ∀ id, Due w' w'' id → Due w w'' id := by
      rintro id (⟨n, hlow, hhigh, rfl⟩ | ⟨q, hq, rfl, hpending⟩)
      · exact .inl ⟨n, Nat.lt_of_le_of_lt h.given hlow, hhigh, rfl⟩
      · -- what is pending then was so at the start, or has been stored since
        rcases h.writes.becomes q hq with hname | ⟨p, hp, hpq⟩
        · exact hfirst _ hname
        · exact .inr ⟨p, hp, hpq.id.symm, hpq.pending hpending⟩
    exact trans_of (Wrote (Due w w'')) (h.mono hfirst) (h'.mono hlater)

/-- **The names that will be given out stay free.** -/
theorem fresh (h : Renews w w') (hfresh : w.Fresh) : w'.Fresh := by
  intro n hn q hq hid
  have hold : w.supply.given < n := Nat.lt_of_le_of_lt h.given hn
  rcases h.writes.becomes q hq with (⟨m, -, hm, hname⟩ | ⟨p, hp, hpq, -⟩) | ⟨p, hp, hpq⟩
  · have hsame : n = m := Supply.nameOf_inj (hid.symm.trans hname)
    omega
  · exact hfresh n hold p hp (hpq.trans hid)
  · exact hfresh n hold p hp (hpq.id.symm.trans hid)

end Renews

end World

open World (Due Renews)

namespace Session

variable {α : Type} {p : Patch}

/-! ## Single steps -/

theorem wrote_of_apart {x : Act α} (h : Keeps Apart x) : Keeps (Wrote named) x :=
  h.weaken fun _ _ => Wrote.of_apart

/-- A change of the store. -/
theorem storing_wrote {f : Store → Except StoreFault Store}
    (h : ∀ s s', f s = .ok s' → Write named s s') : Keeps (Wrote named) (Act.storing f) :=
  Act.storing_keeps fun _ _ hs => .of_write (h _ _ hs)

theorem setStatus_wrote (i : Issue) (status : IssueStatus) :
    Keeps (Wrote named) (setStatus i status) :=
  (wrote_of_apart Act.now_apart).bind fun _ =>
    (storing_wrote fun _ _ => .setIssueStatus).bind fun _ => .pure trivial

/-- **A patch is stored under its name.** -/
theorem keepPatch_wrote (hname : named p.id) : Keeps (Wrote named) (keepPatch p) :=
  (wrote_of_apart Act.now_apart).bind fun now =>
    storing_wrote fun _ _ => .putPatch (p := { p with updatedAt := now }) hname

theorem move_wrote (p : Patch) (a : PatchAction) :
    Obeys (Wrote named) (fun q => q.id = p.id) (move p a) :=
  ((move_moves p a).mono fun _ hm => hm.id).weaken fun _ _ => Wrote.of_apart

/-! ## Candidates -/

theorem keepPatches_wrote {ps : List Patch} (hps : ∀ p ∈ ps, named p.id) :
    Keeps (Wrote named) (keepPatches ps) := by
  induction ps with
  | nil => exact .pure trivial
  | cons p ps ih =>
    obtain ⟨hp, hps⟩ := List.forall_mem_cons.1 hps
    exact (keepPatch_wrote hp).bind fun _ => ih hps

theorem move_keep_wrote {a : PatchAction} (hname : named p.id) :
    Obeys (Wrote named) (fun q => named q.id) (do
      let q ← move p a
      keepPatch q
      pure q) :=
  (move_wrote p a).bind fun _ hq => (keepPatch_wrote (hq ▸ hname)).bind fun _ => .pure (hq ▸ hname)

theorem moveEach_wrote {c : Patch → Bool} {a : PatchAction} {ps : List Patch}
    (hps : ∀ p ∈ ps, named p.id) :
    Obeys (Wrote named) (fun qs => ∀ q ∈ qs, named q.id) (moveEach c a ps) := by
  induction ps with
  | nil => exact .pure fun _ hq => (List.not_mem_nil hq).elim
  | cons p ps ih =>
    obtain ⟨hp, hps⟩ := List.forall_mem_cons.1 hps
    have hnext (q : Patch) (hq : named q.id) :
        Obeys (Wrote named) (fun qs => ∀ q ∈ qs, named q.id) (do
          let qs ← moveEach c a ps
          pure (q :: qs)) :=
      (ih hps).bind fun qs hqs => .pure (List.forall_mem_cons.2 ⟨hq, hqs⟩)
    rw [moveEach]
    split
    · have hmoved := (move_keep_wrote (a := a) hp).bind hnext
      simpa only [bind_assoc, pure_bind] using hmoved
    · exact hnext p hp

/-! ## From the candidates to the report -/

variable {report : IssueReport}

theorem replaced_named {ps : List Patch} {q : Patch} (hps : ∀ p ∈ ps, named p.id) :
    ∀ p ∈ replaced ps q, named p.id := by
  intro p hp
  have hmem : p.id ∈ (replaced ps q).map Patch.id := List.mem_map_of_mem hp
  rw [map_replaced] at hmem
  obtain ⟨o, ho, hid⟩ := List.mem_map.1 hmem
  exact hid ▸ hps o ho

theorem recordResult_wrote {allow : Bool} {r : ValidationResult} (hname : named p.id) :
    Obeys (Wrote named) (fun q => named q.id) (recordResult allow p r) :=
  (storing_wrote fun _ _ => .addResult).bind fun _ => move_keep_wrote hname

theorem recordAll_wrote {allow : Bool} {rs : List (Patch × ValidationResult)}
    (hnames : ∀ p ∈ report.candidates, named p.id) (hrs : ∀ e ∈ rs, named e.1.id) :
    Obeys (Wrote named) (fun r => ∀ p ∈ r.1.candidates, named p.id)
      (recordAll allow report rs) := by
  induction rs generalizing report with
  | nil => exact .pure hnames
  | cons e rest ih =>
    obtain ⟨hname, hrest⟩ := List.forall_mem_cons.1 hrs
    refine (recordInto_obeys (recordResult_wrote hname).keeps).keeps.bind fun recorded => ?_
    obtain ⟨q, fault⟩ := recorded
    cases fault with
    | some f => exact .pure (replaced_named hnames)
    | none => exact ih (replaced_named hnames) hrest

theorem validateInto_wrote (s : Session) (hnames : ∀ p ∈ report.candidates, named p.id) :
    Obeys (Wrote named) (fun r => ∀ p ∈ r.1.candidates, named p.id) (s.validateInto report) := by
  refine (wrote_of_apart (s.gate.validateMany_earned _).keeps).attempt.bind fun results => ?_
  cases results with
  | error f => exact .pure hnames
  | ok rs =>
    exact recordAll_wrote hnames fun e he =>
      hnames _ (List.mem_of_mem_filter (List.of_mem_zip he).1)

theorem leftOpen_wrote (error : String) : Keeps (Wrote named) (leftOpen report error) :=
  (setStatus_wrote _ _).bind fun _ => .pure trivial

theorem applyPatch_wrote (s : Session) (i : Issue) (p : Patch) :
    Keeps (Wrote named) (s.applyPatch i p) := by
  refine (wrote_of_apart (requireValidated_apart p)).bind fun _ =>
    (wrote_of_apart (applyToRepository_apart _ i p)).bind fun change => ?_
  refine (move_wrote p _).keeps.bind fun q => (wrote_of_apart Act.now_apart).bind fun now => ?_
  exact (storing_wrote fun _ _ => .markApplied).bind fun _ =>
    (wrote_of_apart (Act.emit_apart _)).bind fun _ => .pure trivial

/-- **A rollback puts no patch.** -/
theorem rollBack_wrote (s : Session) (id : String) : Keeps (Wrote named) (s.rollBack id) := by
  refine (wrote_of_apart (Act.stored_apart _)).bind fun known => ?_
  split
  · exact .throw
  · rename_i p
    refine Keeps.when .throw ?_
    refine (wrote_of_apart (undo_apart _ p)).bind fun method => (move_wrote p _).keeps.bind fun q => ?_
    refine (wrote_of_apart Act.now_apart).bind fun now => ?_
    refine (storing_wrote fun _ _ => .markRolledBack).bind fun _ => ?_
    refine (wrote_of_apart Act.now_apart).bind fun now => ?_
    refine (storing_wrote fun _ _ => .setIssueStatus).bind fun _ => ?_
    exact (wrote_of_apart (Act.emit_apart _)).bind fun _ => .pure trivial

theorem afterApplying_wrote (s : Session) (winner : String)
    (hnames : ∀ p ∈ report.candidates, named p.id) :
    Keeps (Wrote named) (s.afterApplying report winner) := by
  have hothers : Keeps (Wrote named) (rejectOthers winner report.candidates) := by
    rw [rejectOthers_eq]
    exact (moveEach_wrote hnames).keeps
  refine hothers.bind fun candidates => (wrote_of_apart (s.firstFailure_apart _ _)).bind fun failed => ?_
  cases failed with
  | some error => exact (rollBack_wrote s winner).bind fun _ => .pure trivial
  | none => exact (setStatus_wrote _ _).bind fun _ => .pure trivial

theorem afterValidating_wrote (s : Session) (hnames : ∀ p ∈ report.candidates, named p.id) :
    Keeps (Wrote named) (s.afterValidating report) := by
  unfold afterValidating
  split
  · exact leftOpen_wrote _
  · refine (applyPatch_wrote s report.issue _).attempt.bind fun applied => ?_
    cases applied with
    | error f =>
      simp only
      split
      · exact leftOpen_wrote _
      · exact .throw
    | ok q => exact afterApplying_wrote s q.id (replaced_named hnames)

/-- **Patches are stored under the names of the candidates.** -/
theorem afterProposing_wrote (s : Session) (hnames : ∀ p ∈ report.candidates, named p.id) :
    Keeps (Wrote named) (s.afterProposing report) := by
  refine (keepPatches_wrote hnames).bind fun _ => ?_
  have hbegin : Obeys (Wrote named) (fun qs => ∀ q ∈ qs, named q.id)
      (beginAll report.candidates) := by
    rw [beginAll_eq]
    exact moveEach_wrote hnames
  refine hbegin.bind fun candidates hcandidates => ?_
  refine Obeys.bind (validateInto_wrote s hcandidates) fun validated hnames => ?_
  obtain ⟨report', fault⟩ := validated
  cases fault with
  | none => exact afterValidating_wrote s hnames
  | some f =>
    have hgiveUp : Keeps (Wrote named) (giveUp report'.candidates) := by
      rw [giveUp_eq]
      exact (moveEach_wrote hnames).keeps
    exact hgiveUp.bind fun _ => leftOpen_wrote _

/-! ## Patches that are asked for -/

/-- No name that is given out from now on. -/
def Old (w : World) (id : String) : Prop := ∀ n, w.supply.given < n → id ≠ Supply.nameOf n

theorem ready_old (w : World) : w.Ready w.outside (Old w) := ⟨rfl, fun n hn hold => hold n hn rfl⟩

/-- Work that asks for patches, and gives out their names. -/
def Anew (x : Act (List Patch)) : Prop :=
  ∀ w, Leads (· = w) x (fun ps v => Apart w v ∧ ∀ p ∈ ps, Due w v p.id) (Apart w)

namespace Anew

variable {β : Type} {x : Act (List Patch)} {f : List Patch → Act β}

/-- Names that were not old are due once they are taken. -/
theorem of_ready (hapart : Keeps Apart x)
    (hx : ∀ w, Leads (Ready w.outside (Old w)) x (fun ps v => (∀ p ∈ ps, ¬ Old w p.id) ∧
      v.Ready w.outside fun id => id ∈ ps.map Patch.id ∨ Old w id) (Ready w.outside (Old w))) :
    Anew x := by
  intro w
  have hrun := (Leads.of_keeps hapart w).and (hx w)
  have hstart : ∀ v, v = w → Apart w v ∧ Ready w.outside (Old w) v := by
    rintro v rfl
    exact ⟨refl_of Apart v, ready_old v⟩
  refine hrun.imp hstart (fun ps v hv => ?_) fun v hv => hv.1
  obtain ⟨happ, hnew, hready⟩ := hv
  refine ⟨happ, fun p hp => .inl ?_⟩
  have hname := hnew p hp
  rw [Old] at hname
  push Not at hname
  obtain ⟨n, hn, hid⟩ := hname
  refine ⟨n, hn, Nat.not_lt.1 fun hlate => ?_, hid⟩
  exact hready.unused n hlate (.inl (hid ▸ List.mem_map_of_mem hp))

variable (hx : Anew x) (hf : ∀ (named : String → Prop) ps, (∀ p ∈ ps, named p.id) →
  Keeps (Wrote named) (f ps))

include hf in
/-- **What puts the patches that were asked for puts them where it is due.** -/
theorem leads_on (w : World) (ps : List Patch) :
    Leads (fun v => Apart w v ∧ ∀ p ∈ ps, Due w v p.id) (f ps) (fun _ => Renews w) (Renews w) := by
  refine Leads.ends_iff.2 fun v ⟨happ, hdue⟩ => ?_
  exact (Renews.of_apart happ).after (hf (Due w v) ps hdue v).1

include hx hf

theorem bind : Keeps Renews (x >>= f) :=
  fun w => ⟨Leads.ends_iff.1 (((hx w).stops fun _ => .of_apart).bind (leads_on hf w)) w rfl,
    fun _ _ => trivial⟩

/-- Where it is looked at what stopped the asking. -/
theorem attempt_bind {g : Except Fault (List Patch) → Act β} (hok : ∀ ps, g (.ok ps) = f ps)
    (herror : ∀ e, Keeps Renews (g (.error e))) : Keeps Renews (Act.attempt x >>= g) := by
  refine fun w => ⟨Leads.ends_iff.1 ((hx w).attempt.bind fun r => ?_) w rfl, fun _ _ => trivial⟩
  cases r with
  | ok ps =>
    rw [hok]
    exact leads_on hf w ps
  | error e =>
    exact (Leads.of_keeps (herror e) w).pre fun _ h => .of_apart h

end Anew

/-! ## Repairs -/

variable (s : Session) (i : Issue) {w : World}

theorem renews_of_wrote {x : Act α} (h : Keeps (Wrote fun _ => False) x) : Keeps Renews x :=
  h.weaken fun _ _ => .of_wrote

theorem renews_of_apart {x : Act α} (h : Keeps Apart x) : Keeps Renews x :=
  h.weaken fun _ _ => .of_apart

theorem mark_wrote : Keeps (Wrote named) (mark i) := by
  refine (wrote_of_apart Act.store_apart).bind fun known => ?_
  exact Keeps.when (storing_wrote fun _ _ => .addIssue) (setStatus_wrote _ _)

theorem proposeAll_anew : Anew (s.proposeAll i) := by
  refine .of_ready (s.proposeAll_new i).keeps fun w => (s.proposeAll_leads i).post ?_
  exact fun ps v ⟨hps, hready⟩ => ⟨fun p hp => (hps.each p hp).name, hready⟩

/-- **A repair puts patches where that is due**: under names that it gives
out. -/
theorem process_renews : Keeps Renews (s.process i) := by
  rw [process_eq]
  refine (renews_of_wrote (mark_wrote i)).bind fun j => ?_
  have hrest : ∀ (named : String → Prop) ps, (∀ p ∈ ps, named p.id) →
      Keeps (Wrote named) (s.afterProposing { IssueReport.blank j with candidates := ps }) :=
    fun named ps hps => afterProposing_wrote s hps
  refine (proposeAll_anew s j).attempt_bind hrest (fun _ => rfl) fun e => ?_
  simp only
  split
  · exact renews_of_wrote (leftOpen_wrote _)
  · exact .throw

theorem processEach_renews (is : List Issue) : Keeps Renews (s.processEach is) := by
  induction is with
  | nil => exact .pure trivial
  | cons i is ih => exact (process_renews s i).bind fun _ => ih.bind fun _ => .pure trivial

theorem recordIssues_wrote (is : List Issue) : Keeps (Wrote named) (recordIssues is) := by
  induction is with
  | nil => exact .pure trivial
  | cons i rest ih =>
    refine (wrote_of_apart (Act.stored_apart _)).bind fun known => ?_
    split
    · exact ih.bind fun _ => .pure trivial
    · exact (storing_wrote fun _ _ => .addIssue).bind fun _ => ih.bind fun _ => .pure trivial

theorem detectAndRecord_wrote (root : Option Path) : Keeps (Wrote named) (s.detectAndRecord root) :=
  (wrote_of_apart (detect_apart _ _)).bind fun _ => recordIssues_wrote _

/-- **And so does a run.** -/
theorem run_renews (root : Option Path) (limit : Option Int) : Keeps Renews (s.run root limit) :=
  (renews_of_wrote (s.detectAndRecord_wrote root)).bind fun _ => (processEach_renews s _).bind fun _ =>
    (renews_of_apart (Act.emit_apart _)).bind fun _ => .pure trivial

/-- **A repair takes no name twice**: where no name that will be given out is
that of a patch in the store, this is so again when the repair ends, whether it
comes to a report or is stopped. -/
theorem process_fresh (hfresh : w.Fresh) : ((s.process i).run w).2.Fresh :=
  (process_renews s i w).1.fresh hfresh

/-- **Nor does a row of repairs.** -/
theorem processEach_fresh (is : List Issue) : Leads World.Fresh (s.processEach is)
    (fun _ => World.Fresh) World.Fresh :=
  (Leads.of_obeys (processEach_renews s is) fun _ _ hfresh h => h.fresh hfresh).post fun _ _ h => h.2

end Session

end RepairLoop

/-!
## Headings — whose results are, their names and times

A result is of the patch that was tried, takes a new name and reads the clock, whatever comes of
the trial (`attempt_headed`). So the results of patches that are validated in a row are of these
patches in their order, and no two have one name (`validateMany_answers`).
-/

namespace RepairLoop

open Act (Keeps Yields Leads)
open World (Clocked)

namespace ValidationResult

/-- What a result is given before anything has run: its name, its patch and its time. -/
def heading (r : ValidationResult) : String × String × Moment := (r.id, r.patchId, r.timestamp)

/-- Between the two worlds the result was given to the patch, with a new name and the time. -/
structure Headed (patch : String) (w w' : World) (r : ValidationResult) : Prop where
  owner : r.patchId = patch
  named : ∃ n, w.supply.given < n ∧ n ≤ w'.supply.given ∧ r.id = Supply.nameOf n
  timed : ∃ s, w.supply.Elapses s ∧ s.Elapses w'.supply ∧ r.timestamp = s.now

namespace Headed

variable {patch : String} {w v w' : World} {r r' : ValidationResult}

theorem on (h : r.Headed patch w v) (hclock : Clocked v w') : r.Headed patch w w' := by
  obtain ⟨n, hlow, hhigh, hname⟩ := h.named
  obtain ⟨s, hearly, hlate, htime⟩ := h.timed
  exact ⟨h.owner, ⟨n, hlow, Nat.le_trans hhigh hclock.given, hname⟩,
    s, hearly, hlate.trans hclock, htime⟩

theorem after (h : r.Headed patch v w') (hclock : Clocked w v) : r.Headed patch w w' := by
  obtain ⟨n, hlow, hhigh, hname⟩ := h.named
  obtain ⟨s, hearly, hlate, htime⟩ := h.timed
  exact ⟨h.owner, ⟨n, Nat.lt_of_le_of_lt hclock.given hlow, hhigh, hname⟩,
    s, hclock.trans hearly, hlate, htime⟩

theorem of_heading (h : r.Headed patch w w') (hsame : r'.heading = r.heading) :
    r'.Headed patch w w' := by
  obtain ⟨hid, hrest⟩ := Prod.mk.inj hsame
  obtain ⟨howner, htime⟩ := Prod.mk.inj hrest
  exact ⟨howner ▸ h.owner, hid ▸ h.named, htime ▸ h.timed⟩

theorem clocked (h : r.Headed patch w w') : Clocked w w' := by
  obtain ⟨s, hearly, hlate, -⟩ := h.timed
  exact hearly.trans hlate

end Headed

end ValidationResult

open ValidationResult (Headed)

namespace Gate

variable (g : Gate) {w w' : World}

/-- **A result is headed before anything has run.** -/
theorem blankResult_headed (patch : String) (isolation : Isolation) (w : World) :
    Leads (Clocked w) (blankResult patch isolation) (fun r v => r.Headed patch w v) (Clocked w) := by
  intro v hv
  have hname : v.supply.Elapses (Supply.freshName.run v.supply).2 := .freshName v.supply
  have hread := Supply.Elapses.readClock (Supply.freshName.run v.supply).2
  exact ⟨rfl, ⟨v.supply.given + 1, Nat.lt_succ_of_le hv.given, Nat.le_refl _, rfl⟩,
    _, hv.trans hname, hread, rfl⟩

/-- The stages leave the heading of a result alone. -/
theorem runStages_heading (s : Sandbox) (r : ValidationResult) :
    Yields (fun x => x.heading = r.heading) (g.runStages s r) := by
  refine .after fun build => .after fun test => .after fun security => ?_
  simp only
  split
  · exact .after fun performance => .after fun impact => .pure rfl
  · exact .pure rfl

/-- Work on a result that keeps its heading. -/
theorem leads_of_heading {x : Act ValidationResult} {patch : String} {r : ValidationResult}
    (hclock : Keeps Clocked x) (hsame : Yields (fun y => y.heading = r.heading) x) (w : World) :
    Leads (fun v => r.Headed patch w v) x (fun y v => y.Headed patch w v) (Clocked w) := by
  have hkeeps : Leads (fun v => r.Headed patch w v) x
      (fun y v => y.heading = r.heading ∧ r.Headed patch w v) (fun v => r.Headed patch w v) :=
    Leads.of_obeys (hclock.obeys hsame) fun _ _ hv hc => hv.on hc
  exact hkeeps.imp (fun _ hv => hv) (fun _ _ hv => hv.2.of_heading hv.1) fun _ hv => hv.clocked

/-- A result that is headed in a copy is so outside. -/
theorem inCopy_headed {work : Sandbox → Act ValidationResult} {patch : String}
    (hwork : ∀ s, Leads (Clocked w) (work s) (fun r v => r.Headed patch w v) (Clocked w)) :
    Leads (Clocked w) (g.inCopy work) (fun r v => r.Headed patch w v) (Clocked w) := by
  have hset (f : FileTree → FileTree) : Keeps Clocked (Act.setFiles f) :=
    (Act.setFiles_quiet f).weaken fun _ _ hq => hq.clock
  have hcontaining : Keeps Clocked g.containing := by
    unfold containing
    split
    · refine Keeps.get.bind fun v => ?_
      split
      · exact (Command.runWords_keeps (Act.command_clocked _)).map
      · exact .pure trivial
    · exact .pure trivial
  have hcopied (root : Path) :
      Leads (Clocked w) (g.copied root work) (fun r v => r.Headed patch w v) (Clocked w) :=
    (Leads.of_keeps (hset _) w).bind fun _ =>
      (Leads.of_keeps hcontaining w).bind fun _ => hwork _
  intro v hv
  rw [inCopy_run]
  refine (hcopied v.workshop).finally_ (fun r => ?_) (.of_keeps (hset _) w) v hv
  have hafter : Leads (fun u => r.Headed patch w u) (Act.setFiles fun t => t.remove v.workshop.parts)
      (fun _ u => True ∧ r.Headed patch w u) (fun u => r.Headed patch w u) :=
    Leads.of_obeys (hset _) fun _ _ hu hc => hu.on hc
  exact hafter.imp (fun _ hu => hu) (fun _ _ hu => hu.2) fun _ hu => hu.clocked

theorem tryPatch_headed (p : Patch) (w : World) :
    Leads (Clocked w) (g.tryPatch p) (fun r v => r.Headed p.id w v) (Clocked w) := by
  refine g.inCopy_headed fun s => (blankResult_headed p.id s.isolation w).bind fun r => ?_
  have hbears := g.bears_clocked
  have happlied : Leads (fun v => r.Headed p.id w v) (g.applyStage s.root p.diff)
      (fun _ v => r.Headed p.id w v) (Clocked w) :=
    (Leads.of_obeys (hbears.applyStage trivial p.diff) fun _ _ hv hc => hv.on hc).imp
      (fun _ hv => hv) (fun _ _ hv => hv.2) fun _ hv => hv.clocked
  refine happlied.bind fun applied => ?_
  simp only
  split
  · exact (leads_of_heading (r := { r with stages := [applied] }) (hbears.runStages trivial _)
      (g.runStages_heading s _) w).pre fun _ hv => hv.of_heading rfl
  · exact .pure fun _ hv => hv.of_heading rfl

/-- **Every attempt has a result that is headed**, whatever stops it. -/
theorem attempt_headed (p : Patch) (w : World) :
    Leads (Clocked w) (g.attempt p) (fun r v => r.Headed p.id w v) (Clocked w) := by
  refine (g.tryPatch_headed p w).attempt.bind fun r => ?_
  cases r with
  | ok r => exact .pure fun _ hv => hv
  | error f =>
    exact (blankResult_headed p.id .filesystem w).bind fun r => .pure fun _ hv => hv.of_heading rfl

theorem attempts_headed (p : Patch) (left : Nat) (w : World) :
    Leads (Clocked w) (g.attempts p left) (fun r v => r.Headed p.id w v) (Clocked w) := by
  induction left with
  | zero => exact g.attempt_headed p w
  | succ left ih =>
    refine (g.attempt_headed p w).bind fun r => ?_
    split
    · exact ih.pre fun _ hv => hv.clocked
    · exact .pure fun _ hv => hv

theorem validate_headed (p : Patch) (w : World) :
    Leads (Clocked w) (g.validate p) (fun r v => r.Headed p.id w v) (Clocked w) := by
  refine (Leads.of_keeps g.bears_clocked.ensureBaseline w).bind fun _ =>
    (g.attempts_headed p _ w).bind fun r => ?_
  have hemit : Leads (fun v => r.Headed p.id w v) (Act.emit (event r))
      (fun _ v => True ∧ r.Headed p.id w v) (fun v => r.Headed p.id w v) :=
    Leads.of_obeys ((Act.emit_quiet _).weaken fun _ _ hq => hq.clock) fun _ _ hv hc => hv.on hc
  exact (hemit.stops fun _ hv => hv.clocked).bind fun _ => .pure fun _ hv => hv.2

/-- The results of some patches, in the order of these and under different names. -/
structure Answers (ps : List Patch) (w w' : World) (rs : List ValidationResult) : Prop where
  owners : rs.map ValidationResult.patchId = ps.map Patch.id
  names : (rs.map ValidationResult.id).Nodup
  headed : ∀ r ∈ rs, r.Headed r.patchId w w'

/-- One more result in front: its name was given out before those of the others. -/
theorem Answers.cons {p : Patch} {ps : List Patch} {w v w' : World} {r : ValidationResult}
    {rs : List ValidationResult} (hr : r.Headed p.id w v) (h : Answers ps v w' rs)
    (hclock : Clocked v w') : Answers (p :: ps) w w' (r :: rs) := by
  refine ⟨?_, List.nodup_cons.2 ⟨fun hmem => ?_, h.names⟩, List.forall_mem_cons.2
    ⟨hr.owner.symm ▸ hr.on hclock, fun x hx => (h.headed x hx).after hr.clocked⟩⟩
  · rw [List.map_cons, List.map_cons, hr.owner, h.owners]
  · obtain ⟨x, hx, hid⟩ := List.mem_map.1 hmem
    obtain ⟨m, -, hm, hname⟩ := hr.named
    obtain ⟨n, hn, -, hlater⟩ := (h.headed x hx).named
    have hsame : n = m := Supply.nameOf_inj ((hlater.symm.trans hid).trans hname)
    omega

theorem validateEach_answers {ps : List Patch} {rs : List ValidationResult}
    (h : (g.validateEach ps).run w = (.ok rs, w')) : Answers ps w w' rs := by
  induction ps generalizing w rs with
  | nil =>
    cases h
    exact ⟨rfl, List.nodup_nil, fun _ hr => (List.not_mem_nil hr).elim⟩
  | cons p ps ih =>
    obtain ⟨r, v, hfirst, h⟩ := run_ok_of_bind h
    obtain ⟨rs', v', hrest, h⟩ := run_ok_of_bind h
    cases h
    have hclock : Clocked v w' := ((g.bears_clocked.validateEach ps).of_run hrest).1
    exact (ih hrest).cons ((g.validate_headed p w).of_run (refl_of Clocked w) hfirst) hclock

/-- **Patches that are validated in a row all get their results**, of which no two have one name,
unless validations break down altogether. -/
theorem validateMany_answers (ps : List Patch) (hsound : w.outside.breakdown = none) :
    ∃ rs w', (g.validateMany ps).run w = (.ok rs, w') ∧ Answers ps w w' rs := by
  obtain ⟨cs, w', htrials⟩ := g.trials_returns ps w
  exact ⟨_, w', validateMany_of_trials hsound htrials,
    g.validateEach_answers (g.validateEach_of_trials htrials)⟩

end Gate

end RepairLoop
