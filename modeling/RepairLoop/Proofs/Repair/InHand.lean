import RepairLoop.Proofs.Repair.Course
import RepairLoop.Proofs.Repair.Process
import RepairLoop.Proofs.Store.Changes
/-!
# Repair — candidates in hand and on record

A candidate is moved in hand and stored then. What is known of a patch once it is stored
and as long as no other takes its name (`Lasts`) is known of all candidates in hand through
every loop over them (`moveEach_lasts`). That is so of what the store says of them
(`lasts_mirrored`), and of this together with the clock (`lasts_onRecord`): a candidate that
was stored once is refused for its time only, and then for good (`OnRecord.expired`).
-/

namespace RepairLoop

open Act (Keeps Obeys Leads)
open World (Apart Clocked Dated Expired Quiet)

/-! ## How far candidates have come -/

namespace Patch

/-- The patch was found invalid, was rejected, or waits for a review. -/
def PassedOver (p : Patch) : Prop :=
  p.applied = false ∧ (p.validationStatus = .invalid ∨ p.validationStatus = .rejected ∨
    (p.validationStatus = .pending ∧ p.needsReview = true))

/-- A patch that was never applied, and was passed over unless it is of some status. -/
structure Idle (statuses : List ValidationStatus) (p : Patch) : Prop where
  applied : p.applied = false
  rolledBack : p.rolledBack = false
  status : p.validationStatus ∈ statuses ∨ p.PassedOver

variable {p q : Patch} {a : PatchAction} {statuses : List ValidationStatus}

theorem PassedOver.not_validating (h : p.PassedOver) : p.validationStatus ≠ .validating := by
  rcases h.2 with h | h | h
  · rw [h]; decide
  · rw [h]; decide
  · rw [h.1]; decide

theorem Idle.mono {more : List ValidationStatus} (h : p.Idle statuses)
    (hsub : statuses ⊆ more) : p.Idle more :=
  ⟨h.applied, h.rolledBack, h.status.imp_left (hsub ·)⟩

theorem Idle.passedOver (h : p.Idle statuses) (hstatus : p.validationStatus ∉ statuses) :
    p.PassedOver := h.status.resolve_left hstatus

theorem Idle.state (h : p.Idle statuses) : p.state = .ofStatus p.validationStatus :=
  state_of_unapplied h.rolledBack h.applied

theorem Idle.not_validating (h : p.Idle [.valid]) : p.validationStatus ≠ .validating := by
  rcases h.status with hvalid | hpassed
  · rw [List.mem_singleton.1 hvalid]
    decide
  · exact hpassed.not_validating

/-- **A new candidate is validated or was passed over.** -/
theorem New.idle (h : p.New) (hstay : Session.isOpenCandidate p = false) : p.Idle [.validating] := by
  refine ⟨h.applied, h.rolledBack, .inr ⟨h.applied, ?_⟩⟩
  rcases h.status with hpending | hinvalid
  · have hstate : p.state = .pending := by
      rw [state_of_unapplied h.rolledBack h.applied, hpending]
      rfl
    rw [Session.isOpenCandidate, hstate] at hstay
    exact .inr (.inr ⟨hpending, by simpa using hstay⟩)
  · exact .inl hinvalid

theorem New.idle_begin (h : p.New) (hm : Moves p .begin q) : q.Idle [.validating] := by
  cases hm with
  | begin => exact ⟨h.applied, h.rolledBack, .inl (by simp)⟩

/-- **A result decides about a candidate**: it is valid, or invalid. -/
theorem Moves.idle_record {r : ValidationResult} {allow : Bool} (hm : Moves p (.record r allow) q) :
    q.Idle [.valid] := by
  obtain ⟨hrolled, hna⟩ := hm.unapplied (by simp)
  cases hm with
  | pass => exact ⟨hna, hrolled, .inl (by simp)⟩
  | fail => exact ⟨hna, hrolled, .inr ⟨hna, .inl rfl⟩⟩

/-- What is invalidated is passed over, and so is what is rejected. -/
theorem Moves.idle_invalidate {kind : ErrorKind} {review : Bool}
    (hm : Moves p (.invalidate kind review) q) : q.Idle [] := by
  obtain ⟨hrolled, hna⟩ := hm.unapplied (by simp)
  cases hm with
  | invalidate => exact ⟨hna, hrolled, .inr ⟨hna, .inl rfl⟩⟩

theorem Moves.idle_reject {kind : Option ErrorKind} (hm : Moves p (.reject kind) q) : q.Idle [] := by
  obtain ⟨hrolled, hna⟩ := hm.unapplied (by simp)
  cases hm with
  | reject => exact ⟨hna, hrolled, .inr ⟨hna, .inr (.inl rfl)⟩⟩

/-- A move that marks nothing leaves a patch that can be read. -/
theorem Moves.rule (hm : Moves p a q) (ha : ¬ Marking a) : q.rule = none := by
  refine rule_of_unapplied ?_
  have hna : p.applied = false := (hm.unapplied fun heq => ha (heq ▸ trivial)).2
  cases hm with
  | begin | invalidate | pass | fail | reject => exact hna
  | apply | rollBack => exact absurd trivial ha

end Patch

namespace Session

variable {p q : Patch} {ps us : List Patch}

/-! ## What is kept of the candidates in hand -/

/-- The store keeps what it says of all patches in hand. -/
def Mirroring (w w' : World) : Prop := ∀ p, w.store.Mirrors p → w'.store.Mirrors p

instance : IsPreorder World Mirroring where
  refl _ _ h := h
  trans _ _ _ h h' p hp := h' p (h p hp)

theorem mirroring_of_apart {α : Type} {x : Act α} (h : Keeps Apart x) : Keeps Mirroring x :=
  h.weaken fun _ _ ha _ hp => ha.store ▸ hp

theorem storing_mirroring {f : Store → Except StoreFault Store}
    (h : ∀ s s' p, f s = .ok s' → s.Mirrors p → s'.Mirrors p) : Keeps Mirroring (Act.storing f) :=
  Act.storing_keeps fun _ _ hs p hp => h _ _ p hs hp

theorem setIssueStatus_mirroring (id : String) (status : IssueStatus) (now : Moment) :
    Keeps Mirroring (Act.storing fun s => s.setIssueStatus id status now) :=
  storing_mirroring fun _ _ _ hs hp => hp.of_eq (Store.setIssueStatus_patches hs).1

theorem setStatus_mirroring (i : Issue) (status : IssueStatus) :
    Keeps Mirroring (setStatus i status) :=
  (mirroring_of_apart Act.now_apart).bind fun _ =>
    (setIssueStatus_mirroring _ _ _).bind fun _ => .pure trivial

/-- **A rollback changes nothing about how far any patch has come.** -/
theorem rollBack_mirroring (s : Session) (id : String) : Keeps Mirroring (s.rollBack id) := by
  refine (mirroring_of_apart (Act.stored_apart _)).bind fun known => ?_
  split
  · exact .throw
  · rename_i p
    refine Keeps.when .throw ?_
    refine (mirroring_of_apart (undo_apart _ p)).bind fun method => ?_
    refine (mirroring_of_apart (move_act p _).keeps).bind fun q => ?_
    refine (mirroring_of_apart Act.now_apart).bind fun now => ?_
    refine (storing_mirroring fun _ _ _ hs hp => hp.markRolledBack hs).bind fun _ => ?_
    refine (mirroring_of_apart Act.now_apart).bind fun now => ?_
    exact (setIssueStatus_mirroring _ _ _).bind fun _ =>
      (mirroring_of_apart (Act.emit_apart _)).bind fun _ => .pure trivial

/-- Such work leads on with all patches in hand. -/
theorem leads_of_mirroring {α : Type} {x : Act α} (hx : Keeps Mirroring x) (ps : List Patch) :
    Leads (fun w => ∀ p ∈ ps, w.store.Mirrors p) x (fun _ w => ∀ p ∈ ps, w.store.Mirrors p)
      (fun _ => True) :=
  ((Leads.of_obeys hx fun _ _ hw hm p hp => hm p (hw p hp)).post fun _ _ h => h.2).stops
    fun _ _ => trivial

/-! ## Storing a candidate -/

theorem keepPatch_run (p : Patch) (w : World) : (keepPatch p).run w =
    match w.store.putPatch { p with updatedAt := w.supply.now } with
    | .ok s => (.ok (), { w with supply := (Supply.readClock.run w.supply).2, store := s })
    | .error e => (.error e.toFault, { w with supply := (Supply.readClock.run w.supply).2 }) := by
  rw [keepPatch, Act.now, run_bind_of_ok (Act.supplied_run _ w), Act.storing_run]
  rfl

/-- What a candidate that was stored leaves in the store. -/
theorem keepPatch_put {w w' : World} (h : (keepPatch p).run w = (.ok (), w')) :
    w.store.putPatch { p with updatedAt := w.supply.now } = .ok w'.store := by
  rw [keepPatch_run] at h
  cases hput : w.store.putPatch { p with updatedAt := w.supply.now } with
  | ok s =>
    rw [hput] at h
    obtain rfl := (Prod.mk.inj h).2
    rfl
  | error e =>
    rw [hput] at h
    cases (Prod.mk.inj h).1

/-- What is known of a patch once it is stored, as long as no other takes its name. -/
structure Lasts (I : Patch → World → Prop) : Prop where
  quiet : ∀ p w w', Quiet w w' → I p w → I p w'
  stored : ∀ p w w', (keepPatch p).run w = (.ok (), w') → p.rule = none → I p w'
  others : ∀ p u w w', (keepPatch p).run w = (.ok (), w') → u.id ≠ p.id → I u w → I u w'

/-- **The store mirrors what was stored.** -/
theorem lasts_mirrored : Lasts fun p w => w.store.Mirrors p := by
  refine ⟨fun p w w' hq hp => hq.apart.store ▸ hp, fun p w w' hrun hrule => ?_,
    fun p u w w' hrun hne hu => hu.put (keepPatch_put hrun) hne⟩
  have hmirrors := Store.putPatch_mirrors (keepPatch_put hrun) hrule
  exact ⟨hmirrors.stored, fun r hr hid =>
    have hreflects := hmirrors.rows r hr hid
    ⟨hreflects.status, hreflects.review, hreflects.applied, hreflects.rule⟩⟩

/-- A patch is on record as it is in hand, and can be stored again as long as the clock does
not leave the calendar. -/
structure OnRecord (p : Patch) (w : World) : Prop where
  mirrored : w.store.Mirrors p
  storable : p.Storable
  dated : w.Dated

theorem lasts_onRecord : Lasts OnRecord := by
  refine ⟨fun p w w' hq hp => ?_, fun p w w' hrun hrule => ?_, fun p u w w' hrun hne hu => ?_⟩
  · exact ⟨lasts_mirrored.quiet p w w' hq hp.mirrored, hp.storable, hp.dated.on hq.clock⟩
  · obtain ⟨hstorable, hnow⟩ := Store.putPatch_storable (keepPatch_put hrun)
    exact ⟨lasts_mirrored.stored p w w' hrun hrule, hstorable, w.supply, hnow,
      (keepPatch_clocked p).of_run hrun |>.1⟩
  · exact ⟨lasts_mirrored.others p u w w' hrun hne hu.mirrored, hu.storable,
      hu.dated.on ((keepPatch_clocked p).of_run hrun).1⟩

/-- **A patch that is stored and not taken again is refused for its time**, and that is refused
for good. -/
theorem keepPatch_expired {w w' : World} {f : Fault} (hq : q.Storable)
    (hstored : ∃ r ∈ w.store.patches, r.id = q.id) (hdated : w.Dated)
    (hrun : (keepPatch q).run w = (.error f, w')) : w'.Expired := by
  have hnow : w.supply.now.toUniversal? = none := by
    by_contra hsome
    obtain ⟨s, hput⟩ := Store.putPatch_isOk hq hstored (Option.isSome_iff_ne_none.2 hsome)
    rw [keepPatch_run, hput] at hrun
    cases (Prod.mk.inj hrun).1
  exact (hdated.expired hnow).on ((keepPatch_clocked q).of_stop hrun)

/-- So is a candidate on record. -/
theorem OnRecord.expired {w w' : World} {f : Fault} (h : OnRecord p w) (hq : q.Storable)
    (hid : q.id = p.id) (hrun : (keepPatch q).run w = (.error f, w')) : w'.Expired := by
  obtain ⟨r, hr, hrid⟩ := h.mirrored.stored
  exact keepPatch_expired hq ⟨r, hr, hrid.trans hid.symm⟩ h.dated hrun

/-! ## Candidates one after the other -/

/-- Some of the candidates were moved; the others are as they were. -/
structure Moved (c : Patch → Bool) (a : PatchAction) (ps qs : List Patch) : Prop where
  names : qs.map Patch.id = ps.map Patch.id
  each : ∀ q ∈ qs, ∃ p ∈ ps, (c p = true ∧ Patch.Moves p a q) ∨ (c p = false ∧ q = p)

namespace Moved

variable {c : Patch → Bool} {a : PatchAction} {qs : List Patch}

theorem nil : Moved c a [] [] := ⟨rfl, fun _ hq => (List.not_mem_nil hq).elim⟩

/-- One more candidate was moved, or stays as it was. -/
theorem cons (h : Moved c a ps qs) (hid : q.id = p.id)
    (hq : (c p = true ∧ Patch.Moves p a q) ∨ (c p = false ∧ q = p)) :
    Moved c a (p :: ps) (q :: qs) := by
  refine ⟨?_, List.forall_mem_cons.2 ⟨⟨p, List.mem_cons_self, hq⟩, fun r hr => ?_⟩⟩
  · rw [List.map_cons, List.map_cons, hid, h.names]
  · obtain ⟨o, ho, hmoved⟩ := h.each r hr
    exact ⟨o, List.mem_cons_of_mem _ ho, hmoved⟩

end Moved

section

variable {I : Patch → World → Prop} (hI : Lasts I)

include hI

/-- What is known of all patches in hand is known once another is stored. -/
theorem keepPatch_lasts (hrule : p.rule = none) (hne : ∀ u ∈ us, u.id ≠ p.id) :
    Leads (fun w => ∀ u ∈ us, I u w) (keepPatch p) (fun _ w => I p w ∧ ∀ u ∈ us, I u w)
      (fun _ => True) := by
  intro w hw
  cases hrun : (keepPatch p).run w with
  | mk r w' =>
    cases r with
    | ok _ =>
      exact ⟨hI.stored p w w' hrun hrule, fun u hu => hI.others p u w w' hrun (hne u hu) (hw u hu)⟩
    | error f => trivial

theorem keepPatches_lasts_beside (hps : ∀ p ∈ ps, p.rule = none)
    (hnames : ((us ++ ps).map Patch.id).Nodup) :
    Leads (fun w => ∀ u ∈ us, I u w) (keepPatches ps) (fun _ w => ∀ u ∈ us ++ ps, I u w)
      (fun _ => True) := by
  induction ps generalizing us with
  | nil => exact .pure fun w hw => by rwa [List.append_nil]
  | cons p ps ih =>
    obtain ⟨hp, hrest⟩ := List.forall_mem_cons.1 hps
    have hsplit : us ++ p :: ps = (us ++ [p]) ++ ps := by simp
    have hne : ∀ u ∈ us, u.id ≠ p.id := by
      intro u hu
      rw [List.map_append, List.nodup_append] at hnames
      exact hnames.2.2 _ (List.mem_map_of_mem hu) _ (by simp)
    refine (keepPatch_lasts hI hp hne).bind fun _ => ?_
    rw [hsplit] at hnames ⊢
    refine (ih hrest hnames).pre fun w hw => ?_
    exact List.forall_mem_append.2 ⟨hw.2, List.forall_mem_singleton.2 hw.1⟩

/-- What is known of new candidates is known once they are stored. -/
theorem keepPatches_lasts (hps : ∀ p ∈ ps, p.rule = none) (hnames : (ps.map Patch.id).Nodup) :
    Leads (fun _ => True) (keepPatches ps) (fun _ w => ∀ p ∈ ps, I p w) (fun _ => True) :=
  (@keepPatches_lasts_beside ps [] I hI hps hnames).pre fun _ _ _ hu =>
    (List.not_mem_nil hu).elim

/-- The candidates are moved and stored one after the other beside others. -/
theorem moveEach_lasts_beside {c : Patch → Bool} {a : PatchAction} (ha : ¬ Patch.Marking a)
    (hnames : ((us ++ ps).map Patch.id).Nodup) :
    Leads (fun w => ∀ u ∈ us ++ ps, I u w) (moveEach c a ps)
      (fun qs w => Moved c a ps qs ∧ ∀ u ∈ us ++ qs, I u w) (fun _ => True) := by
  induction ps generalizing us with
  | nil => exact .pure fun w hw => ⟨.nil, hw⟩
  | cons p ps ih =>
    have hperm : (us ++ p :: ps).Perm (p :: (us ++ ps)) := List.perm_middle
    have hsplit (w : World) (hw : ∀ u ∈ us ++ p :: ps, I u w) : I p w ∧ ∀ u ∈ us ++ ps, I u w :=
      List.forall_mem_cons.1 fun u hu => hw u (hperm.mem_iff.2 hu)
    have hothers : ∀ u ∈ us ++ ps, u.id ≠ p.id := by
      have hfirst := (List.nodup_cons.1 ((hperm.map Patch.id).nodup_iff.1 hnames)).1
      exact fun u hu hid => hfirst (hid ▸ List.mem_map_of_mem hu)
    -- the candidate, moved or not, joins the others for the rest of the loop
    have hnext (q : Patch) (hid : q.id = p.id)
        (hq : (c p = true ∧ Patch.Moves p a q) ∨ (c p = false ∧ q = p)) :
        Leads (fun w => I q w ∧ ∀ u ∈ us ++ ps, I u w) (do
          let qs ← moveEach c a ps
          pure (q :: qs))
          (fun qs w => Moved c a (p :: ps) qs ∧ ∀ u ∈ us ++ qs, I u w) (fun _ => True) := by
      have hsame : (((us ++ [q]) ++ ps).map Patch.id).Nodup := by
        simpa [hid] using hnames
      have hjoin : ((us ++ [q]) ++ ps).Perm (q :: (us ++ ps)) := by
        rw [List.append_assoc, List.singleton_append]
        exact List.perm_middle
      refine ((ih hsame).pre fun w hw u hu => ?_).bind fun qs => .pure fun w hw => ⟨?_, ?_⟩
      · have hall : ∀ u ∈ q :: (us ++ ps), I u w := List.forall_mem_cons.2 hw
        exact hall u (hjoin.mem_iff.1 hu)
      · exact hw.1.cons hid hq
      · rw [← List.singleton_append, ← List.append_assoc]
        exact hw.2
    rw [moveEach]
    split
    · rename_i hc
      have hmove : Leads (fun w => ∀ u ∈ us ++ p :: ps, I u w) (move p a)
          (fun q w => Patch.Moves p a q ∧ ∀ u ∈ us ++ ps, I u w) (fun _ => True) :=
        (Leads.of_obeys (move_quiet p a) fun w w' hw hq u hu =>
          hI.quiet u w w' hq ((hsplit w hw).2 u hu)).stops fun _ _ => trivial
      have hmoved := hmove.bind fun q => .given fun hm =>
        (keepPatch_lasts hI (hm.rule ha) fun u hu => hm.id ▸ hothers u hu).bind fun _ =>
          hnext q hm.id (.inl ⟨hc, hm⟩)
      simpa only [bind_assoc, pure_bind] using hmoved
    · rename_i hc
      exact (hnext p rfl (.inr ⟨by simpa using hc, rfl⟩)).pre hsplit

/-- **What is known of the candidates in hand is known of them when they were moved and
stored.** -/
theorem moveEach_lasts (c : Patch → Bool) {a : PatchAction} (ha : ¬ Patch.Marking a)
    (hnames : (ps.map Patch.id).Nodup) :
    Leads (fun w => ∀ p ∈ ps, I p w) (moveEach c a ps)
      (fun qs w => Moved c a ps qs ∧ ∀ q ∈ qs, I q w) (fun _ => True) :=
  @moveEach_lasts_beside ps [] I hI c a ha hnames

end

end Session

end RepairLoop
