import RepairLoop.Proofs.Console.Listing
import RepairLoop.Proofs.Console.Withdrawal
import RepairLoop.Proofs.Repair.InHand
import RepairLoop.Proofs.Repair.Naming
import RepairLoop.Proofs.Store.Origin
import RepairLoop.Proofs.Store.Results
import RepairLoop.Proofs.Store.Sweep
/-!
# Console — a validation is refused as a whole or done as a whole

All patches of a validation are looked up before any is moved, so one that is unknown or does not
wait stops it before anything is done (`validate_refused`). Otherwise each name is read, moved,
tried and recorded on its own, also where it stands twice: the copies are all versions of the one
patch that is stored, so each that is put leaves the row a version of it (`Held.put`), and the last
one put carries the last result (`Underway.judge`). That is kept along both loops
(`beginEach_leads`, `recordEach_leads`), and so the whole comes to what was wanted
(`validate_underway`, `Underway.done`).
-/

namespace RepairLoop

open Act (Keeps Leads)
open World (Clocked Dated Expired)
open ValidationResult (Headed)

/-! ## Patches that wait, and patches that are judged -/

/-- The patch with the name can be read, and waits for its validation. -/
def Store.Waits (s : Store) (id : String) : Prop :=
  ∃ p, s.patch? id = .ok (some p) ∧ p.state = .pending

/-- The second patch is the first one as a result has judged it: only the verdict and the time of
the last change may differ. -/
def Patch.Judged (p : Patch) (allow : Bool) (r : ValidationResult) (q : Patch) : Prop :=
  ∃ time, q = { p with
    validationStatus := if r.passes allow then .valid else .invalid
    errorKind := if r.passes allow then none else some (r.errorKind.getD .securityFailure)
    updatedAt := time }

namespace Patch

variable {p q : Patch} {a : PatchAction} {allow : Bool} {r : ValidationResult}

theorem Version.of_begin (h : p.Version q) {q' : Patch} (hm : q.Moves .begin q') : p.Version q' := by
  cases hm with
  | begin => exact h.trans ⟨_, _, _, rfl⟩

/-- **A result judges the patch through any version of it.** -/
theorem Version.judged (h : p.Version q) {q' : Patch} (hm : q.Moves (.record r allow) q') :
    p.Judged allow r q' := by
  obtain ⟨_, _, _, rfl⟩ := h
  cases hm with
  | pass _ hpass => exact ⟨_, by rw [if_pos hpass, if_pos hpass]⟩
  | fail _ hfail => exact ⟨_, by rw [hfail]; rfl⟩

theorem Judged.version (h : p.Judged allow r q) : p.Version q := by
  obtain ⟨time, rfl⟩ := h
  exact ⟨_, _, _, rfl⟩

/-- It does not matter when. -/
theorem Judged.dated (h : p.Judged allow r q) (time : Moment) :
    p.Judged allow r { q with updatedAt := time } := by
  obtain ⟨_, rfl⟩ := h
  exact ⟨time, rfl⟩

/-- **What is judged is valid or invalid**, as the result has it, unless it was applied. -/
theorem Judged.state (h : p.Judged allow r q) (hrolled : p.rolledBack = false)
    (hna : p.applied = false) : q.state = if r.passes allow then .valid else .invalid := by
  have hstate : q.state = .ofStatus q.validationStatus :=
    state_of_unapplied (h.version.rolledBack.trans hrolled) (h.version.applied.trans hna)
  rw [hstate]
  obtain ⟨time, rfl⟩ := h
  cases r.passes allow <;> rfl

/-- What waits may begin. -/
theorem begin_isOk (h : p.state = .pending) (applied touched : Moment) :
    ∃ q, p.act .begin applied touched = .ok q := by
  have hmove : p.canMove .validating = true := by rw [canMove, h]; rfl
  rw [act, require, if_pos hmove]
  exact ⟨_, rfl⟩

/-- What is being validated takes each result of its own. -/
theorem record_isOk (h : p.state = .validating) (howner : r.patchId = p.id) (allow : Bool)
    (applied touched : Moment) : ∃ q, p.act (.record r allow) applied touched = .ok q := by
  have hvalid : p.canMove .valid = true := by rw [canMove, h]; rfl
  have hinvalid : p.canMove .invalid = true := by rw [canMove, h]; rfl
  simp only [act, require, howner, bne_self_eq_false, Bool.false_eq_true, if_false, hvalid,
    hinvalid, if_true]
  split <;> exact ⟨_, rfl⟩

end Patch

/-! ## The store while patches are validated -/

namespace Store

/-- Nothing has changed since the start but the rows of the patches with some names, which are
versions of what they were. -/
structure Held (start : Store) (ids : List String) (s : Store) : Prop where
  issues : s.issues = start.issues
  others : s.patches.filter (·.id ∉ ids) = start.patches.filter (·.id ∉ ids)
  rows : ∀ id ∈ ids, ∃ p q, start.rawPatch? id = some p ∧ s.rawPatch? id = some q ∧ p.Version q

/-- And some results have been recorded: the row of each patch that has one is as the last of its
results has judged it. -/
structure Underway (start : Store) (ids : List String) (allow : Bool) (rs : List ValidationResult)
    (s : Store) : Prop extends Held start ids s where
  results : s.results = start.results ++ rs.map StoredResult.of
  judged : ∀ id ∈ ids, ∀ r, (rs.filter (·.patchId == id)).getLast? = some r →
    ∃ p q, start.rawPatch? id = some p ∧ s.rawPatch? id = some q ∧ p.Judged allow r q

variable {start s s' : Store} {ids : List String} {allow : Bool} {rs : List ValidationResult}
variable {p q : Patch} {r : ValidationResult} {now : Moment}

theorem Waits.rawPatch? {id : String} (h : s.Waits id) :
    ∃ p, s.rawPatch? id = some p ∧ p.state = .pending := by
  obtain ⟨p, hread, hpending⟩ := h
  exact ⟨p, rawPatch?_of_read hread, hpending⟩

/-- **At the start** nothing has changed. -/
theorem held_start (h : ∀ id ∈ ids, start.Waits id) : Held start ids start := by
  refine ⟨rfl, rfl, fun id hid => ?_⟩
  obtain ⟨p, hp, -⟩ := (h id hid).rawPatch?
  exact ⟨p, p, hp, hp, .refl p⟩

/-- **A version that is put becomes the row**, whichever version stood there; all other rows
stay. -/
theorem Held.put (h : Held start ids s) (hlasts : start.Lasting) (hid : p.id ∈ ids)
    (hp : start.rawPatch? p.id = some p) (hq : p.Version q)
    (hput : s.putPatch { q with updatedAt := now } = .ok s') :
    Held start ids s' ∧ s'.results = s.results ∧
      s'.rawPatch? p.id = some { q with updatedAt := now.universal } ∧
      ∀ id, id ≠ p.id → s'.rawPatch? id = s.rawPatch? id := by
  obtain ⟨_, row, hstart, hrow, hversion⟩ := h.rows p.id hid
  obtain rfl := Option.some.inj (hp.symm.trans hstart)
  obtain ⟨hfound, hissues, hresults, hothers⟩ :=
    putPatch_version (hlasts p (rawPatch?_eq_some hp).1) hrow hversion hq hput
  have hkeep : ∀ id, id ≠ p.id → s'.rawPatch? id = s.rawPatch? id :=
    fun id hne => rawPatch?_of_others hne hothers
  refine ⟨⟨hissues.trans h.issues, ?_, fun id hmem => ?_⟩, hresults, hfound, hkeep⟩
  · -- the rows of the other names are among those that are not of this one
    have hfilter (t : Store) : t.patches.filter (·.id ∉ ids) =
        (t.patches.filter (·.id != p.id)).filter (·.id ∉ ids) := by
      rw [List.filter_filter]
      refine List.filter_congr fun o _ => ?_
      by_cases ho : o.id = p.id
      · simp [ho, hid]
      · simp [ho]
    rw [hfilter, hothers, ← hfilter, h.others]
  · by_cases hsame : id = p.id
    · subst hsame
      exact ⟨p, _, hp, hfound, hq.trans ⟨_, _, _, rfl⟩⟩
    · rw [hkeep id hsame]
      exact h.rows id hmem

/-- **The result that was recorded last judges its patch**, and the others stay as they were
judged. -/
theorem Underway.judge (h : Underway start ids allow rs s) (hlasts : start.Lasting)
    (hid : p.id ∈ ids) (hp : start.rawPatch? p.id = some p) (hq : p.Version q) {q' : Patch}
    (hm : q.Moves (.record r allow) q') (howner : r.patchId = p.id)
    (hput : ({ s with results := s.results ++ [StoredResult.of r] } : Store).putPatch
      { q' with updatedAt := now } = .ok s') :
    Underway start ids allow (rs ++ [r]) s' := by
  have hadded : Held start ids { s with results := s.results ++ [StoredResult.of r] } :=
    ⟨h.issues, h.others, h.rows⟩
  have hjudged := hq.judged hm
  obtain ⟨hheld, hresults, hrow, hothers⟩ := hadded.put hlasts hid hp hjudged.version hput
  refine ⟨hheld, ?_, fun id hmem x hlast => ?_⟩
  · rw [hresults, h.results, List.map_append, List.append_assoc]
    rfl
  · by_cases hsame : id = p.id
    · subst hsame
      have hx : r = x := by
        rw [List.filter_append, List.filter_cons_of_pos (by simpa using howner), List.filter_nil,
          List.getLast?_concat] at hlast
        exact Option.some.inj hlast
      exact ⟨p, _, hp, hrow, hx ▸ hjudged.dated _⟩
    · have hother : (r.patchId == id) = false := by
        rw [howner, beq_eq_false_iff_ne]
        exact Ne.symm hsame
      rw [List.filter_append, List.filter_cons_of_neg (by simp [hother]), List.filter_nil,
        List.append_nil] at hlast
      obtain ⟨o, q, ho, hq, hjudged⟩ := h.judged id hmem x hlast
      exact ⟨o, q, ho, (hothers id hsame).trans hq, hjudged⟩

/-! ### What has become of the patches -/

/-- The patch with the name is as the last of its results has judged it: valid if that passes, and
else invalid. -/
def Settled (start : Store) (allow : Bool) (recorded : List StoredResult) (s : Store)
    (id : String) : Prop :=
  ∃ p q k, start.patch? id = .ok (some p) ∧ s.patch? id = .ok (some q) ∧
    (recorded.filter (·.result.patchId == id)).getLast? = some k ∧ p.Judged allow k.result q ∧
    q.state = if k.result.passes allow then .valid else .invalid

/-- Each of the patches has one result for each time that it was named, and is as the last of them
has judged it. Nothing else has changed, and none of the patches is being validated any more. -/
structure Validated (start : Store) (ids : List String) (allow : Bool)
    (recorded : List StoredResult) (s : Store) : Prop where
  results : s.results = start.results ++ recorded
  owners : recorded.map (·.result.patchId) = ids
  settled : ∀ id ∈ ids, Settled start allow recorded s id
  issues : s.issues = start.issues
  others : s.patches.filter (·.id ∉ ids) = start.patches.filter (·.id ∉ ids)
  idle : ∀ q ∈ s.patches, q.state = .validating → q ∈ start.patches ∧ q.id ∉ ids

/-- The last result for a patch decides, as it is stored. -/
theorem Underway.settled (h : Underway start ids allow rs s) (hwaits : ∀ id ∈ ids, start.Waits id)
    (howners : rs.map ValidationResult.patchId = ids) {id : String} (hid : id ∈ ids) :
    Settled start allow (rs.map StoredResult.of) s id := by
  obtain ⟨p, hread, hpending⟩ := hwaits id hid
  have hpending : p.state = .ofStatus .pending := hpending
  -- the name was asked for, so there is a result for it, and one is the last
  obtain ⟨x, hx, hname⟩ := List.mem_map.1 (howners ▸ hid)
  have hsome : (rs.filter (·.patchId == id)).getLast?.isSome = true :=
    List.getLast?_isSome.2 (List.ne_nil_of_mem (List.mem_filter.2 ⟨hx, by simpa using hname⟩))
  obtain ⟨r, hr⟩ := Option.isSome_iff_exists.1 hsome
  obtain ⟨o, q, ho, hq, hjudged⟩ := h.judged id hid r hr
  obtain rfl := Option.some.inj ((rawPatch?_of_read hread).symm.trans ho)
  obtain ⟨hrolled, hunapplied, -⟩ := Patch.state_eq_ofStatus.1 hpending
  have hrule : q.rule = none :=
    Patch.rule_of_unapplied (hjudged.version.applied.trans hunapplied)
  refine ⟨p, q, StoredResult.of r, hread, patch?_of_raw hq hrule, ?_, hjudged,
    hjudged.state hrolled hunapplied⟩
  rw [List.filter_map, List.getLast?_map]
  exact congrArg (Option.map StoredResult.of) hr

/-- **Where every patch that was named has been judged**, all of them are settled. -/
theorem Underway.done (h : Underway start ids allow rs s)
    (hwaits : ∀ id ∈ ids, start.Waits id) (howners : rs.map ValidationResult.patchId = ids)
    (hkeyed : s.Keyed) : Validated start ids allow (rs.map StoredResult.of) s where
  results := h.results
  owners := by
    rw [List.map_map]
    exact howners
  settled _ hid := h.settled hwaits howners hid
  issues := h.issues
  others := h.others
  idle q hq hvalidating := by
    have hout : q.id ∉ ids := by
      intro hid
      obtain ⟨-, o, k, -, ho, -, -, hstate⟩ := h.settled hwaits howners hid
      obtain ⟨ho, hname⟩ := patch?_eq_some ho
      rw [hkeyed.eq_of_id ho hq hname, hvalidating] at hstate
      split at hstate <;> cases hstate
    have hkept : q ∈ start.patches.filter (·.id ∉ ids) :=
      h.others ▸ List.mem_filter.2 ⟨hq, by simpa using hout⟩
    exact ⟨List.mem_of_mem_filter hkept, hout⟩

end Store

/-! ## Steps of a validation -/

/-- The store is of a kind, the clock has shown a time of the calendar, and validations do not
break down altogether. -/
structure World.Timely (P : Store → Prop) (w : World) : Prop where
  store : P w.store
  dated : w.Dated
  sound : w.outside.breakdown = none

open World (Timely)
open Store (Held Underway)

namespace Session

variable {p q : Patch} {a : PatchAction} {P Q : Store → Prop}

/-- A change that the store takes. -/
theorem storing_timely {f : Store → Except StoreFault Store} (hok : ∀ s, P s → ∃ s', f s = .ok s')
    (hf : ∀ s s', P s → f s = .ok s' → Q s') :
    Leads (Timely P) (Act.storing f) (fun _ => Timely Q) Expired := by
  intro w hw
  obtain ⟨s', hs'⟩ := hok w.store hw.store
  rw [Act.storing_run, hs']
  exact ⟨hf _ _ hw.store hs', hw.dated, hw.sound⟩

theorem move_timely (h : ∀ applied touched, ∃ q, p.act a applied touched = .ok q) :
    Leads (Timely P) (move p a) (fun q w => p.Moves a q ∧ w.Timely P) Expired := by
  intro w hw
  obtain ⟨q, w', hrun⟩ := move_isOk h w
  obtain ⟨hquiet, hm⟩ := (move_quiet p a).of_run hrun
  rw [hrun]
  exact ⟨hm, hquiet.apart.store ▸ hw.store, hw.dated.on hquiet.clock,
    hquiet.apart.outside ▸ hw.sound⟩

/-- **A patch that is stored is put again**, as long as the clock shows times of the calendar. -/
theorem keepPatch_timely (hq : q.Storable) (hstored : ∀ s, P s → ∃ r ∈ s.patches, r.id = q.id)
    (hput : ∀ s s' now, P s → s.putPatch { q with updatedAt := now } = .ok s' → Q s') :
    Leads (Timely P) (keepPatch q) (fun _ => Timely Q) Expired := by
  intro w hw
  cases hrun : (keepPatch q).run w with
  | mk r w' =>
    cases r with
    | ok _ =>
      have houtside : w'.outside = w.outside := by
        rw [keepPatch_run] at hrun
        split at hrun <;> rw [← (Prod.mk.inj hrun).2]
      exact ⟨hput _ _ _ hw.store (keepPatch_put hrun),
        hw.dated.on ((keepPatch_clocked q).of_run hrun).1, houtside ▸ hw.sound⟩
    | error f => exact keepPatch_expired hq (hstored _ hw.store) hw.dated hrun

end Session

namespace Console

open Session (storing_timely move_timely keepPatch_timely)

variable {start : Store} {ids : List String} {allow : Bool} {rs : List ValidationResult}
variable {q : Patch} {r : ValidationResult}

/-! ## Both loops -/

/-- A copy of one of the patches, that is being validated. -/
structure Begun (start : Store) (ids : List String) (q : Patch) : Prop where
  named : q.id ∈ ids
  version : ∃ p, start.rawPatch? q.id = some p ∧ p.Version q
  state : q.state = .validating

/-- Of the patches with the names each has a row. -/
theorem stored_of_held {s : Store} {id : String} (h : Held start ids s) (hid : id ∈ ids) :
    ∃ o ∈ s.patches, o.id = id := by
  obtain ⟨_, o, -, ho, -⟩ := h.rows id hid
  exact ⟨o, Store.rawPatch?_eq_some ho⟩

/-- **Every patch begins**, whichever have begun before it. -/
theorem beginEach_leads {ps : List Patch} (hlasts : start.Lasting)
    (hps : ∀ p ∈ ps, p.id ∈ ids ∧ start.rawPatch? p.id = some p ∧ p.state = .pending) :
    Leads (Timely fun s => Held start ids s ∧ s.results = start.results) (beginEach ps)
      (fun qs w => (qs.map Patch.id = ps.map Patch.id ∧ ∀ q ∈ qs, Begun start ids q) ∧
        w.Timely fun s => Held start ids s ∧ s.results = start.results) Expired := by
  induction ps with
  | nil => exact .pure fun w hw => ⟨⟨rfl, fun _ hq => (List.not_mem_nil hq).elim⟩, hw⟩
  | cons p ps ih =>
    obtain ⟨⟨hid, hp, hpending⟩, hrest⟩ := List.forall_mem_cons.1 hps
    refine (move_timely (Patch.begin_isOk hpending)).bind fun q => .given fun hm => ?_
    have hversion : p.Version q := (Patch.Version.refl p).of_begin hm
    have hstorable := hversion.storable (hlasts p (Store.rawPatch?_eq_some hp).1)
    -- where the name has stood before the row is no longer the copy, but a version of it still
    refine Leads.bind (keepPatch_timely hstorable
      (Q := fun s => Held start ids s ∧ s.results = start.results)
      (fun s hs => stored_of_held hs.1 (hm.id ▸ hid)) fun s s' now hs hput => ?_) fun _ => ?_
    · obtain ⟨hheld, hresults, -⟩ := hs.1.put hlasts hid hp hversion hput
      exact ⟨hheld, hresults.trans hs.2⟩
    · refine (ih hrest).bind fun qs => .pure fun w hw => ?_
      obtain ⟨⟨hnames, hbegun⟩, hw⟩ := hw
      have hbegin : Begun start ids q := ⟨hm.id ▸ hid, ⟨p, hm.id ▸ hp, hversion⟩, hm.state⟩
      exact ⟨⟨by rw [List.map_cons, List.map_cons, hm.id, hnames],
        List.forall_mem_cons.2 ⟨hbegin, hbegun⟩⟩, hw⟩

/-- The store takes the result whenever that is recorded: its name is not that of a stored one, and
its time is one of the calendar. -/
structure Recordable (start : Store) (r : ValidationResult) : Prop where
  free : ∀ k ∈ start.results, k.result.id ≠ r.id
  time : r.timestamp.toUniversal?.isSome = true

/-- **A result of its own decides about a copy**, and so about the patch. -/
theorem recordResult_leads (hlasts : start.Lasting) (hq : Begun start ids q)
    (hr : Recordable start r) (howner : r.patchId = q.id) (hnew : ∀ x ∈ rs, x.id ≠ r.id) :
    Leads (Timely (Underway start ids allow rs)) (Session.recordResult allow q r)
      (fun _ => Timely (Underway start ids allow (rs ++ [r]))) Expired := by
  obtain ⟨p, hp, hversion⟩ := hq.version
  have hid : p.id = q.id := hversion.id.symm
  have hfound : start.rawPatch? p.id = some p := hid ▸ hp
  have hadd (s : Store) (hs : Underway start ids allow rs s) : ∃ s', s.addResult r = .ok s' := by
    refine (Store.addResult_isOk_iff fun k hk => ?_).2 ⟨?_, hr.time⟩
    · rw [hs.results] at hk
      rcases List.mem_append.1 hk with hk | hk
      · exact hr.free k hk
      · obtain ⟨x, hx, rfl⟩ := List.mem_map.1 hk
        exact hnew x hx
    · obtain ⟨_, o, -, ho, -⟩ := hs.rows r.patchId (howner ▸ hq.named)
      exact Option.isSome_of_eq_some ho
  -- between the two changes the result is on record, and the row is as it was before
  refine Leads.bind (storing_timely (Q := fun s => ∃ s₀, Underway start ids allow rs s₀ ∧
    s = { s₀ with results := s₀.results ++ [StoredResult.of r] }) hadd
    fun s s' hs hs' => ⟨s, hs, (Store.addResult_kept hs').1⟩) fun _ => ?_
  refine (move_timely (Patch.record_isOk hq.state howner allow)).bind fun q' => .given fun hm => ?_
  have hstorable : q'.Storable :=
    (hversion.judged hm).version.storable (hlasts p (Store.rawPatch?_eq_some hp).1)
  refine Leads.bind (keepPatch_timely hstorable ?_ ?_) fun _ => .pure fun _ hw => hw
  · rintro _ ⟨s₀, hs₀, rfl⟩
    obtain ⟨o, ho, hname⟩ := stored_of_held hs₀.toHeld (hm.id ▸ hq.named)
    exact ⟨o, ho, hname⟩
  · rintro _ s' now ⟨s₀, hs₀, rfl⟩ hput
    exact hs₀.judge hlasts (hid ▸ hq.named) hfound hversion hm (howner.trans hid.symm) hput

theorem recordEach_leads {es : List (Patch × ValidationResult)} (hlasts : start.Lasting)
    (hes : ∀ e ∈ es, Begun start ids e.1 ∧ Recordable start e.2 ∧ e.2.patchId = e.1.id)
    (hnames : ((rs ++ es.map Prod.snd).map ValidationResult.id).Nodup) :
    Leads (Timely (Underway start ids allow rs)) (recordEach allow es)
      (fun _ => Timely (Underway start ids allow (rs ++ es.map Prod.snd))) Expired := by
  induction es generalizing rs with
  | nil => exact .pure fun w hw => by rwa [List.map_nil, List.append_nil]
  | cons e rest ih =>
    obtain ⟨⟨hbegun, hr, howner⟩, hrest⟩ := List.forall_mem_cons.1 hes
    have hsplit : rs ++ (e :: rest).map Prod.snd = (rs ++ [e.2]) ++ rest.map Prod.snd := by simp
    have hnew : ∀ x ∈ rs, x.id ≠ e.2.id := by
      intro x hx
      rw [List.map_append, List.nodup_append] at hnames
      exact hnames.2.2 _ (List.mem_map_of_mem hx) _ (by simp)
    rw [hsplit] at hnames ⊢
    exact (recordResult_leads hlasts hbegun hr howner hnew).bind fun _ => ih hrest hnames

/-! ## The whole validation -/

/-- **All patches are looked up** exactly if all of them wait. -/
theorem pendingPatches_isOk {store : Store} (h : ∀ id ∈ ids, store.Waits id) :
    ∃ ps, pendingPatches store ids = .ok (.ok ps) := by
  induction ids with
  | nil => exact ⟨[], rfl⟩
  | cons id ids ih =>
    obtain ⟨⟨p, hread, hpending⟩, hrest⟩ := List.forall_mem_cons.1 h
    obtain ⟨ps, hps⟩ := ih hrest
    refine ⟨p :: ps, ?_⟩
    rw [pendingPatches, hread]
    show (if p.state != .pending then _ else pendingPatches store ids >>= _) = _
    rw [hpending, hps]
    rfl

theorem waits_of_pendingPatches {store : Store} {ps : List Patch}
    (h : pendingPatches store ids = .ok (.ok ps)) : ∀ id ∈ ids, store.Waits id := by
  obtain ⟨rfl, hread⟩ := pendingPatches_read h
  exact List.forall_mem_map.2 fun p hp => ⟨p, hread p hp⟩

section

variable {s : Session} {w u : World} {e : Except Fault Ending}

/-- **Where one of the patches does not wait nothing is done** but to say so. -/
theorem validate_refused (h : ∃ id ∈ ids, ¬ w.store.Waits id)
    (hrun : (validate s ids).run w = (e, u)) :
    e ≠ .ok .good ∧ ∃ printed, u = { w with printed } := by
  rw [validate, run_bind_eq, Act.stored_run] at hrun
  cases hlookup : pendingPatches w.store ids with
  | error f =>
    rw [hlookup] at hrun
    obtain ⟨rfl, rfl⟩ := Prod.mk.inj hrun
    exact ⟨by rintro ⟨⟩, _, rfl⟩
  | ok found =>
    rw [hlookup] at hrun
    cases found with
    | error m =>
      obtain ⟨rfl, rfl⟩ := Prod.mk.inj hrun
      exact ⟨by rintro ⟨⟩, _, rfl⟩
    | ok ps =>
      obtain ⟨id, hid, hwaits⟩ := h
      exact absurd (waits_of_pendingPatches hlookup id hid) hwaits

theorem beginEach_clocked (ps : List Patch) : Keeps Clocked (beginEach ps) := by
  induction ps with
  | nil => exact .pure trivial
  | cons p ps ih =>
    exact (Session.move_clocked p _).bind fun q => (Session.keepPatch_clocked q).bind fun _ =>
      ih.bind fun _ => .pure trivial

theorem recordEach_clocked (es : List (Patch × ValidationResult)) :
    Keeps Clocked (recordEach allow es) := by
  induction es with
  | nil => exact .pure trivial
  | cons e rest ih =>
    have hrecord : Keeps Clocked (Session.recordResult allow e.1 e.2) :=
      (Act.storing_clocked _).bind fun _ => (Session.move_clocked _ _).bind fun q =>
        (Session.keepPatch_clocked q).bind fun _ => .pure trivial
    exact hrecord.bind fun _ => ih

theorem say_clocked (text : String) : Keeps Clocked (say text) :=
  Keeps.modify fun w => refl_of Clocked w

/-- The results stand beside the copies that they are of. -/
theorem owners_zip {qs : List Patch} (h : rs.map ValidationResult.patchId = qs.map Patch.id) :
    rs.length = qs.length ∧ ∀ e ∈ qs.zip rs, e.2.patchId = e.1.id := by
  have hlength : rs.length = qs.length := by simpa using congrArg List.length h
  refine ⟨hlength, fun e he => ?_⟩
  rw [← List.forall₂_eq_eq_eq, List.forall₂_map_left_iff, List.forall₂_map_right_iff] at h
  exact (List.forall₂_iff_zip.1 h.flip).2 he

theorem say_timely {P : Store → Prop} (text : String) :
    Leads (Timely P) (say text) (fun _ => Timely P) Expired :=
  fun _ hw => ⟨hw.store, hw.dated, hw.sound⟩

/-- What is left of a validation once all patches have been tried. -/
def conclude (allow : Bool) (qs : List Patch) (rs : List ValidationResult) : Act Ending := do
  recordEach allow (qs.zip rs)
  say (ValidationResult.report rs)
  pure .good

theorem conclude_clocked (allow : Bool) (qs : List Patch) (rs : List ValidationResult) :
    Keeps Clocked (conclude allow qs rs) :=
  (recordEach_clocked _).bind fun _ => (say_clocked _).bind fun _ => .pure trivial

/-- **What was tried is recorded**, and the validation ends well. -/
theorem conclude_leads (allow : Bool) {qs : List Patch} (hlasts : start.Lasting)
    (hqs : ∀ q ∈ qs, Begun start ids q) (hrs : ∀ r ∈ rs, Recordable start r)
    (howners : rs.map ValidationResult.patchId = qs.map Patch.id)
    (hnames : (rs.map ValidationResult.id).Nodup) :
    Leads (Timely (Underway start ids allow [])) (conclude allow qs rs)
      (fun ending w => ending = .good ∧ w.Timely (Underway start ids allow rs)) Expired := by
  obtain ⟨hlength, hzip⟩ := owners_zip howners
  have hresults : (qs.zip rs).map Prod.snd = rs := List.map_snd_zip (Nat.le_of_eq hlength)
  have hes : ∀ e ∈ qs.zip rs, Begun start ids e.1 ∧ Recordable start e.2 ∧
      e.2.patchId = e.1.id := fun e he =>
    ⟨hqs e.1 (List.of_mem_zip he).1, hrs e.2 (List.of_mem_zip he).2, hzip e he⟩
  have hrecords : Leads (Timely (Underway start ids allow [])) (recordEach allow (qs.zip rs))
      (fun _ => Timely (Underway start ids allow ([] ++ (qs.zip rs).map Prod.snd))) Expired :=
    recordEach_leads hlasts hes (by rw [hresults]; exact hnames)
  rw [hresults, List.nil_append] at hrecords
  exact hrecords.bind fun _ => (say_timely _).bind fun _ => .pure fun _ hw => ⟨rfl, hw⟩

/-- The clock shows times of the calendar, and the names that it will give out are not those of
the results of a store. -/
structure Supplied (start : Store) (w u : World) : Prop where
  free : ∀ n, w.supply.given < n → ∀ k ∈ start.results, k.result.id ≠ Supply.nameOf n
  first : w.supply.now.toUniversal?.isSome = true
  last : u.supply.now.toUniversal?.isSome = true

namespace Supplied

variable {v v' : World}

/-- What has expired stays so. -/
theorem not_expired (h : Supplied start w u) : ¬ u.Expired := by
  intro hu
  have hlast := h.last
  rw [hu u.supply (refl_of Clocked u)] at hlast
  cases hlast

/-- **New results are taken**: their names are new, and their times lie between two times of the
calendar. -/
theorem recordable {qs : List Patch} (h : Supplied start w u) (hanswers : Gate.Answers qs v v' rs)
    (hbefore : Clocked w v) (hbehind : Clocked v' u) : ∀ r ∈ rs, Recordable start r := by
  intro r hr
  obtain ⟨-, ⟨n, hn, -, hname⟩, t, hearly, hlate, htime⟩ := hanswers.headed r hr
  have hdated : t.now.toUniversal?.isSome = true :=
    (hbefore.trans hearly).within (hlate.trans hbehind) h.first h.last
  exact ⟨fun k hk => hname ▸ h.free n (Nat.lt_of_le_of_lt hbefore.given hn) k hk, htime ▸ hdated⟩

end Supplied

/-- What is left of a validation once all patches have begun. -/
def proceed (s : Session) (qs : List Patch) : Act Ending := do
  conclude s.settings.validation.allowSecurityWarnings qs (← s.gate.validateMany qs)

/-- **What has begun is tried and recorded.** -/
theorem proceed_underway {v : World} {qs : List Patch} (hlasts : start.Lasting)
    (hqs : ∀ q ∈ qs, Begun start ids q) (hsupplied : Supplied start w u) (hclock : Clocked w v)
    (hv : v.Timely fun s => Held start ids s ∧ s.results = start.results)
    (hrun : (proceed s qs).run v = (e, u)) :
    e = .ok .good ∧ ∃ rs, rs.map ValidationResult.patchId = qs.map Patch.id ∧
      Underway start ids s.settings.validation.allowSecurityWarnings rs u.store := by
  obtain ⟨rs, v', hvalidated, hanswers⟩ := s.gate.validateMany_answers qs hv.sound
  obtain ⟨happ, -⟩ := (s.gate.bears_apart.validateMany qs).of_run hvalidated
  obtain ⟨hbetween, -⟩ := (s.gate.bears_clocked.validateMany qs).of_run hvalidated
  rw [proceed, run_bind_of_ok hvalidated] at hrun
  generalize s.settings.validation.allowSecurityWarnings = allow at hrun ⊢
  have hbehind : Clocked v' u := by
    have hkept := (conclude_clocked allow qs rs v').1
    rwa [hrun] at hkept
  have hconclude := conclude_leads allow hlasts hqs
    (hsupplied.recordable hanswers hclock hbehind) hanswers.owners hanswers.names
  -- the trials leave the store alone, so no result is on record yet
  have hnone : v'.Timely (Underway start ids allow []) := by
    obtain ⟨⟨hheld, hsame⟩, hdated, hsound⟩ := hv
    refine ⟨happ.store ▸ ⟨hheld, ?_, fun _ _ _ hnone => by cases hnone⟩, hdated.on hbetween,
      happ.outside ▸ hsound⟩
    rw [hsame]
    exact (List.append_nil _).symm
  cases e with
  | error f => exact absurd (hconclude.of_stop hnone hrun) hsupplied.not_expired
  | ok ending =>
    obtain ⟨rfl, hdone⟩ := hconclude.of_run hnone hrun
    exact ⟨rfl, rs, hanswers.owners, hdone.store⟩

/-- **Where all patches wait all are validated**, and all results are recorded. -/
theorem validate_underway (hlasts : w.store.Lasting) (hwaits : ∀ id ∈ ids, w.store.Waits id)
    (hsound : w.outside.breakdown = none) (hsupplied : Supplied w.store w u)
    (hrun : (validate s ids).run w = (e, u)) :
    e = .ok .good ∧ ∃ rs, rs.map ValidationResult.patchId = ids ∧
      Underway w.store ids s.settings.validation.allowSecurityWarnings rs u.store := by
  obtain ⟨ps, hps⟩ := pendingPatches_isOk hwaits
  obtain ⟨hids, hread⟩ := pendingPatches_read hps
  have hlookup : (Act.stored fun store => pendingPatches store ids).run w = (.ok (.ok ps), w) := by
    rw [Act.stored_run, hps]
    rfl
  have hstart : w.Timely fun s => Held w.store ids s ∧ s.results = w.store.results :=
    ⟨⟨Store.held_start hwaits, rfl⟩, ⟨w.supply, hsupplied.first, .refl _⟩, hsound⟩
  have hbegins := beginEach_leads hlasts fun p hp =>
    ⟨hids ▸ List.mem_map_of_mem hp, Store.rawPatch?_of_read (hread p hp).1, (hread p hp).2⟩
  have hrun : (beginEach ps >>= proceed s).run w = (e, u) := by
    rw [validate, run_bind_of_ok hlookup] at hrun
    exact hrun
  cases hbegin : (beginEach ps).run w with
  | mk begun v =>
    have hclock : Clocked w v := by
      have hkept := (beginEach_clocked ps w).1
      rwa [hbegin] at hkept
    rw [run_bind_eq, hbegin] at hrun
    cases begun with
    | error f =>
      obtain ⟨-, rfl⟩ := Prod.mk.inj hrun
      exact absurd (hbegins.of_stop hstart hbegin) hsupplied.not_expired
    | ok qs =>
      obtain ⟨⟨hnames, hqs⟩, hv⟩ := hbegins.of_run hstart hbegin
      obtain ⟨hgood, rs, howners, hdone⟩ := proceed_underway hlasts hqs hsupplied hclock hv hrun
      exact ⟨hgood, rs, howners.trans (hnames.trans hids), hdone⟩

/-! ## The command -/

/-- **The program does the job that its words ask for**, and ends with the code of its ending, or
with 1 where a fault stops it. -/
theorem finish_run {words : List String} {i : Invocation} {done : Finished}
    (hread : Invocation.read words = .ok i) (hrun : (finish words).run w = (done, u)) :
    ∃ e, (perform i).run { w with printed := [] } = (e, u) ∧
      done.code = match e with | .ok ending => ending.code | .error _ => 1 := by
  rw [finish, hread] at hrun
  cases hperform : (perform i).run { w with printed := [] } with
  | mk e v =>
    have hperform : StateT.run (ExceptT.run (perform i)) { w with printed := [] } = (e, v) :=
      hperform
    simp only [StateT.run_bind, StateT.run_modify, StateT.run_get, pure_bind, hperform] at hrun
    cases e with
    | ok ending =>
      obtain ⟨rfl, rfl⟩ := Prod.mk.inj hrun
      exact ⟨_, rfl, rfl⟩
    | error f =>
      obtain ⟨rfl, rfl⟩ := Prod.mk.inj hrun
      exact ⟨_, rfl, rfl⟩

/-- **Words that ask for a validation** validate in the session, and the store is put in its
place behind it. -/
theorem validation_run {config : Path} {words : List String} {done : Finished} {v : World}
    (hread : Invocation.read words = .ok ⟨config, .validate ids⟩)
    (hopens : (opening config).run { w with printed := [] } = (.ok s, v))
    (hrun : (finish words).run w = (done, u)) :
    ∃ e x stores, (validate s ids).run v = (e, x) ∧ u = { x with stores } ∧
      (∀ place, s.place = some place → stores.lookup place = some x.store) ∧
      done.code = match e with | .ok ending => ending.code | .error _ => 1 := by
  obtain ⟨e, hperform, hcode⟩ := finish_run hread hrun
  have hjob : perform ⟨config, .validate ids⟩ = withSession config fun t => validate t ids := rfl
  obtain ⟨stores, hwithin, hplace⟩ := within_run s (validate s ids) v
  rw [hjob, withSession_run hopens, hwithin] at hperform
  obtain ⟨rfl, rfl⟩ := Prod.mk.inj hperform
  exact ⟨_, _, stores, rfl, rfl, hplace, hcode⟩

/-- **A validation is refused as a whole or done as a whole.** Where one of the patches is unknown
or does not wait the program ends with 1, the store is as it was, and nothing was run. Where all
wait it ends with 0, and each time that a patch was named there is a result for it, the last of
which has decided about the patch. Whatever the store is then stands in its place.

The patches of a store that is reached by operations can all be put again. What is begun is done
as long as validations do not break down altogether, the clock shows times of the calendar, and no
stored result has a name that is given out later. Git and the commands may answer anything. -/
theorem validation_whole {config : Path} {words : List String} {done : Finished} {v : World}
    (hread : Invocation.read words = .ok ⟨config, .validate ids⟩)
    (hopens : (opening config).run { w with printed := [] } = (.ok s, v))
    (hrun : (finish words).run w = (done, u)) :
    (∀ place, s.place = some place → u.stores.lookup place = some u.store) ∧
    ((∃ id ∈ ids, ¬ v.store.Waits id) → done.code = 1 ∧ u.store = v.store ∧
      u.gitCalls = v.gitCalls ∧ u.commandCalls = v.commandCalls ∧ u.files = v.files) ∧
    ∀ ops, v.store = Store.Operation.run ops → v.outside.breakdown = none →
      Supplied v.store v u → (∀ id ∈ ids, v.store.Waits id) →
      done.code = 0 ∧ ∃ recorded, Store.Validated v.store ids
        s.settings.validation.allowSecurityWarnings recorded u.store := by
  obtain ⟨e, x, stores, hvalidate, rfl, hplace, hcode⟩ := validation_run hread hopens hrun
  refine ⟨hplace, fun hrefused => ?_, fun ops hstore hsound hsupplied hwaits => ?_⟩
  · obtain ⟨hbad, printed, rfl⟩ := validate_refused hrefused hvalidate
    refine ⟨?_, rfl, rfl, rfl, rfl⟩
    rw [hcode]
    rcases e with f | ⟨⟨⟩⟩
    · rfl
    · exact absurd rfl hbad
    · rfl
  · have hlasts : v.store.Lasting := hstore ▸ Store.Operation.run_lasting ops
    have hsupplied : Supplied v.store v x := ⟨hsupplied.free, hsupplied.first, hsupplied.last⟩
    obtain ⟨rfl, rs, howners, hdone⟩ :=
      validate_underway hlasts hwaits hsound hsupplied hvalidate
    have hkeyed : v.store.Keyed := hstore ▸ (Store.Operation.run_orderly ops).1.toKeyed
    have hrenews : World.Renews v x := ((validate_renews s ids).of_run hvalidate).1
    exact ⟨hcode, _, hdone.done hwaits howners (hrenews.writes.keyed hkeyed)⟩

end

/-! ## A patch that is named twice -/

/-- An issue and a patch for it are stored. -/
def drafted : List Store.Operation :=
  [.createIssue Small.issue, .createPatch ⟨Small.patch, rfl⟩ default]

/-- The project with that store, where the first three commands succeed and no later one. -/
def bench : World := { shelf with
  workshop := ⟨.root, ["copy"]⟩
  stores := [(["project", "data", "selfheal.sqlite"], Store.Operation.run drafted)]
  outside := { shelf.outside with
    finds := fun _ => true
    command := fun calls => { (default : CommandReply) with
      exit := some (if calls.length ≤ 3 then 0 else 1) } } }

/-- A session can be opened there, and it has the store open. -/
theorem bench_opens : ∃ s v, (opening unwritten).run { bench with printed := [] } = (.ok s, v) ∧
    v.store = Store.Operation.run drafted ∧ v.outside.breakdown = none ∧
    v.supply.now.toUniversal?.isSome = true := by
  have hopens : ((opening unwritten).run bench).1.toOption.isSome = true := by decide +kernel
  have hstore : ((opening unwritten).run bench).2.store = Store.Operation.run drafted := by
    with_unfolding_all rfl
  have hsound : ((opening unwritten).run bench).2.outside.breakdown = none := by decide +kernel
  have hdated : ((opening unwritten).run bench).2.supply.now.toUniversal?.isSome = true := by
    decide +kernel
  match hrun : (opening unwritten).run bench with
  | (.ok s, v) =>
    rw [hrun] at hstore hsound hdated
    exact ⟨s, v, rfl, hstore, hsound, hdated⟩
  | (.error f, v) =>
    rw [hrun] at hopens
    cases hopens

theorem drafted_waits : (Store.Operation.run drafted).Waits "patch-1" :=
  ⟨_, by with_unfolding_all rfl, by with_unfolding_all rfl⟩

/-- Words that ask for a validation of two patches. -/
def twice (id : String) : List String := ["validate", "patch-1", id]

/-- The patch that is named twice is tried twice, and the last result, which fails, decides. With a
name that stands for no patch nothing is done. -/
theorem validation_whole_twice :
    (∃ allow recorded, ((finish (twice "patch-1")).run bench).1.code = 0 ∧
      Store.Validated (Store.Operation.run drafted) ["patch-1", "patch-1"] allow recorded
        ((finish (twice "patch-1")).run bench).2.store) ∧
      ((finish (twice "patch-1")).run bench).2.store.patches.map Patch.state = [.invalid] ∧
    ((finish (twice "patch-2")).run bench).1.code = 1 ∧
      ((finish (twice "patch-2")).run bench).2.store = Store.Operation.run drafted := by
  obtain ⟨s, v, hopens, hstore, hsound, hdated⟩ := bench_opens
  have hread : Invocation.read (twice "patch-1") =
      .ok ⟨unwritten, .validate ["patch-1", "patch-1"]⟩ := by with_unfolding_all rfl
  have hstray : Invocation.read (twice "patch-2") =
      .ok ⟨unwritten, .validate ["patch-1", "patch-2"]⟩ := by with_unfolding_all rfl
  have hlast : ((finish (twice "patch-1")).run bench).2.supply.now.toUniversal?.isSome = true := by
    decide +kernel
  have hunknown : ¬ v.store.Waits "patch-2" := by
    rintro ⟨p, hread, -⟩
    rw [hstore] at hread
    have hnone : (Store.Operation.run drafted).patch? "patch-2" = .ok none := by
      with_unfolding_all rfl
    cases hnone.symm.trans hread
  obtain ⟨-, -, hdone⟩ := validation_whole hread hopens rfl
  obtain ⟨-, hrefused, -⟩ := validation_whole hstray hopens rfl
  refine ⟨?_, by decide +kernel, ?_⟩
  · obtain ⟨hcode, recorded, hvalidated⟩ := hdone drafted hstore hsound
      ⟨fun _ _ k hk => by rw [hstore] at hk; exact (List.not_mem_nil hk).elim, hdated, hlast⟩
      (by simpa [hstore] using drafted_waits)
    exact ⟨_, recorded, hcode, hstore ▸ hvalidated⟩
  · obtain ⟨hcode, hsame, -⟩ := hrefused ⟨"patch-2", by simp, hunknown⟩
    exact ⟨hcode, hsame.trans hstore⟩

end Console

end RepairLoop
