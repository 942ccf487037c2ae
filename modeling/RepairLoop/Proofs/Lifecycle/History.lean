import Mathlib.Data.List.Chain
import RepairLoop.Proofs.Lifecycle
/-!
# Lifecycle — what a patch has been through

A patch that is held is worked on in place: an action asks for its move and
then writes one field after the other, and what was written before a fault
stays written (`Handling.perform`). Since nothing is written before the last
refusal, this comes to what the action makes of the patch as a value
(`perform_run`). A `History` is any row of calls on one patch, refused ones
among them, and `History.lawful` says what holds of every patch that is
reached so.
-/

namespace RepairLoop

/-! ## Actions on a patch that is held -/

/-- Work on a patch that is held, beside the clock. What was written before a
fault stays written. -/
abbrev Handling := ExceptT TransitionFault (StateM (Patch × Supply))

namespace Handling

/-- The patch. -/
def held : Handling Patch := do return (← get).1

/-- Writes to the patch. -/
def write (f : Patch → Patch) : Handling Unit := modify fun (p, s) => (f p, s)

/-- The time; the clock moves on. -/
def clock : Handling Moment := do
  let (p, s) ← get
  let (now, s) := Supply.readClock s
  set (p, s)
  pure now

/-- Refuses a move that is not among the next ones. -/
def ask (target : PatchState) : Handling Unit := do
  match (← held).require target with
  | .ok () => pure ()
  | .error f => throw f

/-- Writes the time of the change. -/
def touch : Handling Unit := do
  let now ← clock
  write fun p => { p with updatedAt := now }

/-- Performs an action, one field after the other. -/
def perform : PatchAction → Handling Unit
  | .begin => do
    ask .validating
    write fun p => { p with validationStatus := .validating }
    write fun p => { p with errorKind := none }
    touch
  | .invalidate kind needsReview => do
    ask .invalid
    write fun p => { p with validationStatus := .invalid }
    write fun p => { p with errorKind := some kind }
    write fun p => { p with needsReview := needsReview }
    touch
  | .record r allowWarnings => do
    let p ← held
    if r.patchId != p.id then throw (.foreignResult p.id r.patchId)
    let passed := r.passes allowWarnings
    ask (if passed then .valid else .invalid)
    write fun p => { p with validationStatus := if passed then .valid else .invalid }
    if passed then write fun p => { p with errorKind := none }
    else write fun p => { p with errorKind := some (r.errorKind.getD .securityFailure) }
    touch
  | .reject kind => do
    ask .rejected
    write fun p => { p with validationStatus := .rejected }
    if kind.isSome then write fun p => { p with errorKind := kind }
    touch
  | .apply rollback commit backup => do
    ask .applied
    if rollback == "" then throw (.noRollback (← held).id)
    write fun p => { p with rollbackPatch := some rollback }
    write fun p => { p with commitId := commit }
    write fun p => { p with backupBranch := backup }
    write fun p => { p with applied := true }
    let now ← clock
    write fun p => { p with appliedAt := some now }
    touch
  | .rollBack => do
    ask .rolledBack
    write fun p => { p with rolledBack := true }
    touch

theorem ask_run (target : PatchState) (p : Patch) (s : Supply) :
    (ask target).run (p, s) =
      if p.canMove target then (.ok (), p, s)
      else (.error (.notNext p.id p.state target), p, s) := by
  have hrun : (ask target).run (p, s) = (match p.require target with
      | .ok () => pure ()
      | .error f => throw f : Handling Unit).run (p, s) := rfl
  rw [hrun, Patch.require]
  cases p.canMove target <;> rfl

/-- **An action in place comes to what it makes of the patch**, and a refused
one leaves it as it was. -/
theorem perform_run (a : PatchAction) (p : Patch) (s : Supply) :
    (perform a).run (p, s) = match (p.actNow a).run s with
      | (.ok q, s') => (.ok (), q, s')
      | (.error f, s') => (.error f, p, s') := by
  cases a with
  | begin =>
    rw [perform, run_bind_eq, ask_run]
    cases h : p.canMove .validating <;> simp [Patch.actNow, Patch.act, Patch.require, h] <;> rfl
  | invalidate kind needsReview =>
    rw [perform, run_bind_eq, ask_run]
    cases h : p.canMove .invalid <;> simp [Patch.actNow, Patch.act, Patch.require, h] <;> rfl
  | record r allow =>
    have hheld : held.run (p, s) = (.ok p, p, s) := rfl
    simp only [perform]
    rw [run_bind_of_ok hheld]
    cases howner : r.patchId != p.id
    · cases hpass : r.passes allow
      · simp only [Bool.false_eq_true, if_false]
        rw [run_bind_eq, ask_run]
        cases h : p.canMove .invalid <;>
          simp [Patch.actNow, Patch.act, Patch.require, howner, hpass, h] <;> rfl
      · simp only [Bool.false_eq_true, if_false, if_true]
        rw [run_bind_eq, ask_run]
        cases h : p.canMove .valid <;>
          simp [Patch.actNow, Patch.act, Patch.require, howner, hpass, h] <;> rfl
    · simp [Patch.actNow, Patch.act, howner]
      rfl
  | reject kind =>
    rw [perform, run_bind_eq, ask_run]
    cases h : p.canMove .rejected
    · simp [Patch.actNow, Patch.act, Patch.require, h]
      rfl
    · cases kind <;> simp [Patch.actNow, Patch.act, Patch.require, h] <;> rfl
  | apply rollback commit backup =>
    rw [perform, run_bind_eq, ask_run]
    cases h : p.canMove .applied
    · simp [Patch.actNow, Patch.act, Patch.require, h]
      rfl
    · cases hrollback : rollback == "" <;>
        simp [Patch.actNow, Patch.act, Patch.require, h, hrollback] <;> rfl
  | rollBack =>
    rw [perform, run_bind_eq, ask_run]
    cases h : p.canMove .rolledBack <;> simp [Patch.actNow, Patch.act, Patch.require, h] <;> rfl

end Handling
/-! ## Calls -/

/-- A call on a patch: the action, the patch before it, what came of it, and
the patch after it. -/
structure Call where
  action : PatchAction
  before : Patch
  outcome : Except TransitionFault Unit
  after : Patch

namespace Call

/-- The call of an action on a patch. -/
def make (p : Patch) (a : PatchAction) (s : Supply) : Call :=
  let (outcome, q, _) := (Handling.perform a).run (p, s)
  ⟨a, p, outcome, q⟩

/-- The call was allowed. -/
def Accepted (c : Call) : Prop := c.outcome = .ok ()

/-- The call was allowed and recorded a result of the patch itself that
passes. -/
def Validates (c : Call) : Prop :=
  c.Accepted ∧ ∃ r allow, c.action = .record r allow ∧ r.patchId = c.before.id ∧
    (r.outcome = .success ∨ (allow = true ∧ r.outcome = .warning))

/-- **A call moves the patch or leaves it alone.** -/
theorem make_cases (p : Patch) (a : PatchAction) (s : Supply) :
    ((make p a s).Accepted ∧ Patch.Moves p a (make p a s).after) ∨
      ((∃ f, (make p a s).outcome = .error f) ∧ (make p a s).after = p) := by
  rw [Accepted, make, Handling.perform_run]
  cases h : (p.actNow a).run s with
  | mk outcome s' =>
    cases outcome with
    | ok q =>
      obtain ⟨applied, touched, hact⟩ := Patch.act_of_actNow h
      exact Or.inl ⟨rfl, Patch.moves_of_act hact⟩
    | error f => exact Or.inr ⟨⟨f, rfl⟩, rfl⟩

end Call

/-! ## Histories -/

/-- The patches that are reached from a patch, with the calls on the way. Any
action may be called at any time, and the clock is free between the calls. -/
inductive History (p : Patch) : List Call → Patch → Prop
  | start : History p [] p
  | call {calls : List Call} {q : Patch} (h : History p calls q) (a : PatchAction) (s : Supply) :
    History p (calls ++ [Call.make q a s]) (Call.make q a s).after

/-- The fields of a patch agree: only a valid patch that can be undone is
applied, and only an applied one is rolled back. -/
structure Patch.Sound (p : Patch) : Prop where
  applied : p.applied = true → p.validationStatus = .valid ∧
    ∃ rollback, p.rollbackPatch = some rollback ∧ rollback ≠ ""
  rolledBack : p.rolledBack = true → p.applied = true

namespace Patch.Moves

variable {p q : Patch} {a : PatchAction}

/-- **A move keeps the fields in agreement.** -/
theorem sound (h : Moves p a q) (hp : p.Sound) : q.Sound := by
  by_cases ha : a = .rollBack
  · subst ha
    cases h with
    | rollBack hstate => exact ⟨hp.applied, fun _ => (state_eq_applied.1 hstate).2⟩
  · obtain ⟨hr, hna⟩ := h.unapplied ha
    cases h with
    | apply hrollback hstate =>
      have hvalid := (state_eq_ofStatus.1 hstate).2.2
      exact ⟨fun _ => ⟨hvalid, _, rfl, hrollback⟩, fun _ => rfl⟩
    | begin | invalidate | pass | fail | reject =>
      exact ⟨fun happlied => absurd (hna.symm.trans happlied) (by decide),
        fun hrolled => absurd (hr.symm.trans hrolled) (by decide)⟩
    | rollBack => exact absurd rfl ha

/-- **Only a result that passes makes a patch valid.** -/
theorem valid (h : Moves p a q) (hvalid : q.validationStatus = .valid) :
    p.validationStatus = .valid ∨
      ∃ r allow, a = .record r allow ∧ r.patchId = p.id ∧ r.passes allow = true := by
  cases h with
  | pass howner hpass => exact Or.inr ⟨_, _, rfl, howner, hpass⟩
  | apply | rollBack => exact Or.inl hvalid
  | begin | invalidate | fail | reject => cases hvalid

end Patch.Moves

namespace History

variable {p q : Patch} {calls : List Call}

/-- A step of the state: none at all, or one to a next state. -/
def Steps (s t : PatchState) : Prop := s = t ∨ t ∈ s.next

/-- The states on the way, the one at the start among them. -/
def trace (p : Patch) (calls : List Call) : List PatchState :=
  p.state :: calls.map (·.after.state)

/-- What holds of a patch that has been through some calls, and of the calls. -/
structure Lawful (p : Patch) (calls : List Call) (q : Patch) : Prop where
  id : q.id = p.id
  sound : q.Sound
  validated : q.validationStatus = .valid → ∃ c ∈ calls, c.Validates ∧ c.before.id = p.id
  chain : (trace p calls).IsChain Steps
  last : (trace p calls).getLast? = some q.state
  refused : ∀ c ∈ calls, ∀ f, c.outcome = .error f → c.after = c.before

theorem passes_iff {r : ValidationResult} {allow : Bool} :
    r.passes allow = true ↔ r.outcome = .success ∨ (allow = true ∧ r.outcome = .warning) := by
  simp [ValidationResult.passes]

theorem trace_append (p : Patch) (calls : List Call) (c : Call) :
    trace p (calls ++ [c]) = trace p calls ++ [c.after.state] := by
  simp [trace]

/-- **One more call keeps to the law**, whether it is allowed or not. -/
theorem Lawful.call (h : Lawful p calls q) (a : PatchAction) (s : Supply) :
    Lawful p (calls ++ [Call.make q a s]) (Call.make q a s).after := by
  have hbefore : (Call.make q a s).before = q := rfl
  have haction : (Call.make q a s).action = a := rfl
  have hcases := Call.make_cases q a s
  generalize Call.make q a s = c at *
  have hsteps : Steps q.state c.after.state := by
    rcases hcases with ⟨-, hm⟩ | ⟨-, hsame⟩
    · exact Or.inr hm.mem_next
    · exact Or.inl (by rw [hsame])
  refine ⟨?_, ?_, fun hvalid => ?_, ?_, ?_, fun d hd f hf => ?_⟩
  · rcases hcases with ⟨-, hm⟩ | ⟨-, hsame⟩
    · exact hm.id.trans h.id
    · exact hsame ▸ h.id
  · rcases hcases with ⟨-, hm⟩ | ⟨-, hsame⟩
    · exact hm.sound h.sound
    · exact hsame ▸ h.sound
  · have hearlier (hq : q.validationStatus = .valid) :
        ∃ d ∈ calls ++ [c], d.Validates ∧ d.before.id = p.id := by
      obtain ⟨d, hd, hv⟩ := h.validated hq
      exact ⟨d, List.mem_append_left _ hd, hv⟩
    rcases hcases with ⟨haccepted, hm⟩ | ⟨-, hsame⟩
    · rcases hm.valid hvalid with hq | ⟨r, allow, hrecord, howner, hpass⟩
      · exact hearlier hq
      · refine ⟨c, by simp, ⟨haccepted, r, allow, haction.trans hrecord, ?_, ?_⟩, ?_⟩
        · rw [hbefore, howner]
        · exact passes_iff.1 hpass
        · rw [hbefore, h.id]
    · exact hearlier (hsame ▸ hvalid)
  · rw [trace_append, List.isChain_append]
    refine ⟨h.chain, List.isChain_singleton _, fun s hs t ht => ?_⟩
    obtain rfl : q.state = s := Option.some.inj (h.last ▸ hs)
    obtain rfl : c.after.state = t := by simpa using ht
    exact hsteps
  · rw [trace_append, List.getLast?_concat]
  · rcases List.mem_append.1 hd with hd | hd
    · exact h.refused d hd f hf
    · obtain rfl := List.mem_singleton.1 hd
      rcases hcases with ⟨haccepted, -⟩ | ⟨-, hsame⟩
      · exact absurd (hf.symm.trans haccepted) (by simp)
      · rw [hsame, hbefore]

/-- **Every history keeps to the law** if it begins with a patch whose fields
agree and that is not valid yet. -/
theorem keeps (h : History p calls q) (hp : p.Sound) (hnew : p.validationStatus ≠ .valid) :
    Lawful p calls q := by
  induction h with
  | start =>
    exact ⟨rfl, hp, fun hvalid => absurd hvalid hnew, List.isChain_singleton _, rfl, by simp⟩
  | call _ a s ih => exact ih.call a s

/-- **Nothing happens to a patch any more that is rejected or rolled back.** -/
theorem absorbed (h : History p calls q) (hp : p.state = .rejected ∨ p.state = .rolledBack) :
    q = p := by
  induction h with
  | start => rfl
  | call _ a s ih =>
    rcases Call.make_cases _ a s with ⟨-, hm⟩ | ⟨-, hsame⟩
    · rw [← ih] at hp
      exact (hp.elim hm.not_rejected hm.not_rolledBack).elim
    · exact hsame.trans ih

/-- **The law of a patch's life.** Whatever is called on a pending patch, in
whatever row: an applied patch is valid and can be undone, a patch that is
rolled back was applied, the state moves along the listed transitions, and a
patch is applied only behind an accepted result of its own that passes. A
rejected patch and one that is rolled back stay as they are, and so does every
patch under a call that is refused. -/
theorem lawful (hpending : p.validationStatus = .pending) (hunapplied : p.applied = false)
    (hkept : p.rolledBack = false) (h : History p calls q) :
    (q.applied = true → q.validationStatus = .valid ∧
      ∃ rollback, q.rollbackPatch = some rollback ∧ rollback ≠ "") ∧
    (q.rolledBack = true → q.applied = true) ∧
    ((trace p calls).IsChain Steps ∧ (trace p calls).getLast? = some q.state) ∧
    (q.applied = true → ∃ c ∈ calls, c.Validates ∧ c.before.id = p.id) ∧
    (q.state = .rejected ∨ q.state = .rolledBack → ∀ later r, History q later r → r = q) ∧
    (∀ c ∈ calls, ∀ f, c.outcome = .error f → c.after = c.before) := by
  have hsound : p.Sound := ⟨by simp [hunapplied], by simp [hkept]⟩
  have hlaw := h.keeps hsound (by simp [hpending])
  exact ⟨hlaw.sound.applied, hlaw.sound.rolledBack, ⟨hlaw.chain, hlaw.last⟩,
    fun ha => hlaw.validated (hlaw.sound.applied ha).1,
    fun hend _ _ hlater => hlater.absorbed hend, hlaw.refused⟩

/-- A patch that goes the whole way, with one call on it that is refused. -/
theorem lawful_wholeWay :
    ∃ calls q, History { (default : Patch) with validationStatus := .pending } calls q ∧
      trace { (default : Patch) with validationStatus := .pending } calls =
        [.pending, .validating, .validating, .valid, .applied, .rolledBack] ∧
      q.applied = true ∧ q.validationStatus = .valid ∧ ∃ c ∈ calls, c.Validates := by
  let p : Patch := { (default : Patch) with validationStatus := .pending }
  let result : ValidationResult := { (default : ValidationResult) with
    patchId := p.id, outcome := .success }
  have h := History.start (p := p) |>.call .begin default |>.call .rollBack default
    |>.call (.record result false) default |>.call (.apply "undo" none none) default
    |>.call .rollBack default
  obtain ⟨hsound, -, -, hvalidates, -⟩ := lawful rfl rfl rfl h
  obtain ⟨hvalid, -⟩ := hsound (by decide +kernel)
  obtain ⟨c, hc, hv, -⟩ := hvalidates (by decide +kernel)
  exact ⟨_, _, h, by decide +kernel, by decide +kernel, hvalid, c, hc, hv⟩

end History

end RepairLoop
