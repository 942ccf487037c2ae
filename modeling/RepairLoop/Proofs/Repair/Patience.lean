import RepairLoop.Proofs.Number.Order
import RepairLoop.Proofs.Proposal.Allowance
import RepairLoop.Proofs.Proposal.Desk
import RepairLoop.Proofs.Proposal.Refusals
import RepairLoop.Repair.Process
/-!
# Patience — one pause for each candidate

Asking for a candidate is a run of attempts with pauses in between (`patiently`,
`Session.proposePatiently_eq`). At the `Bench` such a run is followed in exact time: before each
step some time passes, and what the files and the service supply is arbitrary. An attempt takes its
token first. If there is none the pause is at least as long as the hint, so the next attempt finds
one (`Bench.patiently_eased`), and what an attempt does with its token never fails for the rate.
-/

namespace RepairLoop

/-! ## Attempts and pauses -/

/-- Attempts with pauses in between. Where an attempt fails with a hint when to try again, and tries
are left, the next one comes after a pause: as long as the hint says, or longer with each pause
before it. -/
def patiently {m : Type → Type} [Monad m] {α ε τ : Type} [LT τ] [DecidableLT τ]
    (hint? : ε → Option τ) (backoff : ℕ → τ) (pause : τ → m Unit) (attempt : m (Except ε α)) :
    ℕ → ℕ → m (Except ε α)
  | _, 0 => attempt
  | waited, left + 1 => do
    match ← attempt with
    | .ok a => pure (.ok a)
    | .error e =>
      match hint? e with
      | some after =>
        pause (if after < backoff waited then backoff waited else after)
        patiently hint? backoff pause attempt (waited + 1) left
      | none => pure (.error e)

/-- A fault that is looked at and comes back is the fault that it was. -/
theorem Act.attempt_ofExcept {α : Type} (x : Act α) : (Act.attempt x >>= Act.ofExcept) = x := by
  funext w
  show (Act.attempt x >>= Act.ofExcept).run w = x.run w
  rw [run_bind_eq, Act.attempt_run]
  exact Act.ofExcept_run _ _

namespace Session

/-- **Asking for a candidate is a run of attempts with pauses in between.** -/
theorem proposePatiently_eq (s : Session) (i : Issue) (index : Int) (waited left : ℕ) :
    s.proposePatiently i index waited left =
      patiently Fault.hint? (fun n => s.settings.llm.rateLimitBackoff * Number.ofInt (Number.twoTo n))
        (fun after => Act.pause (.real after))
        (do let p ← s.asking; Act.attempt (p.propose i index)) waited left >>= Act.ofExcept := by
  induction left generalizing waited with
  | zero =>
    simp only [proposePatiently, patiently, bind_assoc, Act.attempt_ofExcept]
  | succ left ih =>
    simp only [proposePatiently, patiently, bind_assoc]
    congr 1
    funext p
    congr 1
    funext r
    cases r with
    | ok a => rfl
    | error f =>
      cases f with
      | refused what kind message details after =>
        cases what <;> first | rfl | (simp only [Fault.hint?, bind_assoc, ih])
      | invalid problems => rfl
      | unreadable message line column => rfl
      | mishap what message => rfl

end Session

/-! ## Exact time -/

/-- Why an attempt failed: the allowance gave no token, or there was a fault of another source. -/
inductive Halt where
  | exhausted (e : Exhausted ℚ)
  | fault (f : Fault)

/-- When to try again, if that is said. -/
def Halt.hint? : Halt → Option ℚ
  | exhausted e => some e.retryAfter
  | fault f => f.hint?.map Number.value

/-- A proposer at work with exact time: the present moment, its allowance, how many steps it has
taken, and for how long it has paused. -/
structure Bench where
  clock : ℚ
  allowance : Allowance ℚ
  steps : ℕ
  pauses : List ℚ

/-- What the steps at a bench meet with: the time that passes before each step, and what the files
and the service supply for it. -/
structure Course where
  span : ℕ → ℚ≥0
  supplied : ℕ → Supplied

/-- Neither the files nor the service say that a rate is exceeded. -/
def Course.Unrated (c : Course) : Prop :=
  ∀ n, NotOfRate (c.supplied n).source ∧ NotOfRate (c.supplied n).answer ∧
    NotOfRate (c.supplied n).patch

namespace Bench

/-- Time passes before the next step. -/
def next (c : Course) (b : Bench) : Bench :=
  { b with clock := b.clock + c.span b.steps, steps := b.steps + 1 }

/-- A pause; it may last longer than it should. -/
def pause (c : Course) (time : ℚ) : StateM Bench Unit := fun b =>
  ((), { b.next c with clock := (b.next c).clock + time, pauses := b.pauses ++ [time] })

/-- Goes on with what is supplied, or stops. -/
def onward {α β : Type} (r : Except Fault α) (f : α → StateM Bench (Except Halt β)) :
    StateM Bench (Except Halt β) :=
  match r with
  | .ok a => f a
  | .error e => pure (.error (.fault e))

/-- Does what is left to do, in exact time. -/
def perform {α : Type} (c : Course) : Errand α → StateM Bench (Except Halt α)
  | .done a => pure (.ok a)
  | .stop f => pure (.error (.fault f))
  | .token rest => fun b =>
    match (b.next c).allowance.take 1 (b.next c).clock with
    | (left, .ok ()) => perform c rest { b.next c with allowance := left }
    | (left, .error e) => (.error (.exhausted e), { b.next c with allowance := left })
  | .source _ rest => fun b =>
    onward (c.supplied b.steps).source (fun s => perform c (rest s)) (b.next c)
  | .ask _ rest => fun b =>
    onward (c.supplied b.steps).answer (fun a => perform c (rest a)) (b.next c)
  | .patch _ _ _ _ rest => fun b =>
    onward (c.supplied b.steps).patch (fun q => perform c (rest q)) (b.next c)
  | .report _ rest => fun b => perform c rest (b.next c)

variable {c : Course} {b b' : Bench} {α : Type}

/-- Steps that take no token: time passes. -/
structure Passes (b b' : Bench) : Prop where
  clock : b.clock ≤ b'.clock
  allowance : b'.allowance = b.allowance
  pauses : b'.pauses = b.pauses

theorem Passes.refl (b : Bench) : Passes b b := ⟨le_rfl, rfl, rfl⟩

theorem Passes.trans {b'' : Bench} (h : Passes b b') (h' : Passes b' b'') : Passes b b'' :=
  ⟨h.clock.trans h'.clock, h'.allowance.trans h.allowance, h'.pauses.trans h.pauses⟩

theorem passes_next (c : Course) (b : Bench) : Passes b (b.next c) :=
  ⟨le_add_of_nonneg_right (c.span b.steps).coe_nonneg, rfl, rfl⟩

/-- An attempt ended with a result or with a fault, which is not that a rate is exceeded. -/
def Settled (r : Except Halt α) : Prop :=
  ∀ h, r = .error h → ∃ f : Fault, h = .fault f ∧ f.isOfRate = false

/-- An errand that takes no token, and stops of itself only with other faults than that a rate is
exceeded. -/
def Tokenless : Errand α → Prop
  | .done _ => True
  | .stop f => f.isOfRate = false
  | .token _ => False
  | .source _ rest => ∀ s, Tokenless (rest s)
  | .ask _ rest => ∀ a, Tokenless (rest a)
  | .patch _ _ _ _ rest => ∀ q, Tokenless (rest q)
  | .report _ rest => Tokenless rest

theorem onward_settled {β : Type} {r : Except Fault α} {f : α → StateM Bench (Except Halt β)}
    (hr : NotOfRate r) (hf : ∀ a b, Settled (f a b).1 ∧ Passes b (f a b).2) (b : Bench) :
    Settled (onward r f b).1 ∧ Passes b (onward r f b).2 := by
  cases r with
  | ok a => exact hf a b
  | error e => exact ⟨fun h hh => ⟨e, (Except.error.inj hh).symm, hr e rfl⟩, .refl b⟩

/-- **Without taking tokens** an errand is not refused for the rate, and leaves the allowance as it
was. -/
theorem perform_tokenless (hc : c.Unrated) {e : Errand α} (h : Tokenless e) (b : Bench) :
    Settled (perform c e b).1 ∧ Passes b (perform c e b).2 := by
  induction e generalizing b with
  | done a =>
    refine ⟨fun h hh => ?_, .refl b⟩
    have hnone : (Except.ok a : Except Halt α) = .error h := hh
    cases hnone
  | stop f => exact ⟨fun h' hh => ⟨f, (Except.error.inj hh).symm, h⟩, .refl b⟩
  | token rest => exact h.elim
  | source path rest ih =>
    have hrest := onward_settled (hc b.steps).1 (fun s b => ih s (h s) b) (b.next c)
    exact ⟨hrest.1, (passes_next c b).trans hrest.2⟩
  | ask request rest ih =>
    have hrest := onward_settled (hc b.steps).2.1 (fun a b => ih a (h a) b) (b.next c)
    exact ⟨hrest.1, (passes_next c b).trans hrest.2⟩
  | patch issue completion text index rest ih =>
    have hrest := onward_settled (hc b.steps).2.2 (fun q b => ih q (h q) b) (b.next c)
    exact ⟨hrest.1, (passes_next c b).trans hrest.2⟩
  | report event rest ih =>
    have hrest := ih h (b.next c)
    exact ⟨hrest.1, (passes_next c b).trans hrest.2⟩

/-! ## Patience -/

/-- After its token a call for a patch takes none. -/
theorem tokenless_patch (p : Proposer) (issue : Issue) (index : Int) :
    ∃ rest, p.patchErrand issue index = .token rest ∧ Tokenless rest := by
  refine ⟨_, rfl, fun source answer => ?_⟩
  show Tokenless (Errand.ofExcept answer.text _)
  cases htext : answer.text with
  | ok text => exact fun _ => trivial
  | error f => exact answer.text_notOfRate f htext

variable {capacity : Int} {w t₀ : ℚ} {rest : Errand α}

/-- The allowance of a bench came about in the course of time. -/
def Reached (capacity : Int) (w t₀ : ℚ) (b : Bench) : Prop :=
  Allowance.Reached capacity w t₀ b.allowance b.clock

theorem Reached.passes (h : b.Reached capacity w t₀) (hp : Passes b b') :
    b'.Reached capacity w t₀ := by
  rw [Reached, hp.allowance]
  exact Allowance.Reached.later h hp.clock

/-- **With a token** an attempt is settled. -/
theorem perform_granted (hc : c.Unrated) (hrest : Tokenless rest)
    (h : b.Reached capacity w t₀)
    (hgranted : ((b.next c).allowance.take 1 (b.next c).clock).2 = .ok ()) :
    Settled (perform c (.token rest) b).1 ∧
      (perform c (.token rest) b).2.Reached capacity w t₀ ∧
      (perform c (.token rest) b).2.pauses = b.pauses := by
  have hreached : (b.next c).Reached capacity w t₀ := h.passes (passes_next c b)
  cases htake : (b.next c).allowance.take 1 (b.next c).clock with
  | mk left taken =>
    rw [htake] at hgranted
    obtain rfl : taken = .ok () := hgranted
    have hperform : perform c (.token rest) b =
        perform c rest { b.next c with allowance := left } := by
      simp only [perform, htake]
    have htaken : Reached capacity w t₀ { b.next c with allowance := left } := by
      have := Allowance.Reached.take hreached 1
      rwa [htake] at this
    obtain ⟨hsettled, hpasses⟩ := perform_tokenless hc hrest { b.next c with allowance := left }
    rw [hperform]
    exact ⟨hsettled, htaken.passes hpasses, hpasses.pauses⟩

variable {backoff : ℕ → ℚ} {attempt : StateM Bench (Except Halt α)}

/-- A settled attempt is the last one. -/
theorem patiently_settled (h : Settled (attempt b).1) (waited left : ℕ) :
    patiently Halt.hint? backoff (pause c) attempt waited left b = attempt b := by
  cases left with
  | zero => rfl
  | succ left =>
    show (attempt >>= _) b = _
    cases hrun : attempt b with
    | mk r b' =>
      rw [hrun] at h
      simp only [bind, StateT.bind, hrun]
      cases r with
      | ok a => rfl
      | error e =>
        obtain ⟨f, rfl, hf⟩ := h e rfl
        have hhint : (Halt.fault f).hint? = none := by
          simpa [Halt.hint?, Fault.isOfRate] using hf
        simp only [hhint]
        rfl

/-- How work at a bench ended: with a result or a fault of another kind than that a rate is exceeded,
after one pause at most. -/
structure Eased (capacity : Int) (w t₀ : ℚ) (b : Bench) (run : Except Halt α × Bench) : Prop where
  settled : Settled run.1
  reached : run.2.Reached capacity w t₀
  pauses : run.2.pauses = b.pauses ∨ ∃ time, run.2.pauses = b.pauses ++ [time]

/-- **One pause is enough.** Where a token is refused the pause lasts at least as long as the hint
says, and then there is one. -/
theorem patiently_eased (hc : c.Unrated) (hrest : Tokenless rest) (h : b.Reached capacity w t₀)
    (backoff : ℕ → ℚ) (waited left : ℕ) :
    Eased capacity w t₀ b
      (patiently Halt.hint? backoff (pause c) (perform c (.token rest)) waited (left + 1) b) := by
  have hnow : (b.next c).Reached capacity w t₀ := h.passes (passes_next c b)
  cases htake : (b.next c).allowance.take 1 (b.next c).clock with
  | mk kept taken =>
    cases taken with
    | ok _ =>
      obtain ⟨hsettled, hreached, hpauses⟩ := perform_granted hc hrest h (by rw [htake])
      rw [patiently_settled hsettled waited (left + 1)]
      exact ⟨hsettled, hreached, .inl hpauses⟩
    | error e =>
      -- the pause, and the moment at which it is over
      generalize htime : (if e.retryAfter < backoff waited then backoff waited else e.retryAfter) =
        time
      let paused : Bench := (pause c time { b.next c with allowance := kept }).2
      have hrun : patiently Halt.hint? backoff (pause c) (perform c (.token rest)) waited
          (left + 1) b =
          patiently Halt.hint? backoff (pause c) (perform c (.token rest)) (waited + 1) left
            paused := by
        show (perform c (.token rest) >>= _) b = _
        simp only [bind, StateT.bind, perform, htake, Halt.hint?, htime]
        rfl
      have hlong : e.retryAfter ≤ time := by
        rw [← htime]
        split
        · exact le_of_lt ‹_›
        · exact le_rfl
      have hcount : 1 ≤ capacity := (Allowance.Reached.runs h).some_capacity
      obtain ⟨hpositive, -, hexact⟩ := Allowance.Reached.hint_exact hnow hcount htake
      have hover : (b.next c).clock + e.retryAfter ≤ paused.clock := by
        show _ ≤ (b.next c).clock + _ + time
        have := (c.span (b.next c).steps).coe_nonneg
        linarith
      have hwaited : paused.Reached capacity w t₀ := by
        have hkept : Reached capacity w t₀ { b.next c with allowance := kept } := by
          have := Allowance.Reached.take hnow 1
          rwa [htake] at this
        exact Allowance.Reached.later hkept (by
          show (b.next c).clock ≤ paused.clock
          linarith)
      have hgranted : ((paused.next c).allowance.take 1 (paused.next c).clock).2 = .ok () := by
        have hlater : (b.next c).clock + e.retryAfter ≤ (paused.next c).clock :=
          hover.trans (passes_next c paused).clock
        refine (hexact _ _ (.later .here ?_)).2 hlater
        linarith
      obtain ⟨hsettled, hreached, hpauses⟩ := perform_granted hc hrest hwaited hgranted
      rw [hrun, patiently_settled hsettled (waited + 1) left]
      exact ⟨hsettled, hreached, .inr ⟨time, hpauses⟩⟩

/-- **The hint is exact, and so one pause is enough.** A refused request for no more tokens than a
window has is told when it would be granted: as long as nobody takes a token it is refused before
that moment, at most a window away, and granted from then on. So where nobody else takes tokens and
a pause lasts at least as long as it should, asking for a candidate pauses once at most and is never
refused for the rate. What is said here of exact time is what asking does: it is a run of attempts
with pauses in between, and only the allowance refuses for the rate. -/
theorem patiently_exact (h : b.Reached capacity w t₀) :
    (∀ (count : Int) (kept : Allowance ℚ) (e : Exhausted ℚ), 1 ≤ count → count ≤ capacity →
      b.allowance.take count b.clock = (kept, .error e) →
      0 < e.retryAfter ∧ e.retryAfter ≤ w ∧ ∀ a u, kept.Idle b.clock a u →
        (u < b.clock + e.retryAfter → ∃ e', (a.take count u).2 = .error e') ∧
        (b.clock + e.retryAfter ≤ u → (a.take count u).2 = .ok ())) ∧
    (∀ c : Course, c.Unrated → ∀ (p : Proposer) (issue : Issue) (index : Int) (backoff : ℕ → ℚ)
      (waited left : ℕ), 1 ≤ left → Eased capacity w t₀ b
        (patiently Halt.hint? backoff (pause c) (perform c (p.patchErrand issue index)) waited left
          b)) ∧
    (∀ (s : Session) (issue : Issue) (index : Int) (waited left : ℕ),
      s.proposePatiently issue index waited left =
        patiently Fault.hint?
          (fun n => s.settings.llm.rateLimitBackoff * Number.ofInt (Number.twoTo n))
          (fun after => Act.pause (.real after))
          (do let p ← s.asking; Act.attempt (p.propose issue index)) waited left >>=
            Act.ofExcept) ∧
    (∀ (p : Proposer) (issue : Issue) (index : Int),
      (p.patchErrand issue index).perform p = p.propose issue index) ∧
    ∀ (p : Proposer) (issue : Issue) (index : Int) (world world' : World) (f : Fault),
      (p.propose issue index).run world = (.error f, world') → f.isOfRate = true →
      ∃ a left e, world.allowance = some a ∧ a.take 1 world.seconds = (left, .error e) ∧
        f = e.toFault := by
  refine ⟨fun count kept e _ hcount hrefused => ?_,
    fun c hc p issue index backoff waited left hleft => ?_,
    fun s issue index waited left => s.proposePatiently_eq issue index waited left,
    fun p issue index => p.perform_patchErrand issue index,
    fun p issue index world world' f => p.propose_ofRate⟩
  · obtain ⟨hpositive, hmost, hexact⟩ := Allowance.Reached.hint_exact h hcount hrefused
    refine ⟨hpositive, hmost, fun a u hidle => ?_⟩
    obtain ⟨hbefore, hafter⟩ := hexact a u hidle
    refine ⟨fun hlt => ?_, hafter⟩
    obtain ⟨e', he', -⟩ := hbefore hlt
    exact ⟨e', he'⟩
  · obtain ⟨rest, hpatch, hrest⟩ := tokenless_patch p issue index
    obtain ⟨left, rfl⟩ := Nat.exists_eq_add_of_le' hleft
    rw [hpatch]
    exact patiently_eased hc hrest h backoff waited left

/-- Ten seconds into a minute, the only token of which is taken. -/
def usedUp : Bench := ⟨10, ⟨1, 60, 0, 0⟩, 0, []⟩

/-- Each step takes a second, and everything is empty. -/
def steady : Course := ⟨fun _ => 1, fun _ => Desk.nothing⟩

theorem patiently_exact_usedUp : usedUp.Reached 1 60 0 ∧ steady.Unrated ∧
    usedUp.allowance.take 1 usedUp.clock = (usedUp.allowance, .error ⟨1, 60, 50⟩) ∧
    (usedUp.allowance.take 1 60).2 = .ok () ∧
    Eased 1 60 0 usedUp (patiently Halt.hint? (2 ^ ·) (pause steady)
      (perform steady (Desk.once.patchErrand default 0)) 0 1 usedUp) := by
  have hmade : Allowance.Reached 1 60 0 ⟨1, 60, 1, 0⟩ 0 := .made rfl
  have htaken : (⟨1, 60, 1, 0⟩ : Allowance ℚ).take 1 0 = (usedUp.allowance, .ok ()) := by
    norm_num [Allowance.take, Allowance.at_, usedUp]
  have hreached : usedUp.Reached 1 60 0 := by
    have hleft := hmade.take 1
    rw [htaken] at hleft
    exact Allowance.Reached.later hleft (show (0 : ℚ) ≤ 10 by norm_num)
  have hsteady : steady.Unrated := fun _ => ⟨.ok, .ok, .ok⟩
  have hrefused : usedUp.allowance.take 1 usedUp.clock = (usedUp.allowance, .error ⟨1, 60, 50⟩) := by
    norm_num [Allowance.take, Allowance.at_, Allowance.orZero, Scale.ofNat, usedUp]
  obtain ⟨hhint, hpatient, -⟩ := patiently_exact hreached
  obtain ⟨-, -, hexact⟩ := hhint 1 _ _ le_rfl le_rfl hrefused
  exact ⟨hreached, hsteady, hrefused,
    (hexact _ 60 (.later .here (by decide +kernel))).2 (by decide +kernel),
    hpatient steady hsteady Desk.once default 0 (2 ^ ·) 0 1 le_rfl⟩

end Bench

end RepairLoop
