import RepairLoop.Proposal.Proposer
/-!
# Errands — what a call has a proposer do, step by step

A call of a proposer takes tokens, reads sources, asks the service, builds patches and
reports. `Errand` is the call as data: its next step, and how it goes on with what the
step gives. Performing the errand of a call is running the call (`Inquiry.perform_errand`),
so that calls which take turns can be followed step by step.

On its way a call takes no more tokens than it wants answers, and never asks without a
token that it has taken for the question (`Inquiry.errand_costs`).
-/

namespace RepairLoop

/-- What is left to do of a call. -/
inductive Errand (α : Type) where
  | done (result : α)
  | stop (fault : Fault)
  | token (next : Errand α)
  | source (path : String) (next : String → Errand α)
  | ask (request : ModelRequest) (next : ModelAnswer → Errand α)
  | patch (issue : Issue) (completion text : String) (index : Int) (next : Patch → Errand α)
  | report (event : Event) (next : Errand α)

namespace Errand

variable {α β : Type}

/-- One errand after another. -/
def bind : Errand α → (α → Errand β) → Errand β
  | done a, f => f a
  | stop e, _ => stop e
  | token next, f => token (next.bind f)
  | source path next, f => source path fun s => (next s).bind f
  | ask request next, f => ask request fun a => (next a).bind f
  | patch issue completion text index next, f =>
    patch issue completion text index fun q => (next q).bind f
  | report event next, f => report event (next.bind f)

/-- Goes on with a value, or stops. -/
def ofExcept : Except Fault α → (α → Errand β) → Errand β
  | .ok a, next => next a
  | .error f, _ => stop f

/-- Does what is left to do. -/
def perform (p : Proposer) : Errand α → Act α
  | done a => pure a
  | stop f => throw f
  | token next => do
    Proposer.takeToken
    next.perform p
  | source path next => do
    let s ← p.read path
    (next s).perform p
  | ask request next => do
    let a ← p.service.ask request
    (next a).perform p
  | patch issue completion text index next => do
    let q ← p.build issue completion text index
    (next q).perform p
  | report event next => do
    Act.emit event
    next.perform p

theorem perform_bind (p : Proposer) (e : Errand α) (f : α → Errand β) :
    (e.bind f).perform p = e.perform p >>= fun a => (f a).perform p := by
  induction e with
  | done a => simp [bind, perform]
  | stop fault =>
    simp only [bind, perform]
    rfl
  | token next ih => simp [bind, perform, ih]
  | source path next ih => simp [bind, perform, ih]
  | ask request next ih => simp [bind, perform, ih]
  | patch issue completion text index next ih => simp [bind, perform, ih]
  | report event next ih => simp [bind, perform, ih]

theorem perform_ofExcept (p : Proposer) (x : Except Fault α) (next : α → Errand β) :
    (ofExcept x next).perform p = Act.ofExcept x >>= fun a => (next a).perform p := by
  cases x with
  | ok a => simp [ofExcept, Act.ofExcept]
  | error f => rfl

/-! ## What errands cost -/

/-- An errand takes `n` more tokens at most, and each question has a token taken for it;
`held` says whether there is one already. -/
def Costs : Errand α → Bool → Nat → Prop
  | done _, _, _ => True
  | stop _, _, _ => True
  | token next, _, n => ∃ m, n = m + 1 ∧ next.Costs true m
  | source _ next, held, n => ∀ s, (next s).Costs held n
  | ask _ next, held, n => held = true ∧ ∀ a, (next a).Costs false n
  | patch _ _ _ _ next, held, n => ∀ q, (next q).Costs held n
  | report _ next, held, n => next.Costs held n

theorem Costs.mono {e : Errand α} {held : Bool} {n m : Nat} (h : e.Costs held n) (hle : n ≤ m) :
    e.Costs held m := by
  induction e generalizing held n m with
  | done a => trivial
  | stop fault => trivial
  | token next ih =>
    obtain ⟨n, rfl, h⟩ := h
    exact ⟨m - 1, by omega, ih h (by omega)⟩
  | source path next ih => exact fun s => ih s (h s) hle
  | ask request next ih => exact ⟨h.1, fun a => ih a (h.2 a) hle⟩
  | patch issue completion text index next ih => exact fun q => ih q (h q) hle
  | report event next ih => exact ih h hle

/-- **One errand after another** costs what both cost, if the second never needs a token
that the first may have left. -/
theorem Costs.bind {e : Errand α} {f : α → Errand β} {held : Bool} {n m : Nat}
    (h : e.Costs held n) (hf : ∀ a held, (f a).Costs held m) : (e.bind f).Costs held (n + m) := by
  induction e generalizing held n with
  | done a => exact (hf a held).mono (by omega)
  | stop fault => trivial
  | token next ih =>
    obtain ⟨n, rfl, h⟩ := h
    exact ⟨n + m, by omega, ih h⟩
  | source path next ih => exact fun s => ih s (h s)
  | ask request next ih => exact ⟨h.1, fun a => ih a (h.2 a)⟩
  | patch issue completion text index next ih => exact fun q => ih q (h q)
  | report event next ih => exact ih h

theorem Costs.ofExcept {x : Except Fault α} {next : α → Errand β} {held : Bool} {n : Nat}
    (h : ∀ a, (next a).Costs held n) : (ofExcept x next).Costs held n := by
  cases x with
  | ok a => exact h a
  | error f => trivial

end Errand

/-! ## The calls of a proposer -/

/-- What a proposer is called for. -/
inductive Inquiry where
  | patch (issue : Issue) (index : Int)
  | candidates (issue : Issue) (count : Option Int)
  | explanation (issue : Issue)
  | review (issue : Issue) (patch : Patch)

/-- What a call gives. -/
inductive Given where
  | patch (made : Patch)
  | candidates (made : List Patch)
  | explanation (text : String)
  | review (made : Review)

namespace Proposer

variable (p : Proposer)

/-- Asking for a patch. -/
def patchErrand (issue : Issue) (index : Int) : Errand Patch :=
  .token <| .source issue.filePath fun source =>
    .ask (Proposal.patchRequest p.settings issue source) fun answer =>
      .ofExcept answer.text fun text => .patch issue text source index .done

/-- Asking for some patches, numbered from `index`. -/
def patchesErrand (issue : Issue) (index : Int) : Nat → Errand (List Patch)
  | 0 => .done []
  | count + 1 =>
    (p.patchErrand issue index).bind fun q =>
      (patchesErrand issue (index + 1) count).bind fun rest => .done (q :: rest)

theorem perform_patchErrand (issue : Issue) (index : Int) :
    (p.patchErrand issue index).perform p = p.propose issue index := by
  simp [patchErrand, propose, Errand.perform, Errand.perform_ofExcept]

theorem perform_patchesErrand (issue : Issue) (index : Int) (count : Nat) :
    (p.patchesErrand issue index count).perform p = p.proposeFrom issue index count := by
  induction count generalizing index with
  | zero => rfl
  | succ count ih =>
    simp [patchesErrand, proposeFrom, Errand.perform_bind, perform_patchErrand, ih, Errand.perform]

theorem patchErrand_costs (issue : Issue) (index : Int) (held : Bool) :
    (p.patchErrand issue index).Costs held 1 :=
  ⟨0, rfl, fun _ => ⟨rfl, fun _ => .ofExcept fun _ _ => trivial⟩⟩

theorem patchesErrand_costs (issue : Issue) (index : Int) (count : Nat) (held : Bool) :
    (p.patchesErrand issue index count).Costs held count := by
  induction count generalizing index held with
  | zero => trivial
  | succ count ih =>
    have hrest (q : Patch) (held : Bool) : ((p.patchesErrand issue (index + 1) count).bind
        fun rest => .done (q :: rest)).Costs held count :=
      (ih (index + 1) held).bind (m := 0) fun _ _ => trivial
    exact ((p.patchErrand_costs issue index held).bind hrest).mono (by omega)

end Proposer

namespace Inquiry

/-- Runs a call. -/
def run (p : Proposer) : Inquiry → Act Given
  | patch issue index => return .patch (← p.propose issue index)
  | candidates issue count => return .candidates (← p.candidates issue count)
  | explanation issue => return .explanation (← p.explain issue)
  | review issue q => return .review (← p.review issue q)

/-- How many answers a call wants. -/
def wanted (p : Proposer) : Inquiry → Nat
  | candidates _ count => (max 1 (count.getD p.settings.candidates)).toNat
  | _ => 1

/-- What a call has the proposer do. -/
def errand (p : Proposer) : Inquiry → Errand Given
  | patch issue index => (p.patchErrand issue index).bind fun q => .done (.patch q)
  | candidates issue count =>
    (p.patchesErrand issue 0 (max 1 (count.getD p.settings.candidates)).toNat).bind fun qs =>
      .done (.candidates (Patch.ranked qs))
  | explanation issue =>
    .token <| .ask (Proposal.explanationRequest p.settings issue) fun answer =>
      .ofExcept answer.plainText fun text => .done (.explanation (Text.strip text))
  | review issue q =>
    if q.diff == "" then
      .stop (.refuse .diffParse s!"Patch {q.id} has no diff to review." [("patch_id", .text q.id)])
    else
      .token <| .ask (Proposal.reviewRequest p.settings issue q) fun answer =>
        .ofExcept answer.plainText fun text =>
          .report (Proposer.reviewed issue q (.ofAnswer text)) <| .done (.review (.ofAnswer text))

/-- **Performing the errand of a call is running the call.** -/
theorem perform_errand (p : Proposer) (call : Inquiry) :
    (call.errand p).perform p = call.run p := by
  cases call with
  | patch issue index =>
    simp [errand, run, Errand.perform_bind, p.perform_patchErrand, Errand.perform]
  | candidates issue count =>
    simp [errand, run, Errand.perform_bind, p.perform_patchesErrand, Errand.perform,
      Proposer.candidates]
  | explanation issue =>
    simp [errand, run, Errand.perform, Errand.perform_ofExcept, Proposer.explain, Proposer.ask]
  | review issue q =>
    simp only [errand, run, Proposer.review]
    split
    · rfl
    · simp [Errand.perform, Errand.perform_ofExcept, Proposer.ask]

/-- **A call takes no more tokens than it wants answers**, and no question is asked without
a token. -/
theorem errand_costs (p : Proposer) (call : Inquiry) : (call.errand p).Costs false (call.wanted p) := by
  cases call with
  | patch issue index => exact (p.patchErrand_costs issue index false).bind (m := 0) fun _ _ => trivial
  | candidates issue count =>
    exact (p.patchesErrand_costs issue 0 _ false).bind (m := 0) fun _ _ => trivial
  | explanation issue => exact ⟨0, rfl, rfl, fun _ => .ofExcept fun _ => trivial⟩
  | review issue q =>
    simp only [errand]
    split
    · trivial
    · exact ⟨0, rfl, rfl, fun _ => .ofExcept fun _ => trivial⟩

end Inquiry

end RepairLoop
