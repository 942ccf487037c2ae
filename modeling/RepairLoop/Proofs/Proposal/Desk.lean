import Mathlib.Data.NNRat.Defs
import RepairLoop.Proofs.Proposal.Allowance
import RepairLoop.Proofs.Proposal.Errand
/-!
# The desk — calls of one proposer that take turns

Calls of one proposer share its allowance. At the `Desk` they take turns in any order, one
step of an errand at a time, while an exact clock goes on in between as it likes; what the
files and the service supply is arbitrary. A call is refused for good when it finds no
token.

The ledger of the allowance has an entry for each question that was asked, and one for
each token that a call still holds (`Desk.Sound`); a step keeps it (`Sound.happen`). So
each window of the grid gives no more tokens than its share, whenever the questions that
they are for are then asked.
-/

namespace RepairLoop

open Allowance (within Ledger)

/-! ## Steps of calls -/

/-- How a call stands: at work, perhaps with a token for its next question, or refused. -/
inductive Standing where
  | atWork (token : Option ℚ) (rest : Errand Given)
  | refused (e : Exhausted ℚ)

/-- When the token was taken that a call holds. -/
def Standing.token? : Standing → Option ℚ
  | atWork token _ => token
  | refused _ => none

/-- A call that was made, and how it stands. -/
structure Caller where
  call : Inquiry
  standing : Standing

/-- A question that the service was asked: which call asked it, when, and when the token
for it was taken. -/
structure Asked where
  caller : ℕ
  token : Option ℚ
  time : ℚ

/-- What the files and the service supply. -/
structure Supplied where
  source : Except Fault String
  answer : Except Fault ModelAnswer
  patch : Except Fault Patch

/-- The calls of a proposer, its allowance, and all that the service was asked. -/
structure Desk where
  clock : ℚ
  allowance : Allowance ℚ
  callers : List Caller
  asked : List Asked

/-- What happens at a desk. -/
inductive Happening where
  | pass (span : ℚ≥0)
  | call (call : Inquiry)
  | step (caller : ℕ) (given : Supplied)

namespace Desk

/-- A desk as an allowance is made for it. -/
def opened (a : Allowance ℚ) : Desk := ⟨a.started, a, [], []⟩

/-- A call comes to stand in another way. -/
def place (d : Desk) (i : ℕ) (s : Standing) : Desk :=
  { d with callers := d.callers.modify i fun c => { c with standing := s } }

/-- A call takes its next step. -/
def work (d : Desk) (i : ℕ) (given : Supplied) (token : Option ℚ) : Errand Given → Desk
  | .done _ | .stop _ => d
  | .token next =>
    match d.allowance.take 1 d.clock with
    | (left, .ok ()) => { d with allowance := left }.place i (.atWork (some d.clock) next)
    | (left, .error e) => { d with allowance := left }.place i (.refused e)
  | .source _ next => d.place i (.atWork token (.ofExcept given.source next))
  | .ask _ next =>
    { d with asked := d.asked ++ [Asked.mk i token d.clock] }.place i
      (.atWork none (.ofExcept given.answer next))
  | .patch _ _ _ _ next => d.place i (.atWork token (.ofExcept given.patch next))
  | .report _ next => d.place i (.atWork token next)

/-- What happens next. -/
def happen (p : Proposer) (d : Desk) : Happening → Desk
  | .pass span => { d with clock := d.clock + span }
  | .call call => { d with callers := d.callers ++ [Caller.mk call (.atWork none (call.errand p))] }
  | .step i given =>
    match (d.callers[i]?).map Caller.standing with
    | some (.atWork token rest) => d.work i given token rest
    | _ => d

/-- How many questions a call has asked. -/
def callsOf (d : Desk) (i : ℕ) : ℕ := d.asked.countP (·.caller = i)

/-- When the tokens were taken that questions were asked with or that calls hold. -/
def held (d : Desk) : List ℚ :=
  d.asked.filterMap Asked.token ++ d.callers.filterMap (·.standing.token?)

end Desk

/-- A call can do what is left of it with the tokens that it still wants, or was refused
before it had asked all its questions. -/
def Caller.Fits (p : Proposer) (calls : ℕ) (c : Caller) : Prop :=
  match c.standing with
  | .atWork token rest =>
    ∃ n, rest.Costs token.isSome n ∧ calls + token.toList.length + n ≤ c.call.wanted p
  | .refused _ => calls < c.call.wanted p

/-! ## What a step keeps -/

namespace Desk

variable {c : Int} {w t₀ : ℚ} {p : Proposer} {d : Desk} {i : ℕ} {caller : Caller}

theorem callers_place (h : d.callers[i]? = some caller) (s : Standing) :
    ∃ before after, before.length = i ∧ d.callers = before ++ caller :: after ∧
      (d.place i s).callers = before ++ { caller with standing := s } :: after := by
  obtain ⟨hlt, hget⟩ := List.getElem?_eq_some_iff.1 h
  have hsplit : d.callers = d.callers.take i ++ caller :: d.callers.drop (i + 1) := by
    rw [← hget, List.getElem_cons_drop, List.take_append_drop]
  refine ⟨_, _, List.length_take_of_le hlt.le, hsplit, ?_⟩
  rw [place, List.modify_eq_take_cons_drop hlt, hget]

theorem perm_middle (asked : List ℚ) (before : List Caller) (caller : Caller)
    (after : List Caller) :
    (asked ++ (before ++ caller :: after).filterMap (·.standing.token?)).Perm
      (caller.standing.token?.toList ++ (asked ++ (before.filterMap (·.standing.token?) ++
        after.filterMap (·.standing.token?)))) := by
  have hcaller : (caller :: after).filterMap (·.standing.token?) =
      caller.standing.token?.toList ++ after.filterMap (·.standing.token?) := by
    cases htoken : caller.standing.token? <;> simp [htoken]
  rw [List.filterMap_append, hcaller]
  exact ((List.perm_append_comm_assoc _ _ _).append_left asked).trans
    (List.perm_append_comm_assoc _ _ _)

/-- In the place of the token that a call held stands the one that it holds now. -/
theorem held_place (h : d.callers[i]? = some caller) (s : Standing) :
    ∃ rest, d.held.Perm (caller.standing.token?.toList ++ rest) ∧
      (d.place i s).held.Perm (s.token?.toList ++ rest) := by
  obtain ⟨before, after, -, hbefore, hafter⟩ := callers_place h s
  refine ⟨d.asked.filterMap Asked.token ++ (before.filterMap (·.standing.token?) ++
    after.filterMap (·.standing.token?)), ?_, ?_⟩
  · rw [held, hbefore]
    exact perm_middle _ _ _ _
  · rw [held, hafter]
    exact perm_middle _ _ _ _

/-- What is known of a desk: its ledger has the tokens of all questions and calls, each
question was asked with a token, and each call fits what it has asked. -/
structure Sound (c : Int) (w t₀ : ℚ) (p : Proposer) (d : Desk) : Prop where
  ledger : Ledger c w t₀ d.allowance d.clock d.held
  asked : ∀ q ∈ d.asked, q.caller < d.callers.length ∧ q.time ≤ d.clock ∧
    ∃ t, q.token = some t ∧ t ≤ q.time
  callers : ∀ i (caller : Caller), d.callers[i]? = some caller → caller.Fits p (d.callsOf i)

theorem opened_sound {a : Allowance ℚ} (h : Allowance.make c w t₀ = .ok a) :
    Sound c w t₀ p (opened a) := by
  refine ⟨?_, by simp [opened], by simp [opened]⟩
  simpa [opened, held, (Allowance.make_kept h).2.2] using Ledger.new h

/-- **A call comes to stand in another way**, perhaps with a question asked: what is to be
seen of it are the ledger and that the call fits. -/
theorem Sound.place (h : Sound c w t₀ p d) (hcaller : d.callers[i]? = some caller)
    {a : Allowance ℚ} {more : List Asked} {s : Standing}
    (hmore : ∀ q ∈ more, q.caller = i ∧ q.time = d.clock ∧ ∃ t, q.token = some t ∧ t ≤ d.clock)
    (hledger : Ledger c w t₀ a d.clock (more.filterMap Asked.token ++ (d.place i s).held))
    (hfits : Caller.Fits p (d.callsOf i + more.length) ⟨caller.call, s⟩) :
    Sound c w t₀ p (({ d with allowance := a, asked := d.asked ++ more } : Desk).place i s) := by
  have hlength : (d.callers.modify i fun c => { c with standing := s }).length = d.callers.length :=
    List.length_modify _ _ _
  have hlt : i < d.callers.length := (List.getElem?_eq_some_iff.1 hcaller).1
  refine ⟨hledger.subperm ?_, fun q hq => ?_, fun j other hother => ?_⟩
  · simp only [held, Desk.place, List.filterMap_append, List.append_assoc]
    exact (List.perm_append_comm_assoc _ _ _).subperm
  · show q.caller < (d.callers.modify i _).length ∧ _
    rw [hlength]
    rcases List.mem_append.1 hq with hq | hq
    · exact h.asked q hq
    · obtain ⟨hi, htime, t, htoken, hle⟩ := hmore q hq
      exact ⟨hi ▸ hlt, htime.le, t, htoken, htime ▸ hle⟩
  · have hcalls : (({ d with allowance := a, asked := d.asked ++ more } : Desk).place i s).callsOf j =
        d.callsOf j + more.countP (·.caller = j) := List.countP_append
    have hget : (d.callers.modify i fun c => { c with standing := s })[j]? = some other := hother
    rw [List.getElem?_modify] at hget
    rw [hcalls]
    split at hget
    · -- the call itself
      rename_i heq
      subst heq
      rw [hcaller] at hget
      cases hget
      rwa [List.countP_eq_length.2 fun q hq => by simpa using (hmore q hq).1]
    · rename_i hne
      have hnone : more.countP (·.caller = j) = 0 :=
        List.countP_eq_zero.2 fun q hq => by simpa [(hmore q hq).1] using hne
      rw [hnone]
      exact h.callers j other (by simpa using hget)

/-- Where nothing is asked, the ledger and the call are all that is to be seen of it. -/
theorem Sound.place_unasked (h : Sound c w t₀ p d) (hcaller : d.callers[i]? = some caller)
    {a : Allowance ℚ} {s : Standing} (hledger : Ledger c w t₀ a d.clock (d.place i s).held)
    (hfits : Caller.Fits p (d.callsOf i) ⟨caller.call, s⟩) :
    Sound c w t₀ p (({ d with allowance := a } : Desk).place i s) := by
  have hplaced : Sound c w t₀ p
      (({ d with allowance := a, asked := d.asked ++ [] } : Desk).place i s) :=
    h.place hcaller (by simp) hledger hfits
  simpa using hplaced

/-- A call that goes on with the token that it has. -/
theorem Sound.goOn (h : Sound c w t₀ p d) (hcaller : d.callers[i]? = some caller) {s : Standing}
    (htoken : s.token? = caller.standing.token?)
    (hfits : Caller.Fits p (d.callsOf i) ⟨caller.call, s⟩) : Sound c w t₀ p (d.place i s) := by
  obtain ⟨rest, hbefore, hafter⟩ := held_place hcaller s
  rw [htoken] at hafter
  exact h.place_unasked hcaller (h.ledger.subperm (hafter.trans hbefore.symm).subperm) hfits

variable {call : Inquiry} {token : Option ℚ} {n : ℕ}

/-- A call takes a token if there is one, and is refused if there is none. -/
theorem Sound.take (h : Sound c w t₀ p d) {next : Errand Given}
    (hcaller : d.callers[i]? = some ⟨call, .atWork token (.token next)⟩)
    (hnext : next.Costs true n) (hwanted : d.callsOf i + n < call.wanted p) :
    Sound c w t₀ p (match d.allowance.take 1 d.clock with
      | (left, .ok ()) => { d with allowance := left }.place i (.atWork (some d.clock) next)
      | (left, .error e) => { d with allowance := left }.place i (.refused e)) := by
  have hless {others : List ℚ}
      (hbefore : d.held.Perm (token.toList ++ others)) : others.Subperm d.held :=
    (List.sublist_append_right _ _).subperm.trans hbefore.symm.subperm
  rcases d.allowance.take_cases 1 d.clock with ⟨-, htake⟩ | ⟨hsome, htake⟩
  · rw [htake]
    obtain ⟨others, hbefore, hafter⟩ := held_place hcaller (.refused _)
    exact h.place_unasked hcaller (h.ledger.at_.subperm (hafter.subperm.trans (hless hbefore)))
      (show d.callsOf i < call.wanted p by omega)
  · rw [htake]
    obtain ⟨others, hbefore, hafter⟩ := held_place hcaller (.atWork (some d.clock) next)
    exact h.place_unasked hcaller ((h.ledger.take hsome).subperm
      (hafter.subperm.trans ((List.subperm_cons d.clock).2 (hless hbefore))))
      ⟨n, hnext, show d.callsOf i + 1 + n ≤ call.wanted p by omega⟩

/-- A call asks with the token that it holds, which is from then on that of the question. -/
theorem Sound.ask (h : Sound c w t₀ p d) {t : ℚ} {rest next : Errand Given}
    (hcaller : d.callers[i]? = some ⟨call, .atWork (some t) rest⟩)
    (hnext : next.Costs false n) (hwanted : d.callsOf i + 1 + n ≤ call.wanted p) :
    Sound c w t₀ p ({ d with asked := d.asked ++ [Asked.mk i (some t) d.clock] }.place i
      (.atWork none next)) := by
  obtain ⟨others, hbefore, hafter⟩ := held_place hcaller (.atWork none next)
  have hin : t ∈ d.held := hbefore.symm.subset List.mem_cons_self
  have htime : t ≤ d.clock := (h.ledger.times t hin).2.1
  refine h.place hcaller (by simpa using htime) ?_ ⟨n, hnext, hwanted⟩
  exact h.ledger.subperm ((hafter.cons t).trans hbefore.symm).subperm

/-- **A step of a call** keeps what is known of the desk. -/
theorem Sound.work (h : Sound c w t₀ p d) {rest : Errand Given}
    (hcaller : d.callers[i]? = some ⟨call, .atWork token rest⟩) (given : Supplied) :
    Sound c w t₀ p (d.work i given token rest) := by
  obtain ⟨n, hcosts, hwanted⟩ := h.callers i _ hcaller
  cases rest with
  | done result => exact h
  | stop fault => exact h
  | token next =>
    obtain ⟨m, rfl, hnext⟩ := hcosts
    exact h.take hcaller hnext (by dsimp only at hwanted; omega)
  | source path next => exact h.goOn hcaller rfl ⟨n, .ofExcept hcosts, hwanted⟩
  | ask request next =>
    obtain ⟨hheld, hnext⟩ := hcosts
    obtain ⟨t, rfl⟩ := Option.isSome_iff_exists.1 hheld
    exact h.ask hcaller (.ofExcept hnext) hwanted
  | patch issue completion text index next =>
    exact h.goOn hcaller rfl ⟨n, .ofExcept hcosts, hwanted⟩
  | report event next => exact h.goOn hcaller rfl ⟨n, hcosts, hwanted⟩

/-- A call that is made wants all its answers. -/
theorem Sound.newCall (h : Sound c w t₀ p d) (call : Inquiry) :
    Sound c w t₀ p (d.happen p (.call call)) := by
  refine ⟨?_, fun q hq => ⟨?_, (h.asked q hq).2⟩, fun i caller hcaller => ?_⟩
  · simpa [happen, held, Standing.token?] using h.ledger
  · exact (h.asked q hq).1.trans (by simp [happen])
  · have hget : (d.callers ++ [⟨call, .atWork none (call.errand p)⟩])[i]? = some caller := hcaller
    rcases Nat.lt_trichotomy i d.callers.length with hlt | rfl | hgt
    · rw [List.getElem?_append_left hlt] at hget
      exact h.callers i caller hget
    · rw [List.getElem?_append_right (le_refl _), Nat.sub_self] at hget
      cases hget
      have hnone : d.callsOf d.callers.length = 0 :=
        List.countP_eq_zero.2 fun q hq => by simpa using (h.asked q hq).1.ne
      exact ⟨_, call.errand_costs p,
        show d.callsOf d.callers.length + 0 + call.wanted p ≤ call.wanted p by omega⟩
    · rw [List.getElem?_eq_none (by simp; omega)] at hget
      cases hget

/-- **Whatever happens next** keeps what is known of the desk. -/
theorem Sound.happen (h : Sound c w t₀ p d) (e : Happening) : Sound c w t₀ p (d.happen p e) := by
  cases e with
  | pass span =>
    have hle : d.clock ≤ d.clock + span := le_add_of_nonneg_right span.2
    exact ⟨h.ledger.later hle, fun q hq => ⟨(h.asked q hq).1, (h.asked q hq).2.1.trans hle,
      (h.asked q hq).2.2⟩, h.callers⟩
  | call call => exact h.newCall call
  | step i given =>
    simp only [Desk.happen]
    split
    · rename_i token rest hstanding
      obtain ⟨⟨call, standing⟩, hcaller, rfl⟩ := Option.map_eq_some_iff.1 hstanding
      exact h.work hcaller given
    · exact h

/-! ## What holds after any run -/

/-- What happens, one after another. -/
def run (p : Proposer) (d : Desk) (happenings : List Happening) : Desk :=
  happenings.foldl (happen p) d

theorem Sound.run (h : Sound c w t₀ p d) (happenings : List Happening) :
    Sound c w t₀ p (d.run p happenings) := by
  induction happenings generalizing d with
  | nil => exact h
  | cons e rest ih => exact ih (h.happen e)

/-- The rate at which a desk asks is bounded. -/
structure Bounded (c : Int) (w t₀ : ℚ) (p : Proposer) (d : Desk) : Prop where
  /-- No question without a token, which was taken before. -/
  paid : ∀ q ∈ d.asked, ∃ t, q.token = some t ∧ t₀ ≤ t ∧ t ≤ q.time
  /-- A window gives tokens for so many questions at most. -/
  taken : ∀ k : ℤ, (d.asked.countP fun q => q.token.any (within t₀ w k)) ≤ c
  /-- In a window no more questions are asked, but for those whose token is older. -/
  made : ∀ k : ℤ, (d.asked.countP fun q => within t₀ w k q.time) ≤
    c + d.asked.countP fun q => within t₀ w k q.time && q.token.any (· < t₀ + k * w)
  /-- Up to a moment the windows before it and its own have given the tokens. -/
  total : ∀ t, t₀ ≤ t → (d.asked.countP (·.time ≤ t)) ≤ c * (⌊(t - t₀) / w⌋ + 1)
  /-- The allowance has never less than none and never more than all. -/
  tokens : 0 ≤ d.allowance.tokens ∧ d.allowance.tokens ≤ c
  /-- A call that was refused has asked less than it wanted to, and nothing if it wanted a
  single answer. -/
  refused : ∀ i call e, d.callers[i]? = some ⟨call, .refused e⟩ → d.callsOf i < call.wanted p

/-- Questions are counted by their tokens where each has one. -/
theorem countP_token (hpaid : ∀ q ∈ d.asked, ∃ t, q.token = some t) (P : ℚ → Bool) :
    (d.asked.countP fun q => q.token.any P) ≤ d.held.countP P := by
  rw [held, List.countP_append, List.countP_filterMap]
  refine le_add_of_le_left (List.countP_mono_left fun q hq hP => ?_)
  obtain ⟨t, ht⟩ := hpaid q hq
  simpa [ht] using hP

theorem Sound.bounded (h : Sound c w t₀ p d) : Bounded c w t₀ p d := by
  have hpaid (q) (hq : q ∈ d.asked) : ∃ t, q.token = some t ∧ t₀ ≤ t ∧ t ≤ q.time := by
    obtain ⟨-, -, t, ht, hle⟩ := h.asked q hq
    have hin : t ∈ d.held := List.mem_append_left _ (List.mem_filterMap.2 ⟨q, hq, ht⟩)
    exact ⟨t, ht, (h.ledger.times t hin).1, hle⟩
  have hcount := countP_token fun q hq => (hpaid q hq).imp fun t ht => ht.1
  have htaken (k : ℤ) : (d.asked.countP fun q => q.token.any (within t₀ w k) : ℤ) ≤ c :=
    (Int.ofNat_le.2 (hcount _)).trans (h.ledger.share k)
  refine ⟨hpaid, htaken, fun k => ?_, fun t ht => ?_, h.ledger.kept.tokens, ?_⟩
  · have hsplit := Allowance.countP_le_add (l := d.asked)
      (p := fun q => within t₀ w k q.time) (q := fun q => q.token.any (within t₀ w k))
      (r := fun q => within t₀ w k q.time && q.token.any (· < t₀ + k * w)) fun q hq hmade => by
        -- a token of that window, or an older one
        obtain ⟨t, ht, -, hle⟩ := hpaid q hq
        simp only [within, Bool.and_eq_true, decide_eq_true_eq] at hmade
        rcases lt_or_ge t (t₀ + k * w) with hold | hnew
        · exact .inr (by simp [ht, within, hmade, hold])
        · exact .inl (by simp [ht, within, hnew, hle.trans_lt hmade.2])
    have hshare := htaken k
    omega
  · have hle : d.asked.countP (·.time ≤ t) ≤ d.asked.countP fun q => q.token.any (· ≤ t) := by
      refine List.countP_mono_left fun q hq htime => ?_
      obtain ⟨s, hs, -, hle⟩ := hpaid q hq
      simpa [hs] using hle.trans (by simpa using htime)
    calc (d.asked.countP (·.time ≤ t) : ℤ) ≤ d.held.countP (· ≤ t) :=
          Int.ofNat_le.2 (hle.trans (hcount _))
      _ ≤ c * (⌊(t - t₀) / w⌋ + 1) := h.ledger.countP_upTo ht
  · intro i call e hcaller
    exact h.callers i _ hcaller

/-- What one call does changes nothing of the others. -/
theorem work_other {j : ℕ} (hne : j ≠ i) (d : Desk) (given : Supplied) (token : Option ℚ)
    (rest : Errand Given) : (d.work j given token rest).callers[i]? = d.callers[i]? ∧
      (d.work j given token rest).callsOf i = d.callsOf i := by
  have hplace (d : Desk) (s : Standing) : (d.place j s).callers[i]? = d.callers[i]? := by
    simp [place, hne]
  cases rest with
  | done result => exact ⟨rfl, rfl⟩
  | stop fault => exact ⟨rfl, rfl⟩
  | token next =>
    simp only [work]
    split
    · exact ⟨hplace _ _, rfl⟩
    · exact ⟨hplace _ _, rfl⟩
  | source path next => exact ⟨hplace _ _, rfl⟩
  | ask request next =>
    refine ⟨hplace _ _, ?_⟩
    simp [work, callsOf, place, hne]
  | patch issue completion text index next => exact ⟨hplace _ _, rfl⟩
  | report event next => exact ⟨hplace _ _, rfl⟩

/-- **A call that is refused is refused for good**: it asks nothing any more. -/
theorem run_refused {call : Inquiry} {e : Exhausted ℚ}
    (h : d.callers[i]? = some ⟨call, .refused e⟩) (happenings : List Happening) :
    (d.run p happenings).callers[i]? = some ⟨call, .refused e⟩ ∧
      (d.run p happenings).callsOf i = d.callsOf i := by
  induction happenings generalizing d with
  | nil => exact ⟨h, rfl⟩
  | cons next rest ih =>
    have hnext : (d.happen p next).callers[i]? = some ⟨call, .refused e⟩ ∧
        (d.happen p next).callsOf i = d.callsOf i := by
      cases next with
      | pass span => exact ⟨h, rfl⟩
      | call more =>
        refine ⟨?_, rfl⟩
        rw [← h]
        exact List.getElem?_append_left (List.getElem?_eq_some_iff.1 h).1
      | step j given =>
        simp only [happen]
        split
        · rename_i token rest hstanding
          have hne : j ≠ i := by
            rintro rfl
            rw [h] at hstanding
            cases hstanding
          exact h ▸ work_other hne d given token rest
        · exact ⟨h, rfl⟩
    obtain ⟨hcaller, hcalls⟩ := ih hnext.1
    exact ⟨hcaller, hcalls.trans hnext.2⟩

/-- **The rate of questions is bounded**, whichever calls take turns at a desk and however
the time passes in between. What the calls do there is what they do when they are run. -/
theorem run_bounded {a : Allowance ℚ} (p : Proposer) (h : Allowance.make c w t₀ = .ok a)
    (happenings : List Happening) :
    (∀ call : Inquiry, (call.errand p).perform p = call.run p) ∧
      Bounded c w t₀ p ((opened a).run p happenings) ∧
      ∀ i call e, ((opened a).run p happenings).callers[i]? = some ⟨call, .refused e⟩ →
        ∀ more, ((opened a).run p (happenings ++ more)).callsOf i =
          ((opened a).run p happenings).callsOf i := by
  refine ⟨Inquiry.perform_errand p, ((opened_sound h).run happenings).bounded,
    fun i call e hrefused more => ?_⟩
  rw [run, List.foldl_append]
  exact (run_refused hrefused more).2

/-! ## Examples of runs -/

/-- A proposer that asks a model once at most. -/
def once : Proposer :=
  { (default : Proposer) with service := ⟨.local_, "m", true, "", "", .whole 1, 1, .whole 0⟩ }

/-- Empty files and an empty answer. -/
def nothing : Supplied := ⟨.ok "", .ok default, .ok default⟩

/-- A call for a patch takes the only token of a window near its end and asks in the next
one, in which there is a token for another call. -/
def overtaking : List Happening :=
  [.call (.patch default 0), .pass (9 / 10), .step 0 nothing, .pass (2 / 10), .step 0 nothing,
    .step 0 nothing, .call (.explanation default), .step 1 nothing, .step 1 nothing]

theorem run_bounded_overtaking : Allowance.make 1 1 0 = .ok ⟨1, 1, 1, (0 : ℚ)⟩ ∧
    Bounded 1 1 0 once ((opened ⟨1, 1, 1, 0⟩).run once overtaking) :=
  ⟨rfl, (run_bounded once rfl overtaking).2.1⟩

/-- A world in which a model answers, and may be asked once a minute. -/
def answering : World :=
  { (default : World) with
    modelCalls := []
    allowance := some ⟨1, 60, 1, 0⟩
    outside := { (default : Outside) with model := fun _ => .answer "\x7b\"response\": \"x\"\x7d" } }

/-- Refused for its rate, with one question asked. -/
def refusedOnce : Except Fault (List Patch) × World → Bool
  | (.error (.refused .rateLimit .rateLimit ..), w') => w'.modelCalls.length == 1
  | _ => false

/-- Asking for two candidates is refused when the first of them has been made; and the two
questions of `overtaking` are asked in one window, which gives one token. -/
theorem run_overtaken :
    (∃ message details after w', (once.candidates default (some 2)).run answering =
        (.error (.refused .rateLimit .rateLimit message details after), w') ∧
      w'.modelCalls.length = 1) ∧
    ((opened ⟨1, 1, 1, 0⟩).run once overtaking).asked.countP (fun q => within 0 1 1 q.time) = 2 := by
  have hcandidates : refusedOnce ((once.candidates default (some 2)).run answering) = true := by
    decide +kernel
  refine ⟨?_, by decide +kernel⟩
  unfold refusedOnce at hcandidates
  split at hcandidates
  · rename_i message details after w' heq
    exact ⟨message, details, after, w', heq, by simpa using hcandidates⟩
  · cases hcandidates

end Desk

end RepairLoop
