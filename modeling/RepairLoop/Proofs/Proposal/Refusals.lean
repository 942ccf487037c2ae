import RepairLoop.Proofs.Steps
import RepairLoop.Proofs.World.Obeys
import RepairLoop.Proposal.Proposer
/-!
# Refusals — only the allowance refuses for the rate

A fault says that the rate is exceeded only where a token was asked for and there was none. Reading
sources, asking the service and building patches may fail in many ways, but not in that one: so a
call for a patch that is refused for the rate is refused by the allowance (`propose_ofRate`).
-/

namespace RepairLoop

variable {α β σ ε : Type}

/-- When to ask again, if the fault is that a rate is exceeded. -/
def Fault.hint? : Fault → Option Float
  | .refused .rateLimit _ _ _ after => some after
  | _ => none

/-- The fault is that a rate is exceeded. -/
def Fault.isOfRate (f : Fault) : Bool := f.hint?.isSome

/-- If this failed, then not for the rate. -/
def NotOfRate (r : Except Fault α) : Prop := ∀ f, r = .error f → f.isOfRate = false

namespace NotOfRate

theorem ok {a : α} : NotOfRate (.ok a) := fun _ h => by cases h

theorem error {f : Fault} (h : f.isOfRate = false) : NotOfRate (.error f : Except Fault α) :=
  fun _ hf => by cases hf; exact h

theorem bind {r : Except Fault α} {f : α → Except Fault β} (h : NotOfRate r)
    (hf : ∀ a, NotOfRate (f a)) : NotOfRate (r >>= f) := by
  cases r with
  | ok a => exact hf a
  | error e => exact error (h e rfl)

theorem ite {c : Prop} [Decidable c] {r r' : Except Fault α} (h : NotOfRate r)
    (h' : NotOfRate r') : NotOfRate (if c then r else r') := by
  split
  · exact h
  · exact h'

theorem mapError {r : Except ε α} {g : ε → Fault} (h : ∀ e, (g e).isOfRate = false) :
    NotOfRate (r.mapError g) := by
  cases r with
  | ok a => exact ok
  | error e => exact error (h e)

end NotOfRate

/-- This work never fails for the rate. -/
def NeverOfRate (x : ExceptT Fault (StateM σ) α) : Prop := ∀ s, NotOfRate (x.run s).1

namespace NeverOfRate

variable {x : ExceptT Fault (StateM σ) α} {f : α → ExceptT Fault (StateM σ) β}

theorem pure {a : α} : NeverOfRate (Pure.pure a : ExceptT Fault (StateM σ) α) := fun _ => .ok

theorem throw {e : Fault} (h : e.isOfRate = false) :
    NeverOfRate (MonadExcept.throw e : ExceptT Fault (StateM σ) α) := fun _ => .error h

theorem known {r : Except Fault α} (h : NotOfRate r) :
    NeverOfRate (liftM r : ExceptT Fault (StateM σ) α) := fun _ => h

theorem lift {y : StateM σ α} : NeverOfRate (liftM y : ExceptT Fault (StateM σ) α) := fun _ => .ok

theorem bind (hx : NeverOfRate x) (hf : ∀ a, NeverOfRate (f a)) : NeverOfRate (x >>= f) := by
  intro s
  rw [run_bind_eq]
  cases hrun : x.run s with
  | mk r t =>
    cases r with
    | ok a => exact hf a t
    | error e => exact .error (hx s e (by rw [hrun]))

theorem ofExcept {r : Except Fault α} (h : NotOfRate r) : NeverOfRate (Act.ofExcept r) := fun w => by
  rw [Act.ofExcept_run]
  exact h

theorem ite {c : Prop} [Decidable c] {y : ExceptT Fault (StateM σ) α} (h : NeverOfRate x)
    (h' : NeverOfRate y) : NeverOfRate (if c then x else y) := by
  split
  · exact h
  · exact h'

/-- A fault that is looked at is still not one for the rate. -/
theorem attempt_bind {x : Act α} {f : Except Fault α → Act β} (hx : NeverOfRate x)
    (hok : ∀ a, NeverOfRate (f (.ok a)))
    (herror : ∀ e : Fault, e.isOfRate = false → NeverOfRate (f (.error e))) :
    NeverOfRate (Act.attempt x >>= f) := by
  intro w
  rw [run_bind_eq, Act.attempt_run]
  cases hrun : x.run w with
  | mk r t =>
    cases r with
    | ok a => exact hok a t
    | error e => exact herror e (hx w e (by rw [hrun])) t

theorem supplying {y : ExceptT Fault (StateM Supply) α} (h : NeverOfRate y) :
    NeverOfRate (Act.supplying y) := fun w => by
  rw [Act.supplying_run]
  exact h w.supply

theorem emit (e : Event) : NeverOfRate (Act.emit e) := fun _ => .ok

theorem pause (time : Amount) : NeverOfRate (Act.pause time) := fun _ => .ok

end NeverOfRate

/-! ## Answers -/

namespace ModelAnswer

theorem memberOf_notOfRate (j : Json) (key : String) : NotOfRate (memberOf j key) := by
  cases j <;> first | exact .ok | exact .error rfl

theorem whole_notOfRate (j : Json) : NotOfRate (whole j) := by
  cases j with
  | float x =>
    unfold whole
    dsimp only
    split
    · exact .ok
    · split <;> exact .error rfl
  | text s => exact .mapError fun _ => rfl
  | int n => exact .ok
  | bool b => exact .ok
  | null => exact .error rfl
  | list js => exact .error rfl
  | object ms => exact .error rfl

theorem usageOf_notOfRate (prompt completion total : Json) :
    NotOfRate (usageOf prompt completion total) := by
  refine (whole_notOfRate _).bind fun p => (whole_notOfRate _).bind fun n => ?_
  dsimp only
  split
  · exact NotOfRate.ok.bind fun _ => .ok
  · exact (whole_notOfRate _).bind fun _ => .ok

theorem usageUnder_notOfRate (data : Json) (prompt completion : String) (total : Option String) :
    NotOfRate (usageUnder data prompt completion total) := by
  refine (memberOf_notOfRate _ _).bind fun p => (memberOf_notOfRate _ _).bind fun n => ?_
  dsimp only
  split
  · exact (memberOf_notOfRate _ _).bind fun t => usageOf_notOfRate p n t
  · exact NotOfRate.ok.bind fun t => usageOf_notOfRate p n t

theorem joinedTexts_notOfRate (number : Nat) (blocks : List Json) :
    NotOfRate (joinedTexts number blocks) := by
  induction blocks generalizing number with
  | nil => exact .ok
  | cons block rest ih =>
    unfold joinedTexts
    refine .ite ?_ (ih number)
    split
    · exact (ih (number + 1)).bind fun _ => .ok
    · exact .error rfl

theorem objectOf_notOfRate (form : BackendName) (raw : String) : NotOfRate (objectOf form raw) := by
  unfold objectOf
  split
  · exact .ok
  · exact .error rfl
  · exact .error rfl
  · exact .error rfl

theorem read_notOfRate (form : BackendName) (raw : String) : NotOfRate (read form raw) := by
  refine (objectOf_notOfRate form raw).bind fun data => ?_
  cases form with
  | openai =>
    dsimp only
    split
    · exact .error rfl
    · exact (usageUnder_notOfRate _ _ _ _).bind fun _ => .ok
  | anthropic =>
    dsimp only
    split
    · exact (joinedTexts_notOfRate _ _).bind fun _ => (usageUnder_notOfRate _ _ _ _).bind fun _ => .ok
    · exact .error rfl
  | local_ =>
    dsimp only
    split
    · exact (usageOf_notOfRate _ _ _).bind fun _ => .ok
    · exact .error rfl

theorem text_notOfRate (a : ModelAnswer) : NotOfRate a.text := by
  unfold text
  split
  · exact .ok
  · exact .error rfl

end ModelAnswer

/-! ## The service -/

namespace Service

variable (s : Service)

theorem webAddress_notOfRate (address : String) : NotOfRate (webAddress address) := by
  unfold webAddress
  extract_lets
  exact .ite (.error rfl) .ok

theorem send_neverOfRate (payload : Json) : NeverOfRate (s.send payload) := by
  unfold send
  split
  · refine NeverOfRate.bind (fun _ => .ok) fun reply => ?_
    split
    · exact .pure
    · exact .throw rfl
  · refine NeverOfRate.bind (.ofExcept ?_) fun address =>
      NeverOfRate.bind (fun _ => .ok) fun reply => .ofExcept ?_
    · exact webAddress_notOfRate _
    · unfold received
      split
      · split
        · exact .error rfl
        · exact .ok
      · exact .error rfl
      · exact .error rfl
      · exact .error rfl

theorem attempt_neverOfRate (payload : Json) : NeverOfRate (s.attempt payload) :=
  (s.send_neverOfRate payload).bind fun _ => .ofExcept (ModelAnswer.read_notOfRate _ _)

theorem attemptFrom_neverOfRate (r : ModelRequest) (payload : Json) (left number : Nat) :
    NeverOfRate (s.attemptFrom r payload left number) := by
  induction left generalizing number with
  | zero => exact .throw rfl
  | succ left ih =>
    unfold attemptFrom
    refine NeverOfRate.attempt_bind (s.attempt_neverOfRate payload) (fun a => ?_) fun f hf => ?_
    · exact (NeverOfRate.emit _).bind fun _ => .pure
    · refine .ite ?_ (.throw hf)
      exact .ite ((NeverOfRate.pause _).bind fun _ => ih (number + 1)) (ih (number + 1))

theorem ask_neverOfRate (r : ModelRequest) : NeverOfRate (s.ask r) :=
  s.attemptFrom_neverOfRate _ _ _ _

end Service

/-! ## Sources and patches -/

namespace Proposal

theorem readSource_notOfRate (files : FileTree) (root : Path) (relative : String) :
    NotOfRate (readSource files root relative) := by
  unfold readSource
  refine .ite (.error rfl) ?_
  split
  · rename_i e _
    cases e <;> exact .error rfl
  · refine .ite (.ite (.error rfl) ?_) .ok
    split
    · unfold readText
      split
      · exact .ok
      · exact .error rfl
    · exact .ok

theorem targetOf_notOfRate (x : Diff.Extraction) (path : String) : NotOfRate (targetOf x path) := by
  unfold targetOf
  split
  · exact .ok
  · exact .error rfl

theorem draft_notOfRate {read : String → Except Fault String} (h : ∀ path, NotOfRate (read path))
    (path source completion : String) : NotOfRate (draft read path source completion) := by
  unfold draft
  split
  · exact .error rfl
  · exact .ok
  · refine (targetOf_notOfRate _ _).bind fun target => ?_
    dsimp only
    split
    · exact NotOfRate.ok.bind fun _ => .ok
    · exact (h _).bind fun _ => .ok

theorem invalidated_neverOfRate (p : Patch) (kind : ErrorKind) :
    NeverOfRate (invalidated p kind) :=
  fun s => by
    rw [invalidated, run_mapError_eq]
    exact .mapError fun _ => rfl

theorem gated_neverOfRate (settings : SafetySettings) (p : Patch) :
    NeverOfRate (gated settings p) :=
  .ite (invalidated_neverOfRate _ _)
    (.ite .pure (.ite .pure (invalidated_neverOfRate _ _)))

theorem treeOf_notOfRate (code : String) : NotOfRate (treeOf code) := by
  unfold treeOf
  refine .ite (.error rfl) ?_
  split <;> exact .ok

theorem publicNames_notOfRate (code : String) (language : Language) :
    NotOfRate (publicNames code language) := by
  cases language with
  | rust => exact .ok
  | python =>
    refine (treeOf_notOfRate code).bind fun t => ?_
    cases t <;> exact .ok
  | text => exact .ok

theorem breakingChanges_notOfRate (before after : String) (language : Language) :
    NotOfRate (breakingChanges before after language) :=
  (publicNames_notOfRate _ _).bind fun _ => (publicNames_notOfRate _ _).bind fun _ => .ok

theorem dependencies_notOfRate (code : String) (language : Language) :
    NotOfRate (dependencies code language) := by
  cases language with
  | rust => exact .ok
  | python =>
    refine (treeOf_notOfRate code).bind fun t => ?_
    cases t <;> exact .ok
  | text => exact .ok

theorem patchOf_neverOfRate {read : String → Except Fault String}
    (h : ∀ path, NotOfRate (read path)) (settings : SafetySettings) (dangers : List (Danger Float))
    (issue : Issue) (completion source : String) (index : Int) :
    NeverOfRate (patchOf read settings dangers issue completion source index) := by
  refine NeverOfRate.lift.bind fun p =>
    (NeverOfRate.known (draft_notOfRate h _ _ _)).bind fun d => ?_
  split
  · exact (invalidated_neverOfRate _ _).bind fun _ => .pure
  · exact (NeverOfRate.known (breakingChanges_notOfRate _ _ _)).bind fun _ =>
      (NeverOfRate.known (dependencies_notOfRate _ _)).bind fun _ =>
        (gated_neverOfRate _ _).bind fun _ => .pure

end Proposal

namespace Proposer

variable (p : Proposer)

theorem read_neverOfRate (path : String) : NeverOfRate (p.read path) :=
  NeverOfRate.bind (fun _ => .ok) fun _ => .ofExcept (Proposal.readSource_notOfRate _ _ _)

theorem build_neverOfRate (issue : Issue) (completion source : String) (index : Int) :
    NeverOfRate (p.build issue completion source index) :=
  NeverOfRate.bind (fun _ => .ok) fun _ =>
    (NeverOfRate.supplying
      (Proposal.patchOf_neverOfRate (Proposal.readSource_notOfRate _ _) _ _ _ _ _ _)).bind fun _ =>
        (NeverOfRate.emit _).bind fun _ => .pure

/-- Where a token is asked for in vain, the allowance has none and says when it will. -/
theorem takeToken_stopped {w w' : World} {f : Fault} (h : takeToken.run w = (.error f, w')) :
    ∃ a left e, w.allowance = some a ∧ a.take 1 w.seconds = (left, .error e) ∧ f = e.toFault := by
  unfold takeToken at h
  rw [run_bind_of_ok (show (get : Act World).run w = (.ok w, w) from rfl)] at h
  cases hallowance : w.allowance with
  | none =>
    rw [hallowance] at h
    cases (Prod.mk.inj h).1
  | some a =>
    rw [hallowance] at h
    cases htake : a.take 1 w.seconds with
    | mk left taken =>
      simp only [htake] at h
      cases taken with
      | ok u => cases (Prod.mk.inj h).1
      | error e => exact ⟨a, left, e, rfl, htake, (Except.error.inj (Prod.mk.inj h).1).symm⟩

/-- **Only the allowance refuses for the rate.** A call for a patch that is refused so was refused
the token that it asked for. -/
theorem propose_ofRate {issue : Issue} {index : Int} {w w' : World} {f : Fault}
    (h : (p.propose issue index).run w = (.error f, w')) (hrate : f.isOfRate = true) :
    ∃ a left e, w.allowance = some a ∧ a.take 1 w.seconds = (left, .error e) ∧ f = e.toFault := by
  unfold propose at h
  rw [run_bind_eq] at h
  cases htoken : takeToken.run w with
  | mk r t =>
    cases r with
    | error e =>
      rw [htoken] at h
      obtain ⟨he, -⟩ := Prod.mk.inj h
      exact Except.error.inj he ▸ takeToken_stopped htoken
    | ok u =>
      rw [htoken] at h
      have hrest : NeverOfRate (do
          let source ← p.read issue.filePath
          let answer ← p.service.ask (Proposal.patchRequest p.settings issue source)
          p.build issue (← Act.ofExcept answer.text) source index) :=
        (p.read_neverOfRate _).bind fun _ => (p.service.ask_neverOfRate _).bind fun answer =>
          (NeverOfRate.ofExcept answer.text_notOfRate).bind fun _ => p.build_neverOfRate _ _ _ _
      have hfalse := hrest t f (congrArg Prod.fst h)
      rw [hrate] at hfalse
      cases hfalse

end Proposer

end RepairLoop
