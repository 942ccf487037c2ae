import Mathlib.Data.Nat.Find
import RepairLoop.Proofs.Steps
import RepairLoop.Proofs.World.Obeys
import RepairLoop.Service.Basic
/-!
# Service — which replies are fit to be used

A reply is meant to be read as an answer with a text, or to be refused as unusable, so that
the request may be made again (`Fitting`). A value of another sort than expected can thwart
that: a mishap stops the reading, or what stands in the place of the text is none. Which
values do is said of the JSON of the reply alone (`isOrderlyReply`); the reading is then followed
step by step, each step with its own test of the values that it takes (`Tested`).
-/

namespace RepairLoop

/-! ## Steps with a test -/

/-- A fault after which a request is not made again. -/
def Balks {α : Type} (r : Except Fault α) : Prop :=
  ∃ f, r = .error f ∧ Service.mayRepeat f = false

/-- A step comes to a result if its test is passed, and balks if it is not. -/
def Tested {α : Type} (r : Except Fault α) (test : Bool) : Prop :=
  if test then ∃ a, r = .ok a else Balks r

namespace Tested

variable {α β : Type} {r : Except Fault α} {test test' : Bool}

theorem pass (h : test = true) (hr : ∃ a, r = .ok a) : Tested r test := by
  rwa [Tested, if_pos h]

theorem fail (h : test = false) (hr : Balks r) : Tested r test := by
  rwa [Tested, if_neg (by simp [h])]

/-- **Steps in a row** come to a result if all tests are passed. -/
theorem bind {f : α → Except Fault β} (h : Tested r test) (hf : ∀ a, Tested (f a) test') :
    Tested (r >>= f) (test && test') := by
  cases test with
  | false =>
    obtain ⟨g, rfl, hg⟩ := h
    exact .fail rfl ⟨g, rfl, hg⟩
  | true =>
    obtain ⟨a, rfl⟩ := h
    exact hf a

theorem ok_bind {f : α → β} (h : Tested r test) : Tested (r >>= fun a => .ok (f a)) test := by
  have hf : ∀ a, Tested (.ok (f a)) true := fun a => .pass rfl ⟨f a, rfl⟩
  simpa using h.bind hf

end Tested

namespace ModelAnswer

/-! ## Numbers of tokens -/

/-- A value that stands for a whole number. -/
def isCount : Json → Bool
  | .int _ | .bool _ => true
  | .float x => Number.isFinite x
  | .text s => (Number.readWhole s).isOk
  | _ => false

/-- A number that counts as zero where it is empty. -/
def isCountOrEmpty (j : Json) : Bool := !j.truthy || isCount j

/-- A number that may be left out. -/
def isCountOrNull : Json → Bool
  | .null => true
  | j => isCount j

theorem whole_tested (j : Json) : Tested (whole j) (isCount j) := by
  cases j with
  | int n => exact .pass rfl ⟨n, rfl⟩
  | bool b => exact .pass rfl ⟨b.toInt, rfl⟩
  | float x =>
    rw [whole, isCount, Number.isFinite, Number.truncate?]
    cases Number.decode x with
    | finite negative m e => exact .pass rfl ⟨_, rfl⟩
    | infinite negative =>
      refine .fail rfl ?_
      cases x.isNaN <;> exact ⟨_, rfl, rfl⟩
    | notANumber =>
      refine .fail rfl ?_
      cases x.isNaN <;> exact ⟨_, rfl, rfl⟩
  | text s =>
    rw [whole, isCount]
    cases Number.readWhole s with
    | ok n => exact .pass rfl ⟨n, rfl⟩
    | error f => exact .fail rfl ⟨_, rfl, rfl⟩
  | null => exact .fail rfl ⟨_, rfl, rfl⟩
  | list items => exact .fail rfl ⟨_, rfl, rfl⟩
  | object ms => exact .fail rfl ⟨_, rfl, rfl⟩

theorem whole_orElse_tested (j : Json) : Tested (whole (orElse j (.int 0))) (isCountOrEmpty j) := by
  rw [orElse, isCountOrEmpty]
  cases j.truthy with
  | true => exact whole_tested j
  | false => exact .pass rfl ⟨0, rfl⟩

theorem usageOf_tested (prompt completion total : Json) :
    Tested (usageOf prompt completion total)
      (isCountOrEmpty prompt && (isCountOrEmpty completion && isCountOrNull total)) := by
  refine (whole_orElse_tested prompt).bind fun p => (whole_orElse_tested completion).bind fun c => ?_
  cases total with
  | null => exact .pass rfl ⟨⟨p, c, p + c⟩, rfl⟩
  | _ => exact (whole_tested _).ok_bind

/-- The numbers of tokens stand in an object, which may be empty or missing. -/
def hasUsage (data : Json) (prompt completion : String) (total : Option String) : Bool :=
  match orElse (data.getD "usage") (.object []) with
  | .object ms =>
    isCountOrEmpty (Json.getD (.object ms) prompt) &&
      (isCountOrEmpty (Json.getD (.object ms) completion) &&
        isCountOrNull (total.elim .null (Json.getD (.object ms))))
  | _ => false

theorem usageUnder_tested (data : Json) (prompt completion : String) (total : Option String) :
    Tested (usageUnder data prompt completion total) (hasUsage data prompt completion total) := by
  rw [usageUnder, hasUsage]
  cases orElse (data.getD "usage") (.object []) with
  | object ms => cases total <;> exact usageOf_tested _ _ _
  | _ => exact .fail rfl ⟨_, rfl, rfl⟩

/-! ## Texts -/

/-- A block is to be read. -/
def isTextBlock (block : Json) : Bool :=
  match block.get? "type" with
  | some (.text t) => t == "text"
  | _ => false

/-- A text, or nothing at all in its place. -/
def isTextOrNone : Option Json → Bool
  | none | some (.text _) => true
  | some _ => false

theorem joinedTexts_tested (number : Nat) (blocks : List Json) :
    Tested (joinedTexts number blocks)
      (blocks.all fun b => !isTextBlock b || isTextOrNone (b.get? "text")) := by
  induction blocks generalizing number with
  | nil => exact .pass rfl ⟨"", rfl⟩
  | cons block rest ih =>
    rw [joinedTexts, List.all_cons]
    show Tested (if isTextBlock block = true then _ else _) _
    cases isTextBlock block with
    | false => exact ih number
    | true =>
      rw [if_pos rfl, Bool.not_true, Bool.false_or]
      cases block.get? "text" with
      | none => exact (ih (number + 1)).ok_bind
      | some j =>
        cases j with
        | text s => exact (ih (number + 1)).ok_bind
        | _ => exact .fail rfl ⟨_, rfl, rfl⟩

/-! ## Replies -/

/-- An answer with a text, or a refusal after which the request may be made again. -/
def Fitting (r : Except Fault ModelAnswer) : Prop :=
  (∃ a s, r = .ok a ∧ a.content = .text s) ∨ ∃ message, r = .error (unusable message)

/-- Neither: an answer with something else than a text, or a fault that is final. -/
def Unfit (r : Except Fault ModelAnswer) : Prop :=
  (∃ a, r = .ok a ∧ ∀ s, a.content ≠ .text s) ∨ Balks r

theorem Unfit.not_fitting {r : Except Fault ModelAnswer} (h : Unfit r) : ¬ Fitting r := by
  rintro (⟨a, s, rfl, hs⟩ | ⟨message, rfl⟩)
  · obtain ⟨b, hb, hno⟩ | ⟨f, hf, -⟩ := h
    · obtain rfl := Except.ok.inj hb
      exact hno s hs
    · cases hf
  · obtain ⟨b, hb, -⟩ | ⟨f, hf, hmay⟩ := h
    · cases hb
    · obtain rfl := Except.error.inj hf
      cases hmay

/-- A test says whether a result fits. -/
def Judged (r : Except Fault ModelAnswer) (fit : Bool) : Prop :=
  if fit then Fitting r else Unfit r

theorem Judged.fitting_iff {r : Except Fault ModelAnswer} {fit : Bool} (h : Judged r fit) :
    Fitting r ↔ fit = true := by
  cases fit with
  | false => exact iff_of_false (Unfit.not_fitting h) (by simp)
  | true => exact iff_of_true h rfl

/-- A refusal fits. -/
theorem judged_unusable (message : String) : Judged (.error (unusable message)) true :=
  .inr ⟨message, rfl⟩

/-- A text, or something empty, for which an empty text is taken. -/
def isTextOrEmpty : Json → Bool
  | .text _ => true
  | j => !j.truthy

/-- In the object of a reply all values that are read are of the expected sorts. A reply
without a text is another matter. -/
def isOrderly (form : BackendName) (data : Json) : Bool :=
  match form with
  | .openai =>
    match choiceOf? data with
    | some content =>
      isTextOrEmpty content &&
        hasUsage data "prompt_tokens" "completion_tokens" (some "total_tokens")
    | none => true
  | .anthropic =>
    match data.getD "content" with
    | .list blocks =>
      (blocks.all fun b => !isTextBlock b || isTextOrNone (b.get? "text")) &&
        hasUsage data "input_tokens" "output_tokens" none
    | _ => true
  | .local_ =>
    match data.getD "response" with
    | .text _ =>
      isCountOrEmpty (data.getD "prompt_eval_count") &&
        isCountOrEmpty (data.getD "eval_count")
    | _ => true

/-- No value of a reply thwarts its reading. -/
def isOrderlyReply (form : BackendName) (raw : String) : Bool :=
  match Json.parse raw with
  | .ok (.object ms) => isOrderly form (.object ms)
  | .ok _ | .error .malformed => true
  | .error (.tooManyDigits _) => false

theorem isTextOrEmpty_iff (content : Json) :
    isTextOrEmpty content = true ↔ ∃ s, orElse content (.text "") = .text s := by
  rw [orElse]
  cases content with
  | text s => split <;> simp [isTextOrEmpty]
  | _ => split <;> simp_all [isTextOrEmpty]

/-- What is tested fits if it has a text as well. -/
theorem judged_of_tested {r : Except Fault ModelAnswer} {test : Bool} (text : Bool)
    (h : Tested r test) (htext : ∀ a, r = .ok a → (text = true ↔ ∃ s, a.content = .text s)) :
    Judged r (text && test) := by
  cases test with
  | false =>
    rw [Bool.and_false]
    exact .inr h
  | true =>
    obtain ⟨a, rfl⟩ := h
    rw [Bool.and_true]
    cases text with
    | false =>
      refine .inl ⟨a, rfl, fun s hs => ?_⟩
      cases (htext a rfl).2 ⟨s, hs⟩
    | true =>
      obtain ⟨s, hs⟩ := (htext a rfl).1 rfl
      exact .inl ⟨a, s, rfl, hs⟩

/-- What is made of the object of a reply. -/
def ofObject (form : BackendName) (data : Json) : Except Fault ModelAnswer :=
  match form with
  | .openai =>
    match choiceOf? data with
    | none => .error (unusable "OpenAI response did not contain a message.")
    | some content => do
      let usage ← usageUnder data "prompt_tokens" "completion_tokens" (some "total_tokens")
      .ok ⟨orElse content (.text ""), usage, modelOf data⟩
  | .anthropic =>
    match data.getD "content" with
    | .list blocks => do
      let text ← joinedTexts 0 blocks
      let usage ← usageUnder data "input_tokens" "output_tokens" none
      .ok ⟨.text text, usage, modelOf data⟩
    | _ => .error (unusable "Anthropic response did not contain content blocks.")
  | .local_ =>
    match data.getD "response" with
    | .text content => do
      let usage ← usageOf (data.getD "prompt_eval_count") (data.getD "eval_count") .null
      .ok ⟨.text content, usage, modelOf data⟩
    | _ => .error (unusable "Local model response did not contain text.")

theorem read_eq (form : BackendName) (raw : String) :
    read form raw = objectOf form raw >>= ofObject form := by
  cases form <;> rfl

/-- **What is made of an object fits exactly if the object is orderly.** -/
theorem ofObject_judged (form : BackendName) (data : Json) :
    Judged (ofObject form data) (isOrderly form data) := by
  cases form with
  | openai =>
    rw [ofObject, isOrderly]
    cases choiceOf? data with
    | none => exact judged_unusable _
    | some content =>
      refine judged_of_tested _ (usageUnder_tested _ _ _ _).ok_bind fun a ha => ?_
      obtain ⟨usage, -, ha⟩ := ok_of_bind ha
      rw [isTextOrEmpty_iff, ← Except.ok.inj ha]
  | anthropic =>
    rw [ofObject, isOrderly]
    cases data.getD "content" with
    | list blocks =>
      refine judged_of_tested true ((joinedTexts_tested 0 blocks).bind fun text =>
        (usageUnder_tested data "input_tokens" "output_tokens" none).ok_bind) fun a ha => ?_
      obtain ⟨text, -, ha⟩ := ok_of_bind ha
      obtain ⟨usage, -, ha⟩ := ok_of_bind ha
      exact iff_of_true rfl ⟨text, by rw [← Except.ok.inj ha]⟩
    | _ => exact judged_unusable _
  | local_ =>
    rw [ofObject, isOrderly]
    cases data.getD "response" with
    | text content =>
      have htested := usageOf_tested (data.getD "prompt_eval_count") (data.getD "eval_count") .null
      rw [isCountOrNull, Bool.and_true] at htested
      refine judged_of_tested true htested.ok_bind fun a ha => ?_
      obtain ⟨usage, -, ha⟩ := ok_of_bind ha
      exact iff_of_true rfl ⟨content, by rw [← Except.ok.inj ha]⟩
    | _ => exact judged_unusable _

/-- **A reply is read as an answer with a text, or refused as unusable, exactly if no value
of it thwarts its reading.** -/
theorem read_judged (form : BackendName) (raw : String) :
    Judged (read form raw) (isOrderlyReply form raw) := by
  rw [read_eq, objectOf.eq_def, isOrderlyReply.eq_def]
  cases Json.parse raw with
  | ok data =>
    cases data with
    | object ms => exact ofObject_judged form (.object ms)
    | _ => exact judged_unusable _
  | error e =>
    cases e with
    | malformed => exact judged_unusable _
    | tooManyDigits n => exact .inr ⟨_, rfl, rfl⟩

end ModelAnswer

end RepairLoop

/-!
## Service — what asking a service comes to

A service is asked up to a number of times. An attempt whose call fails, or whose reply is
refused as unusable, is repeated; any other one ends the asking with what it came to
(`attemptFrom_stopped`), and if all are repeated the asking is refused in the end
(`attemptFrom_exhausted`). So what the replies in a row come to decides everything, and the
asking yields the first answer with a text or is refused after the last attempt exactly
if no reply that it gets to is disorderly (`ask_kept_iff`).
-/

namespace RepairLoop.Service

open ModelAnswer (Fitting isOrderlyReply read_judged)

variable {s : Service} {w : World} {r : ModelRequest} {payload : Json} {left number k : Nat}

/-- What a reply comes to. -/
def outcome (form : BackendName) : ModelReply → Except Fault ModelAnswer
  | .answer raw => ModelAnswer.read form raw
  | .failure message => .error (.mishap .system message)

/-- The reply to a payload that was sent some times before. -/
def replyTo (w : World) (payload : Json) (k : Nat) : ModelReply :=
  w.outside.model (w.modelCalls ++ List.replicate (k + 1) payload)

/-- The attempt with a number, counted from zero. -/
def attemptAt (s : Service) (w : World) (payload : Json) (k : Nat) : Except Fault ModelAnswer :=
  outcome s.form (replyTo w payload k)

/-- An attempt is repeated. -/
def Repeats {α : Type} (r : Except Fault α) : Prop := ∃ f, r = .error f ∧ mayRepeat f = true

/-- An answer under the name of a model: its own, or that of the request or the service. -/
def named (s : Service) (r : ModelRequest) (a : ModelAnswer) : ModelAnswer :=
  { a with
    model := if a.model.truthy then a.model else .text (ModelRequest.nonEmpty r.model s.model) }

/-! ### Single attempts -/

theorem attempt_run (hdirect : s.isDirect = true) :
    (s.attempt payload).run w =
      (s.attemptAt w payload 0, { w with modelCalls := w.modelCalls ++ [payload] }) := by
  have hmodel : (Act.model payload).run w =
      (.ok (replyTo w payload 0), { w with modelCalls := w.modelCalls ++ [payload] }) := rfl
  rw [attempt, run_bind_eq, send, if_pos hdirect, run_bind_of_ok hmodel, attemptAt]
  cases replyTo w payload 0 with
  | answer raw => exact Act.ofExcept_run _ _
  | failure message => rfl

theorem looked_at_run (hdirect : s.isDirect = true) :
    (Act.attempt (s.attempt payload)).run w =
      (.ok (s.attemptAt w payload 0), { w with modelCalls := w.modelCalls ++ [payload] }) := by
  rw [Act.attempt_run, attempt_run hdirect]

/-- After an attempt that is repeated the asking goes on in a world with one more call. -/
theorem attemptFrom_repeat (r : ModelRequest) (left number : Nat) (hdirect : s.isDirect = true)
    (hrepeat : Repeats (s.attemptAt w payload 0)) :
    ∃ v : World, v.outside = w.outside ∧ v.modelCalls = w.modelCalls ++ [payload] ∧
      (s.attemptFrom r payload (left + 1) number).run w =
        (s.attemptFrom r payload left (number + 1)).run v := by
  obtain ⟨f, hf, hmay⟩ := hrepeat
  rw [attemptFrom, run_bind_of_ok (looked_at_run hdirect), hf]
  simp only [hmay, if_true]
  -- behind the last attempt there is no pause
  cases left with
  | zero => exact ⟨{ w with modelCalls := w.modelCalls ++ [payload] }, rfl, rfl, rfl⟩
  | succ left =>
    exact ⟨{ w with
      modelCalls := w.modelCalls ++ [payload]
      pauses := w.pauses ++ [s.pause]
      seconds := w.seconds + s.pause.value }, rfl, rfl, rfl⟩

/-- An attempt that is not repeated ends the asking. -/
theorem attemptFrom_stop (hdirect : s.isDirect = true)
    (hstop : ¬ Repeats (s.attemptAt w payload 0)) :
    ((s.attemptFrom r payload (left + 1) number).run w).1 =
        (s.attemptAt w payload 0).map (s.named r) ∧
      ((s.attemptFrom r payload (left + 1) number).run w).2.modelCalls =
        w.modelCalls ++ [payload] := by
  rw [attemptFrom, run_bind_of_ok (looked_at_run hdirect)]
  cases hattempt : s.attemptAt w payload 0 with
  | ok a => exact ⟨rfl, rfl⟩
  | error f =>
    have hmay : mayRepeat f = false := by
      rw [← Bool.not_eq_true]
      exact fun hmay => hstop ⟨f, hattempt, hmay⟩
    simp only [hmay, Bool.false_eq_true, if_false]
    exact ⟨rfl, rfl⟩

/-! ### Attempts in a row -/

theorem attemptAt_next {v : World} (houtside : v.outside = w.outside)
    (hcalls : v.modelCalls = w.modelCalls ++ [payload]) (k : Nat) :
    s.attemptAt v payload k = s.attemptAt w payload (k + 1) := by
  rw [attemptAt, attemptAt, replyTo, replyTo, houtside, hcalls, List.append_assoc,
    List.singleton_append, ← List.replicate_succ]

/-- **The first attempt that is not repeated decides.** -/
theorem attemptFrom_stopped (left number : Nat) (hdirect : s.isDirect = true) (hk : k < left)
    (hrepeat : ∀ j < k, Repeats (s.attemptAt w payload j))
    (hstop : ¬ Repeats (s.attemptAt w payload k)) :
    ((s.attemptFrom r payload left number).run w).1 = (s.attemptAt w payload k).map (s.named r) ∧
      ((s.attemptFrom r payload left number).run w).2.modelCalls =
        w.modelCalls ++ List.replicate (k + 1) payload := by
  induction k generalizing w left number with
  | zero =>
    obtain ⟨left, rfl⟩ := Nat.exists_eq_add_of_lt hk
    rw [Nat.zero_add]
    exact attemptFrom_stop hdirect hstop
  | succ k ih =>
    obtain ⟨left, rfl⟩ := Nat.exists_eq_succ_of_ne_zero (Nat.ne_of_gt (Nat.zero_lt_of_lt hk))
    obtain ⟨v, houtside, hcalls, hrun⟩ :=
      attemptFrom_repeat r left number hdirect (hrepeat 0 (Nat.succ_pos k))
    have hnext := attemptAt_next (s := s) houtside hcalls
    obtain ⟨hresult, hlog⟩ := ih (w := v) left (number + 1)
      (Nat.lt_of_succ_lt_succ hk) (fun j hj => hnext j ▸ hrepeat (j + 1) (Nat.succ_lt_succ hj))
      (hnext k ▸ hstop)
    rw [hrun, hresult, hlog, hnext, hcalls, List.append_assoc, List.singleton_append,
      ← List.replicate_succ]
    exact ⟨rfl, rfl⟩

/-- **Where all attempts are repeated, the request is refused after the last one.** -/
theorem attemptFrom_exhausted (left number : Nat) (hdirect : s.isDirect = true)
    (hrepeat : ∀ j < left, Repeats (s.attemptAt w payload j)) :
    ((s.attemptFrom r payload left number).run w).1 =
        .error (.refuse .backend s!"{s.form.name} backend failed after {s.attempts} attempt(s)"
          [("model", .text (ModelRequest.nonEmpty r.model s.model))]) ∧
      ((s.attemptFrom r payload left number).run w).2.modelCalls =
        w.modelCalls ++ List.replicate left payload := by
  induction left generalizing w number with
  | zero => exact ⟨rfl, (List.append_nil _).symm⟩
  | succ left ih =>
    obtain ⟨v, houtside, hcalls, hrun⟩ :=
      attemptFrom_repeat r left number hdirect (hrepeat 0 (Nat.succ_pos left))
    have hnext := attemptAt_next (s := s) houtside hcalls
    obtain ⟨hresult, hlog⟩ := ih (w := v) (number + 1)
      fun j hj => hnext j ▸ hrepeat (j + 1) (Nat.succ_lt_succ hj)
    rw [hrun, hresult, hlog, hcalls, List.append_assoc, List.singleton_append,
      ← List.replicate_succ]
    exact ⟨rfl, rfl⟩

/-! ### Asking -/

/-- What is sent for a request. -/
def sent (s : Service) (r : ModelRequest) : Json := r.payload s.form s.model

/-- **The asking yields the first answer with a text**, all attempts before it being
repeated, or it is refused after the last attempt, all being repeated. -/
def Kept (s : Service) (r : ModelRequest) (w : World) : Prop :=
  (∃ k < s.attempts, (∀ j < k, Repeats (s.attemptAt w (s.sent r) j)) ∧
    ∃ a text, s.attemptAt w (s.sent r) k = .ok a ∧ a.content = .text text ∧
      ((s.ask r).run w).1 = .ok (s.named r a) ∧
      ((s.ask r).run w).2.modelCalls = w.modelCalls ++ List.replicate (k + 1) (s.sent r)) ∨
  ((∀ j < s.attempts, Repeats (s.attemptAt w (s.sent r) j)) ∧
    ∃ message details, ((s.ask r).run w).1 = .error (.refuse .backend message details) ∧
      ((s.ask r).run w).2.modelCalls = w.modelCalls ++ List.replicate s.attempts (s.sent r))

theorem attemptAt_of_answer {raw : String} (h : replyTo w payload k = .answer raw) :
    s.attemptAt w payload k = ModelAnswer.read s.form raw := by
  rw [attemptAt, h, outcome]

/-- A call that fails is repeated, and so is one whose reply is unusable; no other fits. -/
theorem repeats_or_answers (h : ∀ raw, replyTo w payload k = .answer raw →
      isOrderlyReply s.form raw = true) :
    Repeats (s.attemptAt w payload k) ∨
      ∃ a text, s.attemptAt w payload k = .ok a ∧ a.content = .text text := by
  cases hreply : replyTo w payload k with
  | failure message =>
    rw [attemptAt, hreply]
    exact .inl ⟨_, rfl, rfl⟩
  | answer raw =>
    rw [attemptAt_of_answer hreply]
    rcases (read_judged s.form raw).fitting_iff.2 (h raw hreply) with
      ⟨a, text, ha, htext⟩ | ⟨message, hrefused⟩
    · exact .inr ⟨a, text, ha, htext⟩
    · exact .inl ⟨_, hrefused, rfl⟩

/-- A disorderly reply is not repeated, nor is it an answer with a text. -/
theorem not_repeats_of_disorderly {raw : String} (hreply : replyTo w payload k = .answer raw)
    (h : ¬ isOrderlyReply s.form raw = true) :
    ¬ Repeats (s.attemptAt w payload k) ∧
      ∀ a text, s.attemptAt w payload k = .ok a → a.content ≠ .text text := by
  have hunfit := read_judged s.form raw
  rw [Bool.not_eq_true] at h
  rw [h, ← attemptAt_of_answer hreply] at hunfit
  constructor
  · rintro ⟨f, hf, hmay⟩
    obtain ⟨a, ha, -⟩ | ⟨g, hg, hno⟩ := hunfit
    · cases ha.symm.trans hf
    · obtain rfl := Except.error.inj (hg.symm.trans hf)
      cases hmay.symm.trans hno
  · intro a text ha htext
    exact ModelAnswer.Unfit.not_fitting hunfit (.inl ⟨a, text, ha, htext⟩)

/-- All attempts are repeated, or there is a first one that is not. -/
theorem all_repeat_or_stop (s : Service) (w : World) (payload : Json) (n : Nat) :
    (∀ j < n, Repeats (s.attemptAt w payload j)) ∨
      ∃ k < n, (∀ j < k, Repeats (s.attemptAt w payload j)) ∧
        ¬ Repeats (s.attemptAt w payload k) := by
  classical
  by_cases hall : ∀ j < n, Repeats (s.attemptAt w payload j)
  · exact .inl hall
  · have hfirst : ∃ k, k < n ∧ ¬ Repeats (s.attemptAt w payload k) := by simpa using hall
    obtain ⟨hk, hstop⟩ := Nat.find_spec hfirst
    refine .inr ⟨Nat.find hfirst, hk, fun j hj => ?_, hstop⟩
    by_contra hnot
    exact Nat.find_min hfirst hj ⟨Nat.lt_trans hj hk, hnot⟩

theorem Kept.orderly (h : Kept s r w) (hk : k < s.attempts)
    (hbefore : ∀ j < k, Repeats (s.attemptAt w (s.sent r) j)) {raw : String}
    (hreply : replyTo w (s.sent r) k = .answer raw) : isOrderlyReply s.form raw = true := by
  by_contra hdisorder
  obtain ⟨hstop, hno⟩ := not_repeats_of_disorderly hreply hdisorder
  rcases h with ⟨i, -, hfirst, a, text, ha, htext, -⟩ | ⟨hall, -⟩
  · -- the answer can be neither before nor behind the disorderly reply
    rcases Nat.lt_trichotomy i k with hlt | rfl | hlt
    · obtain ⟨f, hf, -⟩ := hbefore i hlt
      cases ha.symm.trans hf
    · exact hno a text ha htext
    · exact hstop (hfirst k hlt)
  · exact hstop (hall k hk)

theorem kept_of_orderly (hdirect : s.isDirect = true)
    (h : ∀ k < s.attempts, (∀ j < k, Repeats (s.attemptAt w (s.sent r) j)) →
      ∀ raw, replyTo w (s.sent r) k = .answer raw → isOrderlyReply s.form raw = true) :
    Kept s r w := by
  rcases s.all_repeat_or_stop w (s.sent r) s.attempts with hall | ⟨k, hk, hbefore, hstop⟩
  · obtain ⟨hresult, hcalls⟩ := attemptFrom_exhausted (r := r) s.attempts 1 hdirect hall
    exact .inr ⟨hall, _, _, hresult, hcalls⟩
  · obtain ⟨a, text, ha, htext⟩ := (repeats_or_answers (h k hk hbefore)).resolve_left hstop
    obtain ⟨hresult, hcalls⟩ :=
      attemptFrom_stopped (r := r) s.attempts 1 hdirect hk hbefore hstop
    rw [ha] at hresult
    exact .inl ⟨k, hk, hbefore, a, text, ha, htext, hresult, hcalls⟩

/-- **A reply fits exactly if it is orderly, and a request to a service that is asked
directly ends as it should exactly if no reply that it gets to is disorderly**: it gets to
a reply if all attempts before it are repeated. -/
theorem ask_kept_iff (s : Service) (r : ModelRequest) (w : World) (hdirect : s.isDirect = true) :
    (∀ form raw, Fitting (ModelAnswer.read form raw) ↔ isOrderlyReply form raw = true) ∧
      (Kept s r w ↔ ∀ k < s.attempts, (∀ j < k, Repeats (s.attemptAt w (s.sent r) j)) →
        ∀ raw, replyTo w (s.sent r) k = .answer raw → isOrderlyReply s.form raw = true) :=
  ⟨fun form raw => (read_judged form raw).fitting_iff,
    fun h _ hk hbefore _ hreply => h.orderly hk hbefore hreply, kept_of_orderly hdirect⟩

/-! ### Examples of replies -/

/-- A world in which a model gives some replies, one after another. -/
def replying (replies : List ModelReply) : World :=
  { (default : World) with
    modelCalls := []
    outside := { (default : Outside) with
      model := fun calls => replies.getD (calls.length - 1) (.failure "") } }

theorem replyTo_replying (replies : List ModelReply) (payload : Json) (k : Nat) :
    replyTo (replying replies) payload k = replies.getD k (.failure "") := by
  simp [replyTo, replying]

/-- A service that is asked directly, three times at most. -/
def threefold (form : BackendName) : Service := ⟨form, "m", true, "", "", .whole 1, 3, .whole 0⟩

/-- Asks for as good as nothing. -/
def request : ModelRequest := ⟨"p", [], 16, .whole 0, none, none⟩

/-- After a call that failed and a reply that is no JSON the third attempt is answered. -/
theorem ask_kept_third : (threefold .local_).isDirect = true ∧
    Kept (threefold .local_) request (replying [.failure "refused", .answer "not json",
      .answer "\x7b\"response\": \"ok\", \"eval_count\": 4\x7d"]) := by
  refine ⟨rfl, (ask_kept_iff _ _ _ rfl).2.2 fun k hk _ raw hreply => ?_⟩
  rw [replyTo_replying] at hreply
  match k, hk with
  | 0, _ => cases hreply
  | 1, _ =>
    cases hreply
    decide +kernel
  | 2, _ =>
    cases hreply
    decide +kernel

/-- Tokens in a list, a text in a list, a block without a text, and a number of tokens in
words; and the first of them in front of an answer that is never asked for. -/
theorem ask_thwarted :
    ¬ Fitting (ModelAnswer.read .openai
        "\x7b\"choices\": [\x7b\"message\": \x7b\"content\": \"x\"\x7d\x7d], \"usage\": [1]\x7d") ∧
      ¬ Fitting (ModelAnswer.read .openai
        "\x7b\"choices\": [\x7b\"message\": \x7b\"content\": [\"x\"]\x7d\x7d]\x7d") ∧
      ¬ Fitting (ModelAnswer.read .anthropic
        "\x7b\"content\": [\x7b\"type\": \"text\", \"text\": null\x7d]\x7d") ∧
      ¬ Fitting (ModelAnswer.read .local_
        "\x7b\"response\": \"x\", \"eval_count\": \"many\"\x7d") ∧
      ¬ Kept (threefold .local_) request (replying
        [.answer "\x7b\"response\": \"x\", \"eval_count\": \"many\"\x7d",
          .answer "\x7b\"response\": \"ok\"\x7d"]) := by
  simp only [(read_judged _ _).fitting_iff]
  refine ⟨by decide +kernel, by decide +kernel, by decide +kernel, by decide +kernel, fun h => ?_⟩
  have horderly := h.orderly (k := 0) (by decide) (by simp) (replyTo_replying _ _ 0)
  revert horderly
  decide +kernel

end RepairLoop.Service
