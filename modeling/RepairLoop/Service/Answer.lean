import RepairLoop.Fault
import RepairLoop.Json.Parser
import RepairLoop.Number.Decimal
import RepairLoop.Number.Nearest
import RepairLoop.Number.Whole
import RepairLoop.Settings.Sections
/-!
# Requests and answers

What a model is asked, and how its answer is read.
-/

/-!
## Requests to models

What a model is asked: a prompt with some named facts behind it, limits for the answer,
and, where it is not the usual one, the model and its general instruction. The form of a
request depends on the service.
-/

namespace RepairLoop

/-- What a model is asked. -/
structure ModelRequest where
  prompt : String
  context : List (String × String)
  maxTokens : Int
  temperature : Amount
  model : Option String
  system : Option String
  deriving Inhabited

namespace ModelRequest

/-- The instruction that a model gets in general. -/
def usualSystem : String :=
  "You are an expert software engineer who fixes code defects with minimal, safe unified diffs."

/-- A text, or another one where there is none or it is empty. -/
def nonEmpty (text : Option String) (otherwise : String) : String :=
  match text with
  | some s => if s == "" then otherwise else s
  | none => otherwise

/-- The prompt with the facts behind it, in order of their names. -/
def fullPrompt (r : ModelRequest) : String :=
  if r.context.isEmpty then r.prompt
  else
    let facts := r.context.mergeSort fun a b => a.1 ≤ b.1
    "\n".intercalate ([r.prompt, "", "Context:"] ++ facts.map fun (k, v) => s!"- {k}: {v}")

/-- The instruction that the model gets in general. -/
def systemText (r : ModelRequest) : String := nonEmpty r.system usualSystem

private def message (role content : String) : Json :=
  .object [("role", .text role), ("content", .text content)]

/-- The request in the form of a service. -/
def payload (r : ModelRequest) (form : BackendName) (model : String) : Json :=
  let model : Json := .text (nonEmpty r.model model)
  let limits : Members := [("max_tokens", .int r.maxTokens), ("temperature", r.temperature.json)]
  match form with
  | .openai =>
    .object ([("model", model),
      ("messages", .list [message "system" r.systemText, message "user" r.fullPrompt])] ++ limits)
  | .anthropic =>
    .object ([("model", model), ("system", .text r.systemText),
      ("messages", .list [message "user" r.fullPrompt])] ++ limits)
  | .local_ =>
    .object [("model", model), ("system", .text r.systemText), ("prompt", .text r.fullPrompt),
      ("stream", .bool false),
      ("options", .object [("temperature", r.temperature.json),
        ("num_predict", .int r.maxTokens)])]

end ModelRequest

end RepairLoop

/-!
## Answers of models

What a service answers is JSON: somewhere in it stands the text of the model, and
elsewhere the numbers of tokens that it took. An answer without a text is refused, so
that the request may be made again; values of another sort than expected stop it.
-/

namespace RepairLoop

/-- The tokens that an answer took. -/
structure TokenUsage where
  prompt : Int
  completion : Int
  total : Int
  deriving DecidableEq, Inhabited

/-- What a model answered. Services may put values of any sort in the place of the text
and of the name of the model. -/
structure ModelAnswer where
  content : Json
  usage : TokenUsage
  model : Json
  deriving Inhabited

namespace ModelAnswer

/-- An answer that cannot be used. -/
def unusable (message : String) : Fault := .refuse .backend message []

/-- The name of the sort of a value. -/
def sortName : Json → String
  | .null => "NoneType"
  | .bool _ => "bool"
  | .int _ => "int"
  | .float _ => "float"
  | .text _ => "str"
  | .list _ => "list"
  | .object _ => "dict"

/-- A value, or another one if it is empty. -/
def orElse (a b : Json) : Json := if a.truthy then a else b

/-- The member of a value that should be an object. -/
def memberOf (j : Json) (key : String) : Except Fault Json :=
  match j with
  | .object _ => .ok (j.getD key)
  | j => .error (.mishap .missingAttribute s!"'{sortName j}' object has no attribute 'get'")

/-- A number of tokens: a value as a whole number. -/
def whole (j : Json) : Except Fault Int :=
  match j with
  | .int n => .ok n
  | .bool b => .ok b.toInt
  | .float x =>
    match Number.truncate? x with
    | some n => .ok n
    | none =>
      .error (if x.isNaN then .badValue "cannot convert float NaN to integer"
        else .mishap .overflow "cannot convert float infinity to integer")
  | .text s => (Number.readWhole s).mapError fun f => .badValue f.message
  | j =>
    .error (.mishap .badType ("int() argument must be a string, a bytes-like object or a real "
      ++ s!"number, not '{sortName j}'"))

/-- The tokens that an answer took, from the numbers in it; a sum that is missing is
made. -/
def usageOf (prompt completion total : Json) : Except Fault TokenUsage := do
  let p ← whole (orElse prompt (.int 0))
  let c ← whole (orElse completion (.int 0))
  let t ← match total with
    | .null => .ok (p + c)
    | j => whole j
  .ok ⟨p, c, t⟩

/-- The numbers of tokens in an answer, under their names. -/
def usageUnder (data : Json) (prompt completion : String) (total : Option String) :
    Except Fault TokenUsage := do
  let usage := orElse (data.getD "usage") (.object [])
  let p ← memberOf usage prompt
  let c ← memberOf usage completion
  let t ← match total with
    | some key => memberOf usage key
    | none => .ok .null
  usageOf p c t

/-- The text in the first choice of an answer. -/
def choiceOf? (data : Json) : Option Json := do
  match ← data.get? "choices" with
  | .list (choice :: _) => (← choice.get? "message").get? "content"
  | _ => none

/-- The texts of the blocks of an answer that are texts; `number` counts them. -/
def joinedTexts (number : Nat) : List Json → Except Fault String
  | [] => .ok ""
  | block :: rest =>
    let isText := match block.get? "type" with
      | some (.text t) => t == "text"
      | _ => false
    if isText then
      match (block.get? "text").getD (.text "") with
      | .text s => do
        let more ← joinedTexts (number + 1) rest
        .ok (s ++ more)
      | j =>
        .error (.mishap .badType
          s!"sequence item {number}: expected str instance, {sortName j} found")
    else joinedTexts number rest

/-- The name of the model in an answer, or an empty text. -/
def modelOf (data : Json) : Json := orElse (data.getD "model") (.text "")

/-- The object that an answer is. -/
def objectOf (form : BackendName) (raw : String) : Except Fault Json :=
  match Json.parse raw with
  | .ok (.object ms) => .ok (.object ms)
  | .ok _ => .error (unusable s!"{form.name} returned an unexpected payload type.")
  | .error .malformed =>
    let start := String.ofList (raw.toList.take 200)
    .error (unusable s!"{form.name} returned invalid JSON: {start}")
  | .error (.tooManyDigits n) => .error (.badValue (Json.tooManyDigitsMessage n))

/-- Reads an answer in the form of a service. -/
def read (form : BackendName) (raw : String) : Except Fault ModelAnswer := do
  let data ← objectOf form raw
  match form with
  | .openai =>
    match choiceOf? data with
    | none => .error (unusable "OpenAI response did not contain a message.")
    | some content =>
      let usage ← usageUnder data "prompt_tokens" "completion_tokens" (some "total_tokens")
      .ok ⟨orElse content (.text ""), usage, modelOf data⟩
  | .anthropic =>
    match data.getD "content" with
    | .list blocks =>
      let text ← joinedTexts 0 blocks
      let usage ← usageUnder data "input_tokens" "output_tokens" none
      .ok ⟨.text text, usage, modelOf data⟩
    | _ => .error (unusable "Anthropic response did not contain content blocks.")
  | .local_ =>
    match data.getD "response" with
    | .text content =>
      let usage ← usageOf (data.getD "prompt_eval_count") (data.getD "eval_count") .null
      .ok ⟨.text content, usage, modelOf data⟩
    | _ => .error (unusable "Local model response did not contain text.")

/-- The text of an answer, which must be one. -/
def text (a : ModelAnswer) : Except Fault String :=
  match a.content with
  | .text s => .ok s
  | j =>
    .error (.mishap .badType s!"expected string or bytes-like object, got '{sortName j}'")

/-- The text of an answer that is only to be stripped. -/
def plainText (a : ModelAnswer) : Except Fault String :=
  match a.content with
  | .text s => .ok s
  | j => .error (.mishap .missingAttribute s!"'{sortName j}' object has no attribute 'strip'")

end ModelAnswer

end RepairLoop
