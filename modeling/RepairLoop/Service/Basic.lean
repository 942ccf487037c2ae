import RepairLoop.Service.Answer
import RepairLoop.Text.Quoted
import RepairLoop.World.Basic
/-!
# Services

A service is asked for completions, directly or over the web. A request that fails on
the way, or whose answer is of no use, is made again after a pause as long as attempts
are left.
-/

namespace RepairLoop

/-- A service that is asked for completions. -/
structure Service where
  form : BackendName
  model : String
  isDirect : Bool
  key : String
  address : String
  timeout : Amount
  attempts : Nat
  pause : Amount
  deriving Inhabited

/-- What a service is made with; the rest is as usual. -/
structure ServiceOptions where
  model : Option String
  key : Option String
  address : Option String
  timeout : Option Amount
  attempts : Option Int
  pause : Option Amount
  deriving Inhabited

namespace BackendName

/-- The model that a service uses. -/
def usualModel : BackendName → String
  | openai => "gpt-4"
  | anthropic => "claude-3-5-sonnet-latest"
  | local_ => "codellama"

/-- The address of a service. -/
def usualAddress : BackendName → String
  | openai => "https://api.openai.com/v1"
  | anthropic => "https://api.anthropic.com/v1"
  | local_ => "http://localhost:11434"

/-- How long a service may take. -/
def usualTimeout : BackendName → Float
  | local_ => 120.0
  | _ => 60.0

/-- What stands behind the address of a service in a request. -/
def wayTo : BackendName → String
  | openai => "/chat/completions"
  | anthropic => "/messages"
  | local_ => "/api/generate"

/-- The title of a service that wants a key, and the variable with the key. -/
def keyed? : BackendName → Option (String × String)
  | openai => some ("OpenAI", "OPENAI_API_KEY")
  | anthropic => some ("Anthropic", "ANTHROPIC_API_KEY")
  | local_ => none

end BackendName

namespace Service

/-- The value of a variable of an environment. -/
def valueIn? (environment : List (String × String)) (name : String) : Option String :=
  environment.lookup name

/-- The key for a service: the given one, or else that of the environment. -/
def keyFor (form : BackendName) (given : Option String) (environment : List (String × String)) :
    String :=
  match form.keyed? with
  | none => ""
  | some (_, name) =>
    ModelRequest.nonEmpty given ((valueIn? environment name).getD "")

/-- A service. One that wants a key must have it, unless it is asked directly. -/
def make (form : BackendName) (o : ServiceOptions) (isDirect : Bool)
    (environment : List (String × String)) : Except Fault Service :=
  let key := keyFor form o.key environment
  match form.keyed? with
  | some (title, _) =>
    if !isDirect && key == "" then
      .error (.refuse .configuration
        s!"An API key is required when using the default {title} transport." [])
    else .ok (service key)
  | none => .ok (service key)
where
  /-- The service with its key. -/
  service (key : String) : Service :=
    let address := o.address.getD form.usualAddress
    ⟨form, o.model.getD form.usualModel, isDirect, key,
      String.ofList (Text.dropTrailing (· == '/') address.toList),
      o.timeout.getD (.real form.usualTimeout), (max 1 (o.attempts.getD 3)).toNat,
      o.pause.getD (.real 0.5)⟩

/-- The service of some settings. -/
def ofSettings (s : ModelSettings) (isDirect : Bool) (environment : List (String × String)) :
    Except Fault Service :=
  let key :=
    if s.backend == .local_ then none
    else (s.apiKeyEnv.filter (· != "")).bind (valueIn? environment)
  make s.backend ⟨some s.model, key, s.baseUrl.filter (· != ""), some (.real s.timeout), none, none⟩
    isDirect environment

/-! ## Asking -/

/-- A web address without blanks around it, if it names a scheme. -/
def webAddress (address : String) : Except Fault String :=
  let trimmed := Text.strip address
  let trimmed := match trimmed.dropPrefix? "URL:" with
    | some rest => Text.strip rest.toString
    | none => trimmed
  let scheme := trimmed.toList.takeWhile fun c => c != '/' && c != ':'
  if scheme.isEmpty || trimmed.toList[scheme.length]? != some ':' then
    .error (.badValue s!"unknown url type: {Text.quoted trimmed}")
  else .ok trimmed

/-- The headers of a request, in order of their names. -/
def headers (s : Service) : List (String × String) :=
  match s.form with
  | .openai => [("authorization", "Bearer " ++ s.key), ("content-type", "application/json")]
  | .anthropic =>
    [("anthropic-version", "2023-06-01"), ("content-type", "application/json"),
      ("x-api-key", s.key)]
  | .local_ => [("content-type", "application/json")]

/-- What a service replied over the web. -/
def received (address : String) : WebReply → Except Fault String
  | .answer status body =>
    if 400 ≤ status then
      .error (.refuse .backend s!"Unexpected HTTP status {status}" [("status", .int status)])
    else .ok body
  | .tooLate => .error (ModelAnswer.unusable s!"Request to {address} timed out.")
  | .refused status body =>
    .error (.refuse .backend s!"HTTP {status}: {body}" [("status", .int status)])
  | .unreachable reason => .error (ModelAnswer.unusable s!"Failed to reach {address}: {reason}")

/-- Sends a request and yields what came back. -/
def send (s : Service) (payload : Json) : Act String := do
  if s.isDirect then
    match ← Act.model payload with
    | .answer text => pure text
    | .failure message => throw (.mishap .system message)
  else
    let address ← Act.ofExcept (webAddress (s.address ++ s.form.wayTo))
    let reply ← Act.web ⟨address, s.headers, payload, s.timeout⟩
    Act.ofExcept (received address reply)

/-- One attempt at a request. -/
def attempt (s : Service) (payload : Json) : Act ModelAnswer := do
  Act.ofExcept (ModelAnswer.read s.form (← s.send payload))

/-- After such a fault a request may be made again. -/
def mayRepeat : Fault → Bool
  | .refused what _ _ _ _ => what == .backend
  | .mishap what _ => what.isOfSystem
  | _ => false

/-- The event of an answer. -/
def event (s : Service) (a : ModelAnswer) (number : Nat) : Event :=
  .of "backend_response" [("backend", .text s.form.name), ("model", a.model),
    ("attempt", .int number),
    ("usage", .object [("prompt_tokens", .int a.usage.prompt),
      ("completion_tokens", .int a.usage.completion), ("total_tokens", .int a.usage.total)])]

/-- Attempts at a request as long as some are left; `number` is that of the next one. -/
def attemptFrom (s : Service) (r : ModelRequest) (payload : Json) :
    Nat → Nat → Act ModelAnswer
  | 0, _ =>
    throw (.refuse .backend s!"{s.form.name} backend failed after {s.attempts} attempt(s)"
      [("model", .text (ModelRequest.nonEmpty r.model s.model))])
  | left + 1, number => do
    match ← Act.attempt (s.attempt payload) with
    | .ok a =>
      let a := { a with
        model := if a.model.truthy then a.model
          else .text (ModelRequest.nonEmpty r.model s.model) }
      Act.emit (s.event a number)
      pure a
    | .error f =>
      if mayRepeat f then
        if left != 0 then Act.pause s.pause
        attemptFrom s r payload left (number + 1)
      else throw f

/-- Asks the service. -/
def ask (s : Service) (r : ModelRequest) : Act ModelAnswer :=
  s.attemptFrom r (r.payload s.form s.model) s.attempts 1

end Service

end RepairLoop
