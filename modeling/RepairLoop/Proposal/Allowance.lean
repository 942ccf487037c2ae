import RepairLoop.Fault
import RepairLoop.Number.Decimal
import RepairLoop.Telemetry
/-!
# The allowance of requests

A model may be asked a number of times in each window of time. The windows follow each
other without gaps from the moment at which the allowance was made, and each starts
with the full number of tokens. A request that finds too few is refused at once and is
told how long the present window lasts.
-/

namespace RepairLoop

/-- How often a model may be asked: so many tokens in each window, and the tokens that
are left in the window that started last. -/
structure Allowance (α : Type) where
  capacity : Int
  window : α
  tokens : Int
  started : α
  deriving Inhabited

/-- Why there is no such allowance. -/
inductive AllowanceFault where
  | noCapacity
  | noWindow
  deriving DecidableEq, Inhabited

namespace AllowanceFault

/-- What is said of numbers that make no allowance. -/
def message : AllowanceFault → String
  | noCapacity => "capacity must be at least 1"
  | noWindow => "window must be positive"

/-- The fault that stops an operation. -/
def toFault (f : AllowanceFault) : Fault := .badValue f.message

end AllowanceFault

/-- A refused request: the allowance, and the time until the next window. -/
structure Exhausted (α : Type) where
  capacity : Int
  window : α
  retryAfter : α
  deriving Inhabited

namespace Exhausted

/-- What is said of a refused request. -/
def message (e : Exhausted Float) : String :=
  s!"Rate limit of {e.capacity} request(s) per {Number.general e.window 6}s exceeded"

/-- The fault that stops an operation. -/
def toFault (e : Exhausted Float) : Fault :=
  .refused .rateLimit .rateLimit e.message
    [("capacity", .int e.capacity), ("window", .float e.window)] e.retryAfter

/-- The event of a refused request. -/
def event (e : Exhausted Float) : Event :=
  .of "rate_limited" [("capacity", .int e.capacity),
    ("retry_after", .float (Number.roundTo e.retryAfter 3))]

end Exhausted

namespace Allowance

variable {α : Type} [Scale α] [Add α] [Sub α] [Mul α] [LE α] [LT α] [DecidableLE α] [DecidableLT α]

/-- An allowance that is full at a time. -/
def make (capacity : Int) (window now : α) : Except AllowanceFault (Allowance α) :=
  if capacity < 1 then .error .noCapacity
  else if window ≤ Scale.ofNat 0 then .error .noWindow
  else .ok ⟨capacity, window, capacity, now⟩

/-- The allowance at a time: where windows have passed, the last of them is open and
full. -/
def at_ (a : Allowance α) (now : α) : Allowance α :=
  let elapsed := now - a.started
  if a.window ≤ elapsed then
    { a with
      started := a.started + Scale.wholeQuotient elapsed a.window * a.window
      tokens := a.capacity }
  else a

/-- The larger of a number and zero. -/
def orZero (x : α) : α :=
  if Scale.ofNat 0 < x then x else Scale.ofNat 0

/-- Takes tokens at a time, or says how long the window still lasts. -/
def take (a : Allowance α) (count : Int) (now : α) : Allowance α × Except (Exhausted α) Unit :=
  let a := a.at_ now
  if a.tokens < count then
    (a, .error ⟨a.capacity, a.window, orZero (a.window - (now - a.started))⟩)
  else ({ a with tokens := a.tokens - count }, .ok ())

end Allowance

end RepairLoop
