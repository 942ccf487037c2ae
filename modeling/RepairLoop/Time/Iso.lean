import RepairLoop.Number.Nearest
import RepairLoop.Text.Quoted
import RepairLoop.Time.Moment
/-!
# Moments in ISO 8601

A date, one separating character and a time of day. The date is a calendar date or a
week date, the parts of either stand with or without separators, and the time may end
in an offset from universal time. What follows the seconds counts as a fraction.
-/

namespace RepairLoop.Iso

/-- Why a text is no moment. -/
inductive Fault where
  | malformed (text : String)
  | noYear (year : Nat)
  | noMonth
  | noDay
  | noHour
  | noMinute
  | noSecond
  deriving DecidableEq, Inhabited

/-- What is said of a text that is no moment. -/
def Fault.message : Fault → String
  | malformed s => s!"Invalid isoformat string: {Text.quoted s}"
  | noYear y => s!"year {y} is out of range"
  | noMonth => "month must be in 1..12"
  | noDay => "day is out of range for month"
  | noHour => "hour must be in 0..23"
  | noMinute => "minute must be in 0..59"
  | noSecond => "second must be in 0..59"

/-- Some digits at the start of a text: their value, and what follows. -/
def digits? : Nat → List Char → Option (Nat × List Char)
  | 0, cs => some (0, cs)
  | n + 1, cs =>
    match digits? n cs with
    | some (v, c :: rest) => if c.isDigit then some (10 * v + (c.toNat - 48), rest) else none
    | _ => none

/-- Where the date ends. -/
def dateLength (cs : List Char) : Nat :=
  let at_ (i : Nat) : Char := cs.getD i '\x00'
  if cs.length == 7 then 7
  else if at_ 4 == '-' then
    if at_ 5 == 'W' then
      if cs.length > 8 && at_ 8 == '-' then
        if cs.length > 10 && (at_ 10).isDigit then 8 else 10
      else 8
    else 10
  else if at_ 4 == 'W' then
    let stop := 7 + ((cs.drop 7).takeWhile Char.isDigit).length
    if stop < 9 then stop else if stop % 2 == 0 then 7 else 8
  else 8

/-- The day of the week of the first of January, Monday being zero. -/
def firstWeekday (year : Nat) : Nat :=
  Date.daysBeforeYear year % 7

/-- The number of weeks of a year. -/
def weeksOf (year : Nat) : Nat :=
  let first := firstWeekday year
  if first == 3 || (first == 2 && isLeapYear year) then 53 else 52

/-- The date of a day of a week, both from one. -/
def weekDate? (year week day : Nat) : Option Date :=
  if year == 0 || 9999 < year || week == 0 || weeksOf year < week || day == 0 || 7 < day then none
  else
    let start : Int := Date.daysBeforeYear year
    let first : Int := firstWeekday year
    let monday := if first ≤ 3 then start - first else start + 7 - first
    some (Date.ofDays (monday + (7 * (week - 1) + (day - 1) : Nat)).toNat)

/-- Reads a date; its parts need not be in range. -/
def date? (cs : List Char) (length : Nat) : Option Date := do
  let (year, rest) ← digits? 4 cs
  let separated := rest.head? == some '-'
  let rest := if separated then rest.drop 1 else rest
  match rest with
  | 'W' :: rest =>
    let (week, rest) ← digits? 2 rest
    let read := cs.length - rest.length
    if read < length then
      if separated && rest.head? != some '-' then none
      let (day, _) ← digits? 1 (if separated then rest.drop 1 else rest)
      weekDate? year week day
    else weekDate? year week 1
  | _ =>
    let (month, rest) ← digits? 2 rest
    if separated && rest.head? != some '-' then none
    let (day, _) ← digits? 2 (if separated then rest.drop 1 else rest)
    some ⟨year, month, day⟩

/-- A time of day or an offset. -/
structure Clock where
  hour : Nat
  minute : Nat
  second : Nat
  micros : Nat
  deriving DecidableEq, Inhabited

/-- Sets the hour, the minute or the second. -/
def Clock.put (c : Clock) : Nat → Nat → Clock
  | 0, v => { c with hour := v }
  | 1, v => { c with minute := v }
  | _, v => { c with second := v }

/-- The fraction of a second behind a time; says whether something follows it. -/
def fraction? (c : Clock) (cs : List Char) (more : Bool) : Option (Clock × Bool) := do
  let n := min cs.length 6
  let (v, rest) ← digits? n cs
  let rest := rest.dropWhile Char.isDigit
  some ({ c with micros := v * Number.tenTo (6 - n) }, !rest.isEmpty || more)

/-- Reads hours, minutes, seconds and a fraction; `more` tells that something stands
behind the text. -/
def clockFrom? (more : Bool) : Nat → Bool → Clock → List Char → Option (Clock × Bool)
  | 0, _, c, cs => fraction? c cs more
  | left + 1, separated, c, cs => do
    let (v, rest) ← digits? 2 cs
    let c := c.put (2 - left) v
    match rest with
    | [] => some (c, more)
    | s :: rest =>
      let separated := if left == 2 then s == ':' else separated
      if rest.isEmpty then some (c, true)
      else if separated && s == ':' then clockFrom? more left separated c rest
      else if s == '.' || s == ',' then fraction? c rest more
      else if !separated then clockFrom? more left separated c (s :: rest)
      else none

/-- Reads hours, minutes, seconds and a fraction. -/
def clock? (cs : List Char) (more : Bool) : Option (Clock × Bool) :=
  clockFrom? more 3 true ⟨0, 0, 0, 0⟩ cs

/-- Reads a time of day and its offset. -/
def time? (cs : List Char) : Option (Clock × Option Int) := do
  let isZone (c : Char) : Bool := c == '+' || c == '-' || c == 'Z'
  let head := cs.takeWhile fun c => !isZone c
  match cs.dropWhile fun c => !isZone c with
  | [] =>
    let (c, more) ← clock? head false
    if more then none else some (c, none)
  | z :: zone =>
    let (c, _) ← clock? head true
    if z == 'Z' then if zone.isEmpty then some (c, some 0) else none
    else
      let (o, more) ← clock? zone false
      if more then none
      else
        let seconds : Nat := 3600 * o.hour + 60 * o.minute + o.second
        let ahead := Int.ofNat seconds * Moment.second + Int.ofNat o.micros
        some (c, some (if z == '-' then -ahead else ahead))

/-- A moment whose parts are in range. -/
def checked (d : Date) (c : Clock) (offset : Option Int) : Except Fault Moment :=
  if d.year < 1 || 9999 < d.year then .error (.noYear d.year)
  else if d.month < 1 || 12 < d.month then .error .noMonth
  else if d.day < 1 || monthLength d.year d.month < d.day then .error .noDay
  else if 23 < c.hour then .error .noHour
  else if 59 < c.minute then .error .noMinute
  else if 59 < c.second then .error .noSecond
  else .ok (Moment.ofDate d (3600 * c.hour + 60 * c.minute + c.second) c.micros offset)

/-- Reads a moment. -/
def read (s : String) : Except Fault Moment :=
  let cs := s.toList
  let n := dateLength cs
  if cs.length < 7 then .error (.malformed s)
  else
    match date? cs n with
    | none => .error (.malformed s)
    | some d =>
      let rest := cs.drop n
      if rest.length ≤ 1 then checked d ⟨0, 0, 0, 0⟩ none
      else
        match time? (rest.drop 1) with
        | none => .error (.malformed s)
        | some (c, offset) => checked d c offset

end RepairLoop.Iso
