import RepairLoop.Number.Decimal
import RepairLoop.Number.Nearest
/-!
# Moments and spans

Readings of a clock, how they are written and read, and the spans between them.
-/

/-!
## Moments

A moment is a reading of a clock on a wall, in microseconds from the start of the
year 1, with the clock's offset from universal time if that is known. A moment
without an offset is read as universal time where instants are compared. Moments
have two written forms, which differ in how universal time is marked.
-/

namespace RepairLoop

/-! ### The calendar

Days of the proleptic Gregorian calendar are counted from the first day of the year
1. `Date.ofDays` and `Date.days` go from the count to the date and back; years are
taken off one at a time, then months.
-/

/-- A leap year. -/
def isLeapYear (y : Nat) : Bool :=
  y % 4 == 0 && (y % 100 != 0 || y % 400 == 0)

/-- The number of days of a year. -/
def yearLength (y : Nat) : Nat :=
  if isLeapYear y then 366 else 365

/-- The number of days of a month. -/
def monthLength (y m : Nat) : Nat :=
  if m == 2 then if isLeapYear y then 29 else 28
  else if m == 4 || m == 6 || m == 9 || m == 11 then 30
  else 31

/-- A day: its year, month and day of the month, all from one. -/
structure Date where
  year : Nat
  month : Nat
  day : Nat
  deriving DecidableEq, Inhabited

namespace Date

/-- The months of a year before one of them, in days. -/
def daysBeforeMonth (y : Nat) : Nat → Nat
  | 0 => 0
  | 1 => 0
  | m + 1 => daysBeforeMonth y m + monthLength y m

/-- The days before the first day of a year. -/
def daysBeforeYear (y : Nat) : Nat :=
  let p := y - 1
  365 * p + p / 4 - p / 100 + p / 400

/-- The days before a date. -/
def days (d : Date) : Nat :=
  daysBeforeYear d.year + daysBeforeMonth d.year d.month + (d.day - 1)

/-- The month and day of a day of a year; `n` counts from the first of month `m`. -/
def monthOf (y : Nat) : Nat → Nat → Nat → Nat × Nat
  | 0, m, n => (m, n + 1)
  | fuel + 1, m, n =>
    if n < monthLength y m then (m, n + 1) else monthOf y fuel (m + 1) (n - monthLength y m)

/-- The year of a day; `n` counts from the first of year `y`. -/
def yearOf : Nat → Nat → Nat → Nat × Nat
  | 0, y, n => (y, n)
  | fuel + 1, y, n =>
    if n < yearLength y then (y, n) else yearOf fuel (y + 1) (n - yearLength y)

/-- The date that is a number of days behind the first of the year 1. -/
def ofDays (n : Nat) : Date :=
  let (y, r) := yearOf (n / 365) 1 n
  let (m, d) := monthOf y 11 1 r
  ⟨y, m, d⟩

/-- A date that the calendar has, in the years that can be written with four
digits. -/
def isValid (d : Date) : Bool :=
  1 ≤ d.year && d.year ≤ 9999 && 1 ≤ d.month && d.month ≤ 12 && 1 ≤ d.day &&
    d.day ≤ monthLength d.year d.month

/-- The number of days of the years 1 to 9999. -/
def limit : Nat := daysBeforeYear 10000

end Date

/-- A number with at least `width` digits. -/
def paddedDigits (width n : Nat) : String :=
  let ds := Nat.toDigits 10 n
  String.ofList (List.replicate (width - ds.length) '0' ++ ds)

/-- A date as year, month and day. -/
def Date.text (d : Date) : String :=
  paddedDigits 4 d.year ++ "-" ++ paddedDigits 2 d.month ++ "-" ++ paddedDigits 2 d.day

/-! ### Moments -/

/-- A reading of a clock: microseconds from the start of the year 1, and the
microseconds by which the clock is ahead of universal time. -/
structure Moment where
  reading : Int
  offset : Option Int
  deriving DecidableEq, Inhabited

namespace Moment

/-- Microseconds of a second. -/
def second : Int := 1000000

/-- Microseconds of a day. -/
def dayLength : Int := 86400 * second

/-- The readings that have a year of at most four digits. -/
def isRepresentable (reading : Int) : Bool :=
  0 ≤ reading && reading < Int.ofNat Date.limit * dayLength

/-- The instant of a moment: its reading in universal time. -/
def instant (m : Moment) : Int :=
  m.reading - m.offset.getD 0

/-- The same instant in universal time; absent where it has no year. -/
def toUniversal? (m : Moment) : Option Moment :=
  if isRepresentable m.instant then some ⟨m.instant, some 0⟩ else none

/-- A moment later by some microseconds. -/
def later (m : Moment) (micros : Int) : Moment :=
  { m with reading := m.reading + micros }

/-- Seconds from the start of the year 1 to the start of 1970. -/
def epoch : Int := 719162 * 86400

/-- The moment some microseconds behind the start of 1970, in universal time. -/
def ofEpoch (micros : Int) : Moment :=
  ⟨epoch * second + micros, some 0⟩

/-- The moment of a date and a time of day. -/
def ofDate (d : Date) (seconds micros : Nat) (offset : Option Int) : Moment :=
  ⟨(Int.ofNat d.days * 86400 + Int.ofNat seconds) * second + Int.ofNat micros, offset⟩

/-- The date of a moment. -/
def date (m : Moment) : Date :=
  Date.ofDays (m.reading / dayLength).toNat

/-- The time of day, with microseconds only where they are not zero. -/
def clockText (m : Moment) : String :=
  let micros := (m.reading % dayLength).toNat
  let s := micros / 1000000
  let rest := micros % 1000000
  paddedDigits 2 (s / 3600) ++ ":" ++ paddedDigits 2 (s / 60 % 60) ++ ":" ++ paddedDigits 2 (s % 60)
    ++ if rest == 0 then "" else "." ++ paddedDigits 6 rest

/-- An offset as sign, hours and minutes, and seconds and their fraction if there are
any. -/
def offsetText (o : Int) : String :=
  let s := o.natAbs / 1000000
  let rest := o.natAbs % 1000000
  (if o < 0 then "-" else "+") ++ paddedDigits 2 (s / 3600) ++ ":" ++ paddedDigits 2 (s / 60 % 60)
    ++ if s % 60 == 0 && rest == 0 then "" else ":" ++ paddedDigits 2 (s % 60)
    ++ if rest == 0 then "" else "." ++ paddedDigits 6 rest

/-- A moment with its offset, universal time too as an offset. -/
def isoText (m : Moment) : String :=
  m.date.text ++ "T" ++ m.clockText ++ match m.offset with
    | none => ""
    | some o => offsetText o

/-- A moment with its offset, universal time as the letter Z. -/
def wireText (m : Moment) : String :=
  m.date.text ++ "T" ++ m.clockText ++ match m.offset with
    | none => ""
    | some o => if o == 0 then "Z" else offsetText o

/-! ### Reading -/

/-- The value of a digit. -/
def digit? (c : Char) : Option Nat :=
  if c.isDigit then some (c.toNat - 48) else none

/-- Two digits. -/
def twoDigits? : List Char → Option (Nat × List Char)
  | a :: b :: rest => do some ((← digit? a) * 10 + (← digit? b), rest)
  | _ => none

/-- Reads a date. -/
def readDate? : List Char → Option (Date × List Char)
  | a :: b :: c :: d :: '-' :: rest => do
    let (y1, _) ← twoDigits? [a, b]
    let (y2, _) ← twoDigits? [c, d]
    let (m, rest) ← twoDigits? rest
    match rest with
    | '-' :: rest =>
      let (day, rest) ← twoDigits? rest
      let date : Date := ⟨y1 * 100 + y2, m, day⟩
      if date.isValid then some (date, rest) else none
    | _ => none
  | _ => none

/-- Reads the digits behind the seconds; those behind the sixth do not count. -/
def readMicros? (cs : List Char) : Option (Nat × List Char) :=
  let ds := cs.takeWhile Char.isDigit
  let used := (ds.take 6).map fun c => c.toNat - 48
  if ds.isEmpty then none
  else
    some ((used ++ List.replicate (6 - used.length) 0).foldl (fun n d => n * 10 + d) 0,
      cs.dropWhile Char.isDigit)

/-- Reads a time of day: its seconds and microseconds. -/
def readClock? (cs : List Char) : Option (Nat × Nat × List Char) := do
  let (h, rest) ← twoDigits? cs
  match rest with
  | ':' :: rest =>
    let (m, rest) ← twoDigits? rest
    if h > 23 || m > 59 then none
    else
      match rest with
      | ':' :: rest =>
        let (s, rest) ← twoDigits? rest
        if s > 59 then none
        else
          match rest with
          | c :: rest' =>
            if c == '.' || c == ',' then
              let (micros, rest) ← readMicros? rest'
              some (h * 3600 + m * 60 + s, micros, rest)
            else some (h * 3600 + m * 60 + s, 0, rest)
          | [] => some (h * 3600 + m * 60 + s, 0, [])
      | rest => some (h * 3600 + m * 60, 0, rest)
  | _ => none

/-- Reads an offset; nothing else may follow. -/
def readOffset? : List Char → Option (Option Int)
  | [] => some none
  | ['Z'] => some (some 0)
  | ['z'] => some (some 0)
  | sign :: rest => do
    let s : Int ← if sign == '+' then some 1
      else if sign == '-' || sign == '\u2212' then some (-1) else none
    let (h, rest) ← twoDigits? rest
    let rest := match rest with
      | ':' :: rest => rest
      | rest => rest
    let (m, rest) ← twoDigits? rest
    if rest != [] || m > 59 then none
    else
      let total : Int := s * (Int.ofNat h * 3600 + Int.ofNat m * 60)
      if total.natAbs ≥ 86400 then none else some (some (total * second))

/-- Reads a date with a time of day. -/
def readStamp? (cs : List Char) : Option Moment := do
  let (d, rest) ← readDate? cs
  match rest with
  | sep :: rest =>
    if sep == 'T' || sep == 't' || sep == ' ' || sep == '_' then
      let (s, micros, rest) ← readClock? rest
      let offset ← readOffset? rest
      some (ofDate d s micros offset)
    else none
  | [] => none

/-- A number that counts from the start of 1970: seconds, or milliseconds where
seconds would lie too far away. -/
def ofCount? (n micros : Int) : Option Moment :=
  let total :=
    if n.natAbs > 20000000000 then n * 1000 + micros else n * second + micros
  if total < -11676096000 * second || total > 253402300799 * second + 999999 then none
  else some (ofEpoch total)

/-- A count that is written with a point. -/
def ofPointCount? (x : Float) : Option Moment :=
  let x := if x.abs > 20000000000.0 then x / 1000.0 else x
  let s := x.floor
  let micros := ((x - s) * 1000000.0).round
  ofCount? s.toInt64.toInt micros.toInt64.toInt

/-- A count that is given as a double. -/
def ofFloat? (x : Float) : Option Moment :=
  if x.isNaN || x.isInf then none
  else
    let micros := ((x - (if x < 0.0 then x.ceil else x.floor)).abs * 1000000.0).round
    ofCount? x.floor.toInt64.toInt micros.toInt64.toInt

private def signed (cs : List Char) : Int × List Char :=
  match cs with
  | '-' :: rest => (-1, rest)
  | '+' :: rest => (1, rest)
  | cs => (1, cs)

private def number (ds : List Char) : Nat :=
  ds.foldl (fun n c => n * 10 + (c.toNat - 48)) 0

/-- Reads a count. -/
def readCount? (cs : List Char) : Option Moment :=
  let (sign, rest) := signed cs
  let whole := rest.takeWhile Char.isDigit
  match rest.dropWhile Char.isDigit with
  | [] => if whole.isEmpty then none else ofCount? (sign * Int.ofNat (number whole)) 0
  | '.' :: fraction =>
    if whole.isEmpty || !(fraction.all Char.isDigit) then none
    else
      ofPointCount? (Number.nearest (sign < 0) (number (whole ++ fraction)) (Number.tenTo fraction.length))
  | _ => none

/-- Reads a written moment: a date with a time of day, a date, or a count. -/
def ofText? (s : String) : Option Moment :=
  let cs := s.toList
  match readStamp? cs with
  | some m => some m
  | none =>
    match readCount? cs with
    | some m => some m
    | none =>
      match readDate? cs with
      | some (d, []) => some (ofDate d 0 0 none)
      | _ => none

end Moment

end RepairLoop

/-!
## Spans of time

Spans are counted in microseconds. A number of days or seconds that is not whole is
rounded to the nearest microsecond, and to an even one where two are as near.
-/

namespace RepairLoop

/-- Why a span cannot be taken. -/
inductive SpanFault where
  | tooManyDays (n : Int)
  | tooLarge
  | infinite
  | notANumber
  | outOfCalendar
  deriving DecidableEq, Inhabited

namespace SpanFault

/-- What is said of a span that cannot be taken. -/
def message : SpanFault → String
  | tooManyDays n => s!"days={n}; must have magnitude <= 999999999"
  | tooLarge => "Python int too large to convert to C int"
  | infinite => "cannot convert float infinity to integer"
  | notANumber => "cannot convert float NaN to integer"
  | outOfCalendar => "date value out of range"

end SpanFault

namespace Span

/-- The most days of a span. -/
def maxDays : Nat := 999999999

/-- A double with a fraction in units of some microseconds. -/
def ofFloat (x : Float) (unit : Nat) : Int :=
  let whole := (Number.truncate? x).getD 0
  let part := (x - Number.ofInt whole) * Number.ofInt unit
  let micros := (Number.truncate? part).getD 0
  let rest := part - Number.ofInt micros
  let total := whole * Int.ofNat unit + micros
  if rest.abs == 0.5 then
    if total % 2 == 0 then total else if rest < 0.0 then total - 1 else total + 1
  else if rest.abs < 0.5 then total
  else if rest < 0.0 then total - 1
  else total + 1

/-- Checks that a span has not too many days. -/
def checked (micros : Int) : Except SpanFault Int :=
  let days := micros.fdiv Moment.dayLength
  if days.natAbs ≤ maxDays then .ok micros
  else if days.natAbs < Number.twoTo 31 then .error (.tooManyDays days)
  else .error .tooLarge

/-- Some days. -/
def ofDays (n : Int) : Except SpanFault Int :=
  checked (n * Moment.dayLength)

/-- A number of days that need not be whole. -/
def ofFloatDays (x : Float) : Except SpanFault Int :=
  if x.isNaN then .error .notANumber
  else if x.isInf then .error .infinite
  else checked (ofFloat x Moment.dayLength.toNat)

/-- Some seconds. -/
def ofSeconds (x : Float) : Int :=
  ofFloat x Moment.second.toNat

end Span

/-- The moment a span before another. -/
def Moment.before (m : Moment) (micros : Int) : Except SpanFault Moment :=
  let r := m.reading - micros
  if isRepresentable r then .ok { m with reading := r } else .error .outOfCalendar

end RepairLoop
