import RepairLoop.Fault
import RepairLoop.Json.Basic
import RepairLoop.Number.Decimal
import RepairLoop.Time.Moment
/-!
# Reading records

The data that records are read from, the names and times that they take where these are
missing, and how they are read.
-/

/-!
## Fresh names and the clock

Records take their names from a counter and their times from a clock. A reading of
the clock moves it on by a fixed tick.
-/

namespace RepairLoop

/-- The counter of names that were given out, the clock, and its tick in
microseconds. -/
structure Supply where
  given : Nat
  now : Moment
  tick : Int
  deriving Inhabited

namespace Supply

/-- A number as twelve hexadecimal digits. -/
def nameOf (n : Nat) : String :=
  let ds := Nat.toDigits 16 n
  String.ofList (List.replicate (12 - ds.length) '0' ++ ds)

/-- A new name. -/
def freshName : StateM Supply String := fun s =>
  (nameOf (s.given + 1), { s with given := s.given + 1 })

/-- The time; the clock moves on. -/
def readClock : StateM Supply Moment := fun s =>
  (s.now, { s with now := s.now.later s.tick })

end Supply

end RepairLoop

/-!
## Data of documents

A value of a configuration document or of a record that is not yet checked: the
values of JSON, and beside them bytes, dates, moments, sets, and mappings whose
keys are any values.
-/

namespace RepairLoop

/-- A value of a document. -/
inductive Datum where
  | null
  | bool (b : Bool)
  | int (n : Int)
  | float (x : Float)
  | text (s : String)
  | bytes (bs : List UInt8)
  | date (d : Date)
  | moment (m : Moment)
  | list (items : List Datum)
  | set (items : List Datum)
  | map (entries : List (Datum × Datum))
  deriving Inhabited

namespace Datum

mutual

/-- A JSON value as a value of a document. -/
def ofJson : Json → Datum
  | .null => .null
  | .bool b => .bool b
  | .int n => .int n
  | .float x => .float x
  | .text s => .text s
  | .list items => .list (ofJsons items)
  | .object ms => .map (ofMembers ms)

/-- JSON values as values of a document. -/
def ofJsons : List Json → List Datum
  | [] => []
  | j :: js => ofJson j :: ofJsons js

/-- Members of an object as entries of a mapping. -/
def ofMembers : List (String × Json) → List (Datum × Datum)
  | [] => []
  | (k, v) :: ms => (.text k, ofJson v) :: ofMembers ms

end

/-- The key of an entry as text; only a text is one. -/
def keyText : Datum → String
  | .text s => s
  | _ => ""

mutual

/-- A value of a document as JSON; what JSON lacks is written as text. -/
def toJson : Datum → Json
  | .null => .null
  | .bool b => .bool b
  | .int n => .int n
  | .float x => .float x
  | .text s => .text s
  | .bytes bs => .text (String.ofList (bs.map fun b => Char.ofNat b.toNat))
  | .date d => .text d.text
  | .moment m => .text m.wireText
  | .list items => .list (toJsons items)
  | .set items => .list (toJsons items)
  | .map entries => .object (toMembers entries)

/-- Values of a document as JSON. -/
def toJsons : List Datum → List Json
  | [] => []
  | d :: ds => toJson d :: toJsons ds

/-- Entries of a mapping as members of an object. -/
def toMembers : List (Datum × Datum) → List (String × Json)
  | [] => []
  | (k, v) :: es => (keyText k, toJson v) :: toMembers es

end

end Datum

end RepairLoop

/-!
## Reading records

A record is read field by field. All fields are read even where one has a problem,
so that every problem is reported; fresh names and times are taken in the order of
the fields. `seq_problems` says that the problems of two readings in a row are those
of the first and then those of the second.
-/

namespace RepairLoop

/-- A reading: a value or the problems found, and the names and times that are
left. -/
structure Reading (α : Type) where
  run : Supply → Except (List Problem) α × Supply

namespace Reading

variable {α β : Type}

/-- The problems of a result. -/
def problemsOf : Except (List Problem) α → List Problem
  | .ok _ => []
  | .error ps => ps

/-- A function applied to a value, unless one of them has problems. -/
def applyResults : Except (List Problem) (α → β) → Except (List Problem) α →
    Except (List Problem) β
  | .ok f, .ok a => .ok (f a)
  | .ok _, .error ps => .error ps
  | .error ps, .ok _ => .error ps
  | .error ps, .error qs => .error (ps ++ qs)

theorem applyResults_problems (f : Except (List Problem) (α → β))
    (a : Except (List Problem) α) :
    problemsOf (applyResults f a) = problemsOf f ++ problemsOf a := by
  cases f <;> cases a <;> simp [applyResults, problemsOf]

instance : Applicative Reading where
  pure a := ⟨fun s => (.ok a, s)⟩
  seq f x := ⟨fun s =>
    let (rf, s) := f.run s
    let (ra, s) := (x ()).run s
    (applyResults rf ra, s)⟩

/-- The problems of two readings in a row, in order. -/
theorem seq_problems (f : Reading (α → β)) (x : Reading α) (s : Supply) :
    problemsOf ((f <*> x).run s).1
      = problemsOf (f.run s).1 ++ problemsOf (x.run (f.run s).2).1 :=
  applyResults_problems _ _

/-- A result as a reading. -/
def ofResult (r : Except (List Problem) α) : Reading α := ⟨fun s => (r, s)⟩

/-- A single problem of a value itself. -/
def problem (sort : String) : Reading α := ofResult (.error [⟨[], sort, none⟩])

/-- A taking of names or times as a reading. -/
def taking (m : StateM Supply α) : Reading α := ⟨fun s =>
  let (a, s) := m s
  (.ok a, s)⟩

/-- A reading of a part: its problems lie under a step. -/
def under (step : Step) (r : Reading α) : Reading α := ⟨fun s =>
  match r.run s with
  | (.ok a, s) => (.ok a, s)
  | (.error ps, s) => (.error (ps.map fun p => { p with place := step :: p.place }), s)⟩

/-- A reading whose value must keep a rule; the rule says what is wrong. -/
def checked (r : Reading α) (rule : α → Option String) : Reading α := ⟨fun s =>
  match r.run s with
  | (.ok a, s) =>
    match rule a with
    | none => (.ok a, s)
    | some m => (.error [⟨[], "value_error", some ("Value error, " ++ m)⟩], s)
  | (.error ps, s) => (.error ps, s)⟩

/-- Readings of the items of a list, one after the other. -/
def sequence : List (Reading α) → Reading (List α)
  | [] => pure []
  | r :: rs => List.cons <$> r <*> sequence rs

end Reading

/-- How a value is read. -/
abbrev Shape (α : Type) := Datum → Reading α

/-- The entries of a mapping. -/
abbrev Entries := List (Datum × Datum)

namespace Entries

/-- The value under a text key. -/
def get? (es : Entries) (key : String) : Option Datum :=
  (es.find? fun e => match e.1 with
    | .text s => s == key
    | _ => false).map Prod.snd

end Entries

namespace Reading

variable {α : Type}

/-- A field that must be there. -/
def required (es : Entries) (key : String) (shape : Shape α) : Reading α :=
  match Entries.get? es key with
  | some d => under (.key key) (shape d)
  | none => under (.key key) (problem "missing")

/-- A field with a value to take where it is missing. -/
def field (es : Entries) (key : String) (otherwise : Reading α) (shape : Shape α) : Reading α :=
  match Entries.get? es key with
  | some d => under (.key key) (shape d)
  | none => otherwise

/-- The text of a key that is no text. -/
def keyStep : Datum → Step
  | .text s => .key s
  | .int n => .position n
  | .bool b => .position (if b then 1 else 0)
  | .null => .key "None"
  | .float x => .key (Number.text x)
  | .date d => .key s!"datetime.date({d.year}, {d.month}, {d.day})"
  | _ => .key ""

/-- Keys that a record does not have, and keys that are no texts, are problems. -/
def noOthers (es : Entries) (keys : List String) : Reading Unit :=
  let bad := es.filterMap fun (k, _) =>
    match k with
    | .text s => if keys.contains s then none else some ⟨[.key s], "extra_forbidden", none⟩
    | k => some ⟨[keyStep k], "invalid_key", none⟩
  if bad.isEmpty then pure () else ofResult (.error bad)

/-- A record with the given keys. -/
def record (keys : List String) (build : Entries → Reading α) : Shape α
  | .map es => build es <* noOthers es keys
  | _ => problem "model_type"

end Reading

end RepairLoop
