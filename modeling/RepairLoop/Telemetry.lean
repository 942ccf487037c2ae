import RepairLoop.Json.Printer
import RepairLoop.Path
import RepairLoop.Text.Quoted
import RepairLoop.Time.Moment
/-!
# Events

An event has a name and named values. It is written as one line of JSON, with the
time behind its name; paths, moments and bytes are written as texts.
-/

namespace RepairLoop

/-- A value that an event reports. -/
inductive Reported where
  | json (j : Json)
  | path (p : Path)
  | moment (m : Moment)
  | bytes (bs : List UInt8)
  | list (items : List Reported)
  | map (entries : List (String × Reported))
  deriving Inhabited

/-- Bytes as a message shows them: the letter b and a quoted text in which every byte
outside ASCII is escaped. -/
def quotedBytes (bs : List UInt8) : String :=
  let cs := bs.map fun b => Char.ofNat b.toNat
  let quote := Text.quoteFor cs
  let shown := cs.flatMap fun c =>
    if c.toNat < 0x7f then Text.quotedChar quote c
    else '\\' :: 'x' :: Text.hexDigits 2 c.toNat
  String.ofList ('b' :: quote :: shown ++ [quote])

namespace Reported

mutual

/-- A reported value as JSON. -/
def toJson : Reported → Json
  | json j => j
  | path p => .text p.text
  | moment m => .text m.isoText
  | bytes bs => .text (quotedBytes bs)
  | list items => .list (toJsons items)
  | map entries => .object (Members.dedup (toMembers entries))

/-- Reported values as JSON. -/
def toJsons : List Reported → List Json
  | [] => []
  | r :: rs => r.toJson :: toJsons rs

/-- Named reported values as JSON. -/
def toMembers : List (String × Reported) → Members
  | [] => []
  | (k, r) :: es => (k, r.toJson) :: toMembers es

end

end Reported

/-- An event: its name and its values. -/
structure Event where
  name : String
  fields : Members
  deriving Inhabited

namespace Event

/-- An event with values in JSON. -/
def of (name : String) (fields : Members) : Event := ⟨name, fields⟩

/-- The event as an object; the time stands second if it is shown. -/
def members (e : Event) (time : Option String) : Members :=
  e.fields.foldl (fun acc (k, v) => Members.put acc k v)
    (("event", .text e.name) :: (time.map fun t => ("timestamp", Json.text t)).toList)

/-- The event on one line. -/
def line (e : Event) (time : String) : String :=
  Json.render .compact (.object (e.members (some time)))

end Event

end RepairLoop
