/-!
# JSON values

A JSON value as the library holds it: integers of any size stand apart from
doubles, and an object lists its members in the order of their first insertion.
`get?` is the view of an object; `put` replaces in place or appends.
-/

namespace RepairLoop

/-- A JSON value. -/
inductive Json where
  | null
  | bool (b : Bool)
  | int (n : Int)
  | float (x : Float)
  | text (s : String)
  | list (items : List Json)
  | object (members : List (String × Json))
  deriving Inhabited

/-- Members of an object in insertion order. -/
abbrev Members := List (String × Json)

namespace Members

/-- The value under a key. -/
def get? (ms : Members) (key : String) : Option Json :=
  (ms.find? (·.1 == key)).map (·.2)

/-- Sets a key: in place if it is there, else at the end. -/
def put (ms : Members) (key : String) (value : Json) : Members :=
  match ms with
  | [] => [(key, value)]
  | (k, v) :: rest => if k == key then (k, value) :: rest else (k, v) :: put rest key value

/-- The members with no key twice: a later value replaces an earlier one where
the key first stood. -/
def dedup (ms : Members) : Members :=
  ms.foldl (fun acc (k, v) => put acc k v) []

@[simp] theorem get?_put_self (ms : Members) (key : String) (value : Json) :
    (ms.put key value).get? key = some value := by
  induction ms with
  | nil => simp [put, get?]
  | cons m ms ih =>
    obtain ⟨k, v⟩ := m
    by_cases h : k == key
    · simp [put, get?, h]
    · simpa [put, get?, h, List.find?_cons] using ih

end Members

namespace Json

/-- A member of an object; anything else has none. -/
def get? (j : Json) (key : String) : Option Json :=
  match j with
  | .object ms => Members.get? ms key
  | _ => none

/-- A member of an object, null where there is none. -/
def getD (j : Json) (key : String) : Json :=
  (j.get? key).getD .null

/-- The text of a text value. -/
def text? : Json → Option String
  | .text s => some s
  | _ => none

/-- The items of a list; of anything else none. -/
def items : Json → List Json
  | .list xs => xs
  | _ => []

/-- The members of an object; of anything else none. -/
def members : Json → Members
  | .object ms => ms
  | _ => []

/-- A value that is present and not null. -/
def some? : Json → Option Json
  | .null => none
  | j => some j

/-- False, zero, and the empty text, list and object do not count as set; null
neither. -/
def truthy : Json → Bool
  | .null => false
  | .bool b => b
  | .int n => n != 0
  | .float x => x != 0
  | .text s => s != ""
  | .list xs => !xs.isEmpty
  | .object ms => !ms.isEmpty

/-- A text, or null. -/
def ofText? : Option String → Json
  | none => .null
  | some s => .text s

/-- A list of texts. -/
def texts (ss : List String) : Json :=
  .list (ss.map .text)

end Json

end RepairLoop
