/-!
# File trees

A tree of files, directories and links below one directory. Entries are found by the
names on the way to them; a directory that holds something may itself be left out of
the entries.
-/

namespace RepairLoop

/-- The names on the way to an entry. -/
abbrev Location := List String

/-- Locations in order: by the first name that differs, and what lies above comes first. -/
def Location.atMost : Location → Location → Bool
  | [], _ => true
  | _ :: _, [] => false
  | a :: p, b :: q => a < b || (a == b && Location.atMost p q)

-- whichever instances are known elsewhere, contents are compared by this one
local instance (priority := high) decidableEqBytes : DecidableEq ByteArray :=
  ByteArray.instDecidableEq

/-- What stands at a location. -/
inductive Entry where
  | file (content : ByteArray)
  | directory
  | link (target : String)
  deriving DecidableEq, Inhabited

/-- A tree of files. -/
structure FileTree where
  entries : List (Location × Entry)
  deriving DecidableEq, Inhabited

namespace FileTree

/-- A tree with nothing in it. -/
def empty : FileTree := ⟨[]⟩

/-- The entry at a location. -/
def entry? (t : FileTree) (p : Location) : Option Entry :=
  match t.entries.find? (·.1 == p) with
  | some (_, e) => some e
  | none => if t.entries.any (fun (q, _) => p.isPrefixOf q) || p.isEmpty then some .directory else none

/-- The content of a file. -/
def content? (t : FileTree) (p : Location) : Option ByteArray :=
  match t.entry? p with
  | some (.file c) => some c
  | _ => none

/-- There is a file. -/
def isFile (t : FileTree) (p : Location) : Bool :=
  (t.content? p).isSome

/-- There is a directory. -/
def isDirectory (t : FileTree) (p : Location) : Bool :=
  match t.entry? p with
  | some .directory => true
  | _ => false

/-- There is something. -/
def has (t : FileTree) (p : Location) : Bool :=
  (t.entry? p).isSome

private def putEntry (p : Location) (e : Entry) : List (Location × Entry) → List (Location × Entry)
  | [] => [(p, e)]
  | (q, f) :: rest => if q == p then (q, e) :: rest else (q, f) :: putEntry p e rest

/-- Puts an entry at a location. -/
def put (t : FileTree) (p : Location) (e : Entry) : FileTree :=
  ⟨putEntry p e t.entries⟩

private theorem find?_putEntry (p q : Location) (e : Entry) (es : List (Location × Entry)) :
    (putEntry p e es).find? (·.1 == q) = if p = q then some (p, e) else es.find? (·.1 == q) := by
  induction es with
  | nil => by_cases h : p = q <;> simp [putEntry, h]
  | cons head rest ih =>
    obtain ⟨k, f⟩ := head
    rw [putEntry]
    by_cases hk : k = p
    · subst hk
      by_cases h : k = q <;> simp [h]
    · by_cases h : k = q
      · subst h
        simp [hk, Ne.symm hk]
      · simp [hk, h, ih]

private theorem any_putEntry (p q : Location) (e : Entry) (es : List (Location × Entry)) :
    (putEntry p e es).any (fun (k, _) => q.isPrefixOf k) =
      (es.any (fun (k, _) => q.isPrefixOf k) || q.isPrefixOf p) := by
  induction es with
  | nil => simp [putEntry]
  | cons head rest ih =>
    obtain ⟨k, f⟩ := head
    rw [putEntry]
    by_cases hk : k = p
    · subst hk
      cases h : q.isPrefixOf k <;> simp [h]
    · simp [hk, ih, Bool.or_assoc]

private theorem filter_putEntry {f : Location → Bool} {p : Location} (hp : f p = false) (e : Entry)
    (es : List (Location × Entry)) :
    (putEntry p e es).filter (fun x => f x.1) = es.filter (fun x => f x.1) := by
  induction es with
  | nil => simp [putEntry, hp]
  | cons head rest ih =>
    obtain ⟨k, d⟩ := head
    rw [putEntry]
    by_cases hk : k = p
    · subst hk
      simp [hp]
    · simp [hk, List.filter_cons, ih]

/-- What is put at a location does not change what stands at others. -/
theorem filter_put {f : Location → Bool} {p : Location} (hp : f p = false) (t : FileTree) (e : Entry) :
    (t.put p e).entries.filter (fun x => f x.1) = t.entries.filter (fun x => f x.1) :=
  filter_putEntry hp e t.entries

theorem entry?_put_self (t : FileTree) (p : Location) (e : Entry) :
    entry? (t.put p e) p = some e := by
  rw [ entry?, put, find?_putEntry, if_pos rfl]

/-- **What is put at a location shows at another one only as a directory on the way**, where
nothing was before. -/
theorem entry?_put_of_ne {t : FileTree} {p q : Location} {e : Entry} (h : p ≠ q) :
    entry? (t.put p e) q =
      if (t.entry? q).isNone && q.isPrefixOf p then some .directory else t.entry? q := by
  rw [ entry?, put, find?_putEntry, if_neg h, any_putEntry, entry?]
  cases hfind : t.entries.find? (·.1 == q) with
  | some found => simp
  | none =>
    cases hany : t.entries.any fun (k, _) => q.isPrefixOf k <;>
      cases hprefix : q.isPrefixOf p <;> cases hempty : q.isEmpty <;> simp

/-- Writes a file. -/
def write (t : FileTree) (p : Location) (content : ByteArray) : FileTree :=
  t.put p (.file content)

/-- Writes a text file. -/
def writeText (t : FileTree) (p : Location) (s : String) : FileTree :=
  t.write p s.toUTF8

/-- Makes a directory if there is nothing. -/
def makeDirectory (t : FileTree) (p : Location) : FileTree :=
  if t.has p then t else t.put p .directory

/-- Takes out an entry and all that is below it; the directory it stood in stays. -/
def remove (t : FileTree) (p : Location) : FileTree :=
  let rest : FileTree := ⟨t.entries.filter fun (q, _) => !p.isPrefixOf q⟩
  if t.has p then rest.makeDirectory p.dropLast else rest

/-- The files, by location. -/
def files (t : FileTree) : List (Location × ByteArray) :=
  (t.entries.filterMap fun (p, e) =>
    match e with
    | .file c => some (p, c)
    | _ => none).mergeSort fun a b => Location.atMost a.1 b.1

/-- What lies below a directory, seen from there. -/
def below (t : FileTree) (p : Location) : FileTree :=
  ⟨t.entries.filterMap fun (q, e) =>
    if p.isPrefixOf q && p.length < q.length then some (q.drop p.length, e) else none⟩

/-- The location as a text with slashes. -/
def locationText (p : Location) : String := "/".intercalate p

end FileTree

end RepairLoop
