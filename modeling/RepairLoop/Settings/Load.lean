import RepairLoop.Settings.Basic
import RepairLoop.Text.Encoded
import RepairLoop.Text.Line
import RepairLoop.Yaml.Data
/-!
# Loading settings

Settings come from a document with what variables of the environment say on top of it.
The name of a variable is a path of keys between double underscores. What is on top
replaces what is below, unless both are mappings, which are merged key by key.
-/

namespace RepairLoop

/-- What the names of variables that hold settings start with. -/
def variablePrefix : String := "SELF_HEAL__"

/-- The keys that the name of a variable leads through; none where the variable holds
no setting. -/
def variableKeys (name : String) : List String :=
  if name.startsWith variablePrefix then
    (((String.ofList (name.toList.drop variablePrefix.length)).splitOn "__").filter
      (· != "")).map Text.lowerCase
  else []

namespace Entries

/-- Sets a text key: in place if it is there, else at the end. -/
def put (es : Entries) (key : String) (d : Datum) : Entries :=
  Yaml.putEntry (.text key) d es

/-- Sets a value at the end of a path of keys. On the way whatever is no mapping
becomes one. -/
def putAt (es : Entries) : List String → Datum → Entries
  | [], _ => es
  | [k], d => es.put k d
  | k :: ks, d =>
    let inner : Entries := match es.get? k with
      | some (.map inner) => inner
      | _ => []
    es.put k (.map (putAt inner ks d))

end Entries

/-- The value that a variable writes: a document as it is read, or the text itself where it is
none. -/
def valueBy (read : String → Except Yaml.Refused Datum) (text : String) : Except Fault Datum :=
  match read text with
  | .ok d => .ok d
  | .error .malformed => .ok (.text text)
  | .error (.value what message) => .error (.mishap what message)

/-- The value that a variable writes. -/
def variableValue (text : String) : Except Fault Datum := valueBy Yaml.load text

/-- What is said with one more variable. -/
def sayBy (read : String → Except Yaml.Refused Datum) (es : Entries) (v : String × String) :
    Except Fault Entries :=
  match variableKeys v.1 with
  | [] => .ok es
  | keys => do
    let d ← valueBy read v.2
    .ok (es.putAt keys d)

/-- What the variables of an environment say, if documents are read so. -/
def overridesBy (read : String → Except Yaml.Refused Datum)
    (environment : List (String × String)) : Except Fault Entries :=
  environment.foldlM (sayBy read) []

/-- What the variables of an environment say. -/
def overrides (environment : List (String × String)) : Except Fault Entries :=
  overridesBy Yaml.load environment

mutual

/-- A value with another on top of it. -/
def Datum.under (below : Option Datum) : Datum → Datum
  | .map above =>
    match below with
    | some (.map es) => .map (Entries.overlay es above)
    | _ => .map above
  | d => d

/-- The entries of a mapping with those of another on top of them. -/
def Entries.overlay (es : Entries) : Entries → Entries
  | [] => es
  | (k, d) :: above =>
    Entries.overlay (Yaml.putEntry k (Datum.under (Yaml.lookup? k es) d) es) above

end

namespace Settings

/-- The entries of a document. -/
def readDocument (path text : String) : Except Fault Entries :=
  match Yaml.load text with
  | .ok .null => .ok []
  | .ok (.map es) => .ok es
  | .ok _ =>
    .error (.refuse .configuration s!"Configuration root in {path} must be a mapping." [])
  | .error .malformed => .error (.refuse .configuration s!"Unable to parse {path}" [])
  | .error (.value what message) => .error (.mishap what message)

/-- A problem as details name it. -/
def problemJson (p : Problem) : Json :=
  .object ([("loc", Json.list (p.place.map fun
      | .key s => .text s
      | .position n => .int n)), ("type", .text p.sort)] ++
    match p.message with
    | some m => [("msg", .text m)]
    | none => [])

/-- Settings that the entries of a mapping write. -/
def ofEntries (es : Entries) : Except Fault Settings :=
  match Reading.plain shape (.map es) with
  | .ok s => .ok s
  | .error ps =>
    .error (.refuse .configuration s!"Invalid configuration: {ps.length} problem(s)"
      [("errors", .list (ps.map problemJson))])

/-- Loads settings from a document, if there is one, and an environment. -/
def load (document : Option (String × ByteArray)) (environment : List (String × String)) :
    Except Fault Settings := do
  let below ← match document with
    | none => Except.ok []
    | some (path, content) =>
      match Text.decode content with
      | .error f => Except.error (.mishap .undecodable f.message)
      | .ok text => readDocument path (String.ofList (Text.unifyFeeds text.toList))
  let above ← overrides environment
  ofEntries (Entries.overlay below above)

/-- A path as seen from the directory of the project, without double dots; `here` is
the directory from which that directory is seen. -/
def resolvePath (s : Settings) (here p : Path) : Path :=
  if p.isAbsolute then p else (here.join (s.project.repoRoot.join p)).collapsed

end Settings

end RepairLoop
