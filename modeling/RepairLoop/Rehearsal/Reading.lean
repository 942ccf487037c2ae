import RepairLoop.Rehearsal.Repository
import RepairLoop.Text.Encoded
import RepairLoop.World.Basic
/-!
# Rehearsals in JSON

A world with a scripted outside, read from an object: its clock, its files, the state of
its repository, the rules and the queues of answers. The project lies at one fixed path
and copies of it at another.
-/

namespace RepairLoop.Rehearsal

/-- Where the project lies. -/
def projectRoot : Path := ⟨.root, ["<root>"]⟩

/-- Where copies of the project lie. -/
def copyRoot : Path := ⟨.root, ["<sandbox>"]⟩

/-- Where programs run that run in neither. -/
def elsewhere : Path := ⟨.root, ["<elsewhere>"]⟩

/-- A text under a key, empty where there is none. -/
def textAt (j : Json) (key : String) : String := ((j.getD key).text?).getD ""

/-- A whole number under a key. -/
def wholeAt (j : Json) (key : String) (usual : Int) : Int :=
  match j.getD key with
  | .int n => n
  | .bool b => b.toInt
  | _ => usual

/-- A flag under a key. -/
def flagAt (j : Json) (key : String) : Bool := (j.getD key).truthy

/-- The texts in a list under a key. -/
def textsAt (j : Json) (key : String) : List String := (j.getD key).items.filterMap Json.text?

/-- Bytes: a text, or an object with an encoded one. -/
def contentOf (j : Json) : ByteArray :=
  match j with
  | .text s => s.toUTF8
  | j => Text.fromBase64 (textAt j "b64")

/-- The text of bytes, or an object with their encoded form. -/
def contentJson (bytes : ByteArray) : Json :=
  match String.fromUTF8? bytes with
  | some s => .text s
  | none => .object [("b64", .text (Text.toBase64 bytes))]

/-- Changes to files: content, null for a directory, or a mark that deletes. -/
def changesOf (j : Json) : Changes :=
  j.members.map fun (path, value) =>
    (Path.ofString path,
      match value with
      | .null => .directory
      | v => if flagAt v "delete" then .delete else .file (contentOf v))

/-- A rule for words that start with those under a key. -/
def ruleOf {α : Type} (key : String) (answer : Json → α) (j : Json) : Rule α :=
  ⟨textsAt j key, (j.getD "times").some?.map fun _ => (wholeAt j "times" 0).toNat, answer j⟩

/-- What a rule for git answers. -/
def gitReplyOf (j : Json) : GitReply :=
  let out := match j.get? "out_b64" with
    | some (.text s) => Text.fromBase64 s
    | _ => (textAt j "out").toUTF8
  let failure := (j.getD "raise").text?
  ⟨wholeAt j "rc" 0, out, (textAt j "err").toUTF8,
    if failure.isSome then [] else changesOf (j.getD "write"), failure⟩

/-- What a rule for commands answers. -/
def commandReplyOf (j : Json) : CommandReply :=
  let exit := match j.get? "rc" with
    | some .null => none
    | _ => some (wholeAt j "rc" 0)
  let failure := (j.getD "raise").text?
  ⟨exit, textAt j "out", textAt j "err", wholeAt j "ms" 0, flagAt j "timed_out",
    flagAt j "missing", if failure.isSome then [] else changesOf (j.getD "write"),
    failure.map (.mishap .system ·)⟩

/-- What a service answers. -/
def webReplyOf (j : Json) : WebReply :=
  match j with
  | .text s => .answer 200 s
  | j =>
    if flagAt j "timeout" then .tooLate
    else match j.get? "http_error", j.get? "url_error" with
      | some _, _ => .refused (wholeAt j "http_error" 0) (textAt j "body")
      | none, some _ => .unreachable (textAt j "url_error")
      | none, none => .answer (wholeAt j "status" 200) (textAt j "body")

/-- What a model answers: a text in the form of its service, or a failure. -/
def modelReplyOf (form : String → String) (j : Json) : ModelReply :=
  match j with
  | .text s => .answer (form s)
  | j => .failure (textAt j "os_error")

/-- A minimal repository. -/
def repositoryOf (j : Json) : Repository :=
  ⟨(wholeAt j "commits" 1).toNat, ((j.getD "current").text?).getD "main",
    match j.get? "branches" with
    | some (.list names) => names.filterMap Json.text?
    | _ => ["main"]⟩

/-- The files of the project. -/
def filesOf (j : Json) (gitMarker : String) : FileTree :=
  let git := (projectRoot.join (Path.ofString ".git")).parts
  let tree := FileTree.empty.makeDirectory projectRoot.parts
  let tree := World.changed tree projectRoot (changesOf (j.getD "files"))
  match gitMarker with
  | "dir" => tree.makeDirectory git
  | "file" => tree.writeText git "gitdir: elsewhere\n"
  | _ => tree

/-- The outside of a rehearsal. -/
def outsideOf (j : Json) (model : List ModelReply) : Outside :=
  Script.outside
    ⟨⟨(j.getD "git").items.map (ruleOf "args" gitReplyOf), repositoryOf j⟩,
      (j.getD "commands").items.map (ruleOf "command" commandReplyOf),
      (j.getD "http").items.map webReplyOf, model, textsAt j "which",
      (j.getD "crash").text?⟩

/-- The time at which a rehearsal starts. -/
def startOf (j : Json) : Moment :=
  ((((j.getD "now").text?).bind Moment.ofText?).orElse fun _ =>
    Moment.ofText? "2024-01-01T00:00:00+00:00").getD default

/-- The environment of a rehearsal; of two values for a name the later one counts. -/
def environmentOf (j : Json) : List (String × String) :=
  let pairs : Members := match j.getD "env" with
    | .object ms => ms
    | env => env.items.filterMap fun p => match p.items with
      | [.text k, v] => some (k, v)
      | _ => none
  (Members.dedup pairs).map fun (k, v) => (k, (v.text?).getD "")

/-- The world of a rehearsal. -/
def worldOf (j : Json) (here : Path) (gitMarker : String) (model : List ModelReply) : World where
  supply := ⟨0, startOf j, wholeAt j "tick_ms" 0 * 1000⟩
  seconds := 0.0
  here := here
  workshop := copyRoot
  patchName := "<patch>"
  containerMark := "cccccccccc"
  environment := environmentOf j
  files := filesOf j gitMarker
  outside := outsideOf j model
  gitCalls := []
  commandCalls := []
  webCalls := []
  modelCalls := []
  pauses := []
  events := []
  printed := []
  lastBackup := none
  store := Store.empty
  stores := []
  allowance := none
  baseline := none

/-! ## What was done -/

/-- The name under which a place is shown. -/
def placeName (p : Path) : String := if p == projectRoot then "<root>" else "<sandbox>"

/-- A run of a command as an object. -/
def commandJson (c : CommandCall) : Json :=
  .object [("cwd", .text (placeName c.place)), ("argv", Json.texts c.words),
    ("timeout", c.timeout.json)]

/-- A list under a key, unless it is empty. -/
def unlessEmpty (key : String) (items : List Json) : Members :=
  if items.isEmpty then [] else [(key, .list items)]

/-- What was run and waited for since an earlier state of the world. -/
def added (before after : World) : Members :=
  let git := after.gitCalls.drop before.gitCalls.length
  unlessEmpty "git" (git.map fun c => Json.texts c.arguments) ++
  unlessEmpty "patches" (git.filterMap fun c => c.patch.map Json.text) ++
  unlessEmpty "commands" ((after.commandCalls.drop before.commandCalls.length).map commandJson) ++
  unlessEmpty "sleeps" ((after.pauses.drop before.pauses.length).map Amount.json)

/-- What was reported since an earlier state of the world. -/
def reported (before after : World) : Json :=
  .list ((after.events.drop before.events.length).map fun e => .object (e.members none))

/-- The files below a place and their contents. -/
def filesJson (files : FileTree) (root : Path) : Json :=
  .object ((files.below root.parts).files.map fun (l, content) =>
    (FileTree.locationText l, contentJson content))

/-- The files of the project and their contents, without those of the repository and of
the store. -/
def treeJson (files : FileTree) (root : Path) : Json :=
  .object ((files.below root.parts).files.filterMap fun (l, content) =>
    match l with
    | ".git" :: _ :: _ => none
    | "data" :: _ :: _ => none
    | _ => some (FileTree.locationText l, contentJson content))

end RepairLoop.Rehearsal
