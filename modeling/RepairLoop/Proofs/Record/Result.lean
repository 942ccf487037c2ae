import Mathlib.Data.List.Forall2
import RepairLoop.Proofs.Time.Reread
import RepairLoop.Record.Result
import RepairLoop.Schema.Scalar
/-!
# Result — a result is read back from its fields

What a record writes is read back field by field (`Reads`), and so a result is, with what it
says of its performance and of its stages (`ValidationResult.reads_members`).
-/

/-!
## Reads — data that is taken as it is

A reading `Reads` a value if it comes to the value from whatever names and times are left,
and leaves them alone. A record is read if each of its fields is, and a field that is there
is read by its own shape.
-/

namespace RepairLoop

/-- The reading comes to a value and takes neither names nor times. -/
def Reading.Reads {α : Type} (r : Reading α) (a : α) : Prop := ∀ s, r.run s = (.ok a, s)

namespace Reading.Reads

variable {α β : Type} {r : Reading α} {a : α}

theorem pure (a : α) : (Pure.pure a : Reading α).Reads a := fun _ => rfl

theorem seq {f : Reading (α → β)} {g : α → β} (hf : f.Reads g) (hr : r.Reads a) :
    (f <*> r).Reads (g a) := by
  intro s
  show (applyResults (f.run s).1 (r.run (f.run s).2).1, (r.run (f.run s).2).2) = _
  simp only [hf s, hr s]
  rfl

theorem map (f : α → β) (hr : r.Reads a) : (f <$> r).Reads (f a) := (pure f).seq hr

theorem seqLeft {q : Reading β} {b : β} (hr : r.Reads a) (hq : q.Reads b) : (r <* q).Reads a :=
  (hr.map (Function.const β)).seq hq

theorem under (step : Step) (hr : r.Reads a) : (Reading.under step r).Reads a := by
  intro s
  unfold Reading.under
  simp only [hr s]

theorem checked {rule : α → Option String} (hr : r.Reads a) (hrule : rule a = none) :
    (Reading.checked r rule).Reads a := by
  intro s
  unfold Reading.checked
  simp only [hr s, hrule]

theorem sequence {rs : List (Reading α)} {as : List α} (h : List.Forall₂ Reads rs as) :
    (Reading.sequence rs).Reads as := by
  induction h with
  | nil => exact pure []
  | cons hr _ ih => exact (hr.map List.cons).seq ih

/-! ## Fields -/

variable {es : Entries} {key : String} {d : Datum} {shape : Shape α}

theorem required (hfound : es.get? key = some d) (h : (shape d).Reads a) :
    (Reading.required es key shape).Reads a := by
  unfold Reading.required
  rw [hfound]
  exact h.under _

theorem field {otherwise : Reading α} (hfound : es.get? key = some d) (h : (shape d).Reads a) :
    (Reading.field es key otherwise shape).Reads a := by
  unfold Reading.field
  rw [hfound]
  exact h.under _

/-- A record is read from its own keys. -/
theorem record {keys : List String} {build : Entries → Reading α}
    (hkeys : es.map Prod.fst = keys.map Datum.text) (h : (build es).Reads a) :
    (Reading.record keys build (.map es)).Reads a := by
  have hnone : (Reading.noOthers es keys).Reads () := by
    unfold Reading.noOthers
    dsimp only
    rw [if_pos]
    · exact pure ()
    · rw [List.isEmpty_iff, List.filterMap_eq_nil_iff]
      rintro ⟨k, v⟩ hmem
      obtain ⟨s, hs, rfl⟩ := List.mem_map.1 (hkeys ▸ List.mem_map_of_mem hmem)
      simpa using hs
  exact h.seqLeft hnone

/-! ## Single values -/

theorem text (s : String) : (Schema.text (.text s)).Reads s := pure s

theorem int (n : Int) : (Schema.int (.int n)).Reads n := pure n

theorem float (x : Float) : (Schema.float (.float x)).Reads x := pure x

theorem bool (b : Bool) : (Schema.bool (.bool b)).Reads b := pure b

theorem moment (m : Moment) : (Schema.moment (.moment m)).Reads m := pure m

theorem oneOf {ofName? : String → Option α} {sort name : String} (h : ofName? name = some a) :
    (Schema.oneOf ofName? sort (.text name)).Reads a := by
  simp only [Schema.oneOf, Schema.heldText?, h]
  exact pure a

theorem floatWithin {least most x : Float} (hmost : x ≤ most) (hleast : least ≤ x) :
    (Schema.floatWithin least most (.float x)).Reads x := by
  intro s
  simp only [Schema.floatWithin, float x s]
  simp [hmost, hleast]

theorem absent : (Schema.nullable shape .null).Reads none := pure none

theorem present (hd : d ≠ .null) (h : (shape d).Reads a) :
    (Schema.nullable shape d).Reads (Option.some a) := by
  cases d with
  | null => exact absurd rfl hd
  | _ => exact h.map Option.some

/-! ## Lists -/

theorem list {ds : List Datum} {as : List α}
    (h : List.Forall₂ (fun d a => (shape d).Reads a) ds as) :
    (Schema.list shape (.list ds)).Reads as := by
  have hitems (n : Nat) : (Reading.sequence ((ds.zipIdx n).map fun p =>
      Reading.under (.position (Int.ofNat p.2)) (shape p.1))).Reads as := by
    refine sequence ?_
    induction h generalizing n with
    | nil => exact .nil
    | cons hd _ ih => exact .cons (hd.under _) (ih (n + 1))
  exact hitems 0

end Reading.Reads

/-! ## Values of JSON -/

namespace Datum

mutual

/-- A JSON value is what it was before it became data. -/
theorem toJson_ofJson : ∀ j : Json, (ofJson j).toJson = j
  | .null => rfl
  | .bool _ => rfl
  | .int _ => rfl
  | .float _ => rfl
  | .text _ => rfl
  | .list items => by rw [ofJson, toJson, toJsons_ofJsons items]
  | .object ms => by rw [ofJson, toJson, toMembers_ofMembers ms]

theorem toJsons_ofJsons : ∀ js : List Json, toJsons (ofJsons js) = js
  | [] => rfl
  | j :: js => by rw [ofJsons, toJsons, toJson_ofJson j, toJsons_ofJsons js]

theorem toMembers_ofMembers : ∀ ms : List (String × Json), toMembers (ofMembers ms) = ms
  | [] => rfl
  | (k, j) :: ms => by
    rw [ofMembers, toMembers, toJson_ofJson j, toMembers_ofMembers ms]
    rfl

end

theorem ofJsons_eq (js : List Json) : ofJsons js = js.map ofJson := by
  induction js with
  | nil => rfl
  | cons j js ih => rw [ofJsons, ih, List.map_cons]

theorem ofMembers_eq (ms : Members) : ofMembers ms = ms.map fun (k, j) => (.text k, ofJson j) := by
  induction ms with
  | nil => rfl
  | cons m ms ih =>
    obtain ⟨k, j⟩ := m
    rw [ofMembers, ih, List.map_cons]

end Datum

namespace Reading.Reads

/-- Texts that a JSON list holds. -/
theorem texts (ss : List String) :
    (Schema.list Schema.text (Datum.ofJson (Json.texts ss))).Reads ss := by
  rw [Json.texts, Datum.ofJson, Datum.ofJsons_eq]
  refine list ?_
  induction ss with
  | nil => exact .nil
  | cons s ss ih => exact .cons (text s) ih

/-- A JSON object whose values are texts. -/
theorem textMap (ms : List (String × String)) :
    (Schema.textMap (Datum.ofJson (.object (ms.map fun (k, v) => (k, .text v))))).Reads ms := by
  rw [Datum.ofJson, Datum.ofMembers_eq]
  refine sequence ?_
  induction ms with
  | nil => exact .nil
  | cons m ms ih =>
    obtain ⟨k, v⟩ := m
    exact .cons (((((text k).under _).under _).map Prod.mk).seq ((text v).under _)) ih

/-- Any JSON object. -/
theorem anyMap (ms : Members) : (Schema.anyMap (Datum.ofJson (.object ms))).Reads ms := by
  rw [Datum.ofJson, Datum.ofMembers_eq]
  refine sequence ?_
  induction ms with
  | nil => exact .nil
  | cons m ms ih =>
    obtain ⟨k, v⟩ := m
    have hkey := ((text k).under (.key "[key]")).under (keyStep (.text k))
    refine .cons ?_ ih
    show ((fun a => (a, (Datum.ofJson v).toJson)) <$> Reading.under (keyStep (.text k))
      (Reading.under (.key "[key]") (Schema.text (.text k)))).Reads (k, v)
    rw [Datum.toJson_ofJson]
    exact hkey.map fun a => (a, v)

end Reading.Reads

end RepairLoop

/-!
## Fields of a result

What a result says of its performance and of its stages is read back from their fields, and
so is the result itself, with the moment that it carries as a text
(`ValidationResult.reads_members`).
-/

namespace RepairLoop

open Reading

/-- A record is read from the members of an object that has its keys. -/
theorem Reading.Reads.members {α : Type} {keys : List String} {build : Entries → Reading α} {a : α}
    {ms : Members} (hkeys : ms.map Prod.fst = keys) (h : (build (Datum.ofMembers ms)).Reads a) :
    (Reading.record keys build (Datum.ofJson (.object ms))).Reads a := by
  refine record ?_ h
  rw [← hkeys, Datum.ofMembers_eq, List.map_map, List.map_map]
  rfl

theorem Datum.get?_ofMembers (ms : Members) (key : String) :
    Entries.get? (Datum.ofMembers ms) key = (ms.get? key).map Datum.ofJson := by
  rw [Datum.ofMembers_eq, Entries.get?, Members.get?, List.find?_map, Option.map_map,
    Option.map_map]
  rfl

/-- A member of an object is read as a field. -/
theorem Reading.Reads.member {α : Type} {a : α} {ms : Members} {key : String} {j : Json}
    {otherwise : Reading α} {shape : Shape α} (hfound : ms.get? key = some j)
    (h : (shape (Datum.ofJson j)).Reads a) :
    (Reading.field (Datum.ofMembers ms) key otherwise shape).Reads a :=
  field (by rw [Datum.get?_ofMembers, hfound]; rfl) h

theorem Reading.Reads.needed {α : Type} {a : α} {ms : Members} {key : String} {j : Json}
    {shape : Shape α} (hfound : ms.get? key = some j) (h : (shape (Datum.ofJson j)).Reads a) :
    (Reading.required (Datum.ofMembers ms) key shape).Reads a :=
  required (by rw [Datum.get?_ofMembers, hfound]; rfl) h

theorem Reading.Reads.textOrNull (s : Option String) :
    (Schema.nullable Schema.text (Datum.ofJson (Json.ofText? s))).Reads s := by
  cases s with
  | none => exact absent
  | some s => exact present (by simp [Json.ofText?, Datum.ofJson]) (text s)

theorem Reading.Reads.kindOrNull (k : Option ErrorKind) :
    (Schema.nullable (Schema.enum ErrorKind.ofName?)
      (Datum.ofJson (Patch.kindJson k))).Reads k := by
  cases k with
  | none => exact absent
  | some k =>
    exact present (by simp [Patch.kindJson, Json.ofText?, Datum.ofJson]) (oneOf k.ofName?_name)

theorem Reading.Reads.intOrNull (n : Option Int) :
    (Schema.nullable Schema.int (Datum.ofJson (PerformanceImpact.intJson n))).Reads n := by
  cases n with
  | none => exact absent
  | some n => exact present (by simp [PerformanceImpact.intJson, Datum.ofJson]) (int n)

theorem Reading.Reads.floatOrNull (x : Option Float) :
    (Schema.nullable Schema.float (Datum.ofJson (PerformanceImpact.floatJson x))).Reads x := by
  cases x with
  | none => exact absent
  | some x => exact present (by simp [PerformanceImpact.floatJson, Datum.ofJson]) (float x)

theorem PerformanceImpact.reads_json (p : PerformanceImpact) :
    (PerformanceImpact.shape (Datum.ofJson p.json)).Reads p :=
  .members rfl
    (((Reads.map _ (.member rfl (.floatOrNull _))).seq (.member rfl (.intOrNull _))).seq
      (.member rfl (.floatOrNull _)))

theorem StageResult.reads_members (r : StageResult) :
    (StageResult.shape (Datum.ofJson (.object r.members))).Reads r := by
  obtain ⟨name, passed, skipped, exitCode, durationMs, timedOut, kind, command, out, err, es,
    ws⟩ := r
  refine Reads.members rfl ?_
  unfold fields
  repeat' first
    | with_reducible refine Reads.seq ?_ ?_
    | with_reducible refine Reads.map _ ?_
  · exact .needed rfl (.oneOf name.ofName?_name)
  · exact .needed rfl (.bool _)
  · exact .member rfl (.bool _)
  · exact .member rfl (.intOrNull _)
  · exact .member rfl (.int _)
  · exact .member rfl (.bool _)
  · exact .member rfl (.kindOrNull _)
  · exact .member rfl (.textOrNull _)
  · exact .member rfl (.text _)
  · exact .member rfl (.text _)
  · exact .member rfl (.texts _)
  · exact .member rfl (.texts _)

theorem Reading.Reads.stages (rs : List StageResult) :
    (Schema.list StageResult.shape
      (Datum.ofJson (.list (rs.map fun r => .object r.members)))).Reads rs := by
  rw [Datum.ofJson, Datum.ofJsons_eq]
  refine list ?_
  induction rs with
  | nil => exact .nil
  | cons r rs ih => exact .cons r.reads_members ih

theorem Reading.Reads.wire {m : Moment} (hm : m.IsWritten) :
    (Schema.moment (.text m.wireText)).Reads m := by
  simp only [Schema.moment, Moment.ofText?_wireText hm]
  exact pure m

theorem ValidationResult.keys_members (r : ValidationResult) :
    r.members.map Prod.fst = ValidationResult.keys := rfl

/-- **A result is read back from its fields.** -/
theorem ValidationResult.reads_members {r : ValidationResult} (htime : r.timestamp.IsWritten) :
    (ValidationResult.shape (Datum.ofJson (.object r.members))).Reads r := by
  obtain ⟨id, patchId, outcome, build, test, security, performance, stages, es, ws, kind, duration,
    isolation, timestamp⟩ := r
  unfold ValidationResult.shape
  apply Reading.Reads.members
  · exact ValidationResult.keys_members _
  repeat' first
    | with_reducible refine Reads.seq ?_ ?_
    | with_reducible refine Reads.map _ ?_
  · exact .member rfl (.text _)
  · exact .needed rfl (.text _)
  · exact .member rfl (.oneOf outcome.ofName?_name)
  · exact .member rfl (.bool _)
  · exact .member rfl (.bool _)
  · exact .member rfl (.bool _)
  · exact .member rfl performance.reads_json
  · exact .member rfl (.stages _)
  · exact .member rfl (.texts _)
  · exact .member rfl (.texts _)
  · exact .member rfl (.kindOrNull _)
  · exact .member rfl (.int _)
  · exact .member rfl (.oneOf isolation.ofName?_name)
  · exact .member rfl (.wire htime)

end RepairLoop
