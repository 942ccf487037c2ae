import RepairLoop.Proofs.Json.RoundTrip
import RepairLoop.Proofs.Record.Result
import RepairLoop.Proofs.Store.Changes
import RepairLoop.Store.Table
/-!
# Rows — records are read back from their rows

A time that is kept is read back from its text, and a JSON value from the text of a column.
So an issue, a patch and a result that the store has taken are read back from the rows that
were written for them (`IssueRow.issue_of`, `PatchRow.patch_of`, `ResultRow.result_of`),
whatever names and times are left to take.
-/

namespace RepairLoop

open Reading (Reads)

/-! ## Times that are kept -/

namespace Moment

/-- The same instant in universal time. -/
def universal (m : Moment) : Moment := ⟨m.instant, some 0⟩

/-- A moment as it is kept: in universal time, in a year of at most four digits. -/
structure IsKept (m : Moment) : Prop where
  offset : m.offset = some 0
  year : isRepresentable m.reading = true

theorem isoText_ne_empty {r : Int} : isoText ⟨r, some 0⟩ ≠ "" := by
  intro h
  have hchars := congrArg String.toList h
  rw [toList_isoText] at hchars
  simp at hchars

/-- **A time that is kept is read back** from its text. -/
theorem IsKept.read {m : Moment} (h : m.IsKept) :
    Column.readTime (some m.isoText) = .ok (some m) := by
  obtain ⟨r, o⟩ := m
  obtain ⟨rfl, hyear⟩ := h
  simp only [Column.readTime, Iso.read_isoText hyear]
  rw [if_neg]
  simpa using isoText_ne_empty

theorem readOptional {m : Option Moment} (h : ∀ t, m = some t → t.IsKept) :
    Column.readTime (m.map isoText) = .ok m := by
  cases m with
  | none => rfl
  | some t => exact (h t rfl).read

end Moment

namespace Store

theorem keptTime_eq {m kept : Moment} (h : keptTime m = .ok kept) :
    kept = m.universal ∧ kept.IsKept := by
  unfold keptTime Moment.toUniversal? at h
  split at h
  · rename_i u hu
    split at hu
    · rename_i hyear
      obtain rfl := Option.some.inj hu
      obtain rfl := Except.ok.inj h
      exact ⟨rfl, rfl, hyear⟩
    · cases hu
  · cases h

theorem keptOptional_eq {m kept : Option Moment} (h : keptOptional m = .ok kept) :
    kept = m.map Moment.universal ∧ ∀ t, kept = some t → t.IsKept := by
  cases m with
  | none =>
    obtain rfl := Except.ok.inj h
    exact ⟨rfl, fun t ht => by cases ht⟩
  | some m =>
    rw [keptOptional] at h
    cases hm : keptTime m with
    | error e =>
      rw [hm] at h
      cases h
    | ok u =>
      rw [hm] at h
      obtain rfl := Except.ok.inj h
      obtain ⟨rfl, hkept⟩ := keptTime_eq hm
      exact ⟨rfl, fun t ht => Option.some.inj ht ▸ hkept⟩

end Store

/-! ## Columns -/

namespace Json

theorem areReadable_texts (ss : List String) : AreReadable (ss.map Json.text) := by
  induction ss with
  | nil => trivial
  | cons s ss ih => exact ⟨trivial, ih⟩

theorem isReadable_texts (ss : List String) : (Json.texts ss).IsReadable := areReadable_texts ss

theorem membersReadable_texts (ms : List (String × String)) :
    MembersReadable (ms.map fun (k, v) => (k, .text v)) := by
  induction ms with
  | nil => trivial
  | cons m ms ih => exact ⟨trivial, ih⟩

end Json

namespace Column

/-- **A JSON value is read back from a column**, unless it is null. -/
theorem readJson_json {j : Json} (hj : j.IsReadable) (hnull : j ≠ .null) (otherwise : Json) :
    readJson (json j) otherwise = .ok j := by
  have hparse : Json.parse (json j) = .ok j := Json.parse_render Json.Style.spaced_oneLine hj
  have hsome : (json j).isEmpty = false := by
    by_contra hempty
    rw [Bool.not_eq_false, String.isEmpty_iff] at hempty
    rw [hempty] at hparse
    cases hparse
  unfold readJson
  rw [hsome, hparse]
  cases j with
  | null => exact absurd rfl hnull
  | _ => rfl

theorem readJson_texts (ss : List String) (otherwise : Json) :
    readJson (texts ss) otherwise = .ok (Json.texts ss) :=
  readJson_json (Json.isReadable_texts ss) Json.noConfusion otherwise

theorem readWith_eq {α : Type} {shape : Shape α} {d : Datum} {a : α} (h : (shape d).Reads a)
    (supply : Supply) : readWith shape d supply = .ok a := by
  unfold readWith
  rw [h supply]

/-- **A double is the same number in a column**; zero loses its sign. -/
theorem real_beq {x : Float} (h : 0.0 ≤ x) : (real x == x) = true := by
  unfold real
  split
  · rename_i hzero
    exact PartialEquivBEq.symm hzero
  · rw [Float.beq_self_iff]
    rintro rfl
    exact absurd h (by decide +kernel)

theorem real_within {x : Float} (hleast : 0.0 ≤ x) (hmost : x ≤ 1.0) :
    0.0 ≤ real x ∧ real x ≤ 1.0 := by
  unfold real
  split
  · exact ⟨by decide +kernel, by decide +kernel⟩
  · exact ⟨hleast, hmost⟩

end Column

namespace Reading.Reads

/-- A text that may be missing, in a column. -/
theorem textColumn (s : Option String) :
    (Schema.nullable Schema.text (Column.nullable .text s)).Reads s := by
  cases s with
  | none => exact absent
  | some s => exact present Datum.noConfusion (text s)

theorem flagColumn (b : Bool) : (Schema.bool (.bool (Column.flag b != 0))).Reads b := by
  cases b with
  | false => exact bool false
  | true => exact bool true

theorem kindColumn (k : Option ErrorKind) :
    (Schema.nullable (Schema.enum ErrorKind.ofName?)
      (Column.nullable .text (k.map ErrorKind.name))).Reads k := by
  cases k with
  | none => exact absent
  | some k => exact present Datum.noConfusion (oneOf k.ofName?_name)

theorem momentColumn (m : Option Moment) :
    (Schema.nullable Schema.moment (Column.nullable .moment m)).Reads m := by
  cases m with
  | none => exact absent
  | some m => exact present Datum.noConfusion (moment m)

end Reading.Reads

/-! ## Issues -/

/-- What an issue must be to be taken for one: the names of its context are distinct, and its
metadata are values of JSON. -/
structure Issue.IsValid (i : Issue) : Prop where
  context : (i.context.map Prod.fst).Nodup
  metadata : (Json.object i.metadata).IsReadable

/-- The times of an issue are kept. -/
structure Issue.IsKept (i : Issue) : Prop where
  created : i.createdAt.IsKept
  updated : i.updatedAt.IsKept
  resolved : ∀ t, i.resolvedAt = some t → t.IsKept

theorem Issue.isReadable_textMembers {ms : List (String × String)}
    (h : (ms.map Prod.fst).Nodup) : (Issue.textMembers ms).IsReadable := by
  refine And.intro ?_ (Json.membersReadable_texts ms)
  rw [List.map_map]
  exact h

/-- **An issue is read back from its row.** -/
theorem IssueRow.issue_of {i : Issue} (hvalid : i.IsValid) (hkept : i.IsKept) (supply : Supply) :
    (IssueRow.of i).issue supply = .ok i := by
  have hcontext : Column.readJson (IssueRow.of i).context (.object []) =
      .ok (Issue.textMembers i.context) :=
    Column.readJson_json (Issue.isReadable_textMembers hvalid.context) Json.noConfusion _
  have hmetadata : Column.readJson (IssueRow.of i).metadata (.object []) =
      .ok (.object i.metadata) :=
    Column.readJson_json hvalid.metadata Json.noConfusion _
  have hcreated : Column.readTime (some (IssueRow.of i).createdAt) = .ok (some i.createdAt) :=
    hkept.created.read
  have hupdated : Column.readTime (some (IssueRow.of i).updatedAt) = .ok (some i.updatedAt) :=
    hkept.updated.read
  have hresolved : Column.readTime (IssueRow.of i).resolvedAt = .ok i.resolvedAt :=
    Moment.readOptional hkept.resolved
  unfold IssueRow.issue IssueRow.datum
  rw [hcontext, hmetadata, hcreated, hupdated, hresolved]
  refine Column.readWith_eq ?_ supply
  obtain ⟨id, path, line, column, severity, kind, message, suggestion, rule, context, status,
    metadata, created, updated, resolved⟩ := i
  unfold Issue.shape
  apply Reads.record
  · rfl
  repeat' first
    | with_reducible refine Reads.seq ?_ ?_
    | with_reducible refine Reads.map _ ?_
  · exact .field rfl (.text _)
  · exact .required rfl (.text _)
  · exact .field rfl (.int _)
  · exact .field rfl (.int _)
  · exact .field rfl (.oneOf severity.ofName?_name)
  · exact .required rfl (.oneOf kind.ofName?_name)
  · exact .required rfl (.text _)
  · exact .field rfl (.textColumn _)
  · exact .field rfl (.textColumn _)
  · exact .field rfl (.textMap _)
  · exact .field rfl (.oneOf status.ofName?_name)
  · exact .field rfl (.anyMap _)
  · exact .field rfl (.moment _)
  · exact .field rfl (.moment _)
  · exact .field rfl (.momentColumn _)

/-! ## Patches -/

/-- What a patch must be to be taken for one: it keeps the rule of applied patches, and its
scores lie between zero and one. -/
structure Patch.IsValid (p : Patch) : Prop where
  rule : p.rule = none
  confidence : 0.0 ≤ p.confidence ∧ p.confidence ≤ 1.0
  safety : 0.0 ≤ p.safetyScore ∧ p.safetyScore ≤ 1.0

/-- The times of a patch are kept. -/
structure Patch.IsKept (p : Patch) : Prop where
  created : p.createdAt.IsKept
  updated : p.updatedAt.IsKept
  applied : ∀ t, p.appliedAt = some t → t.IsKept

/-- A patch as it is read from the table: zero scores lose their sign. -/
def Patch.inColumns (p : Patch) : Patch :=
  { p with confidence := Column.real p.confidence, safetyScore := Column.real p.safetyScore }

/-- **A patch is read back from its row.** -/
theorem PatchRow.patch_of {p : Patch} (hvalid : p.IsValid) (hkept : p.IsKept) (supply : Supply) :
    (PatchRow.of p).patch supply = .ok p.inColumns := by
  have hmatches : Column.readJson (PatchRow.of p).safetyMatches (.list []) =
      .ok (Json.texts p.safetyMatches) := Column.readJson_texts _ _
  have hchanges : Column.readJson (PatchRow.of p).breakingChanges (.list []) =
      .ok (Json.texts p.breakingChanges) := Column.readJson_texts _ _
  have hdependencies : Column.readJson (PatchRow.of p).dependencies (.list []) =
      .ok (Json.texts p.dependencies) := Column.readJson_texts _ _
  have happlied : Column.readTime (PatchRow.of p).appliedAt = .ok p.appliedAt :=
    Moment.readOptional hkept.applied
  have hcreated : Column.readTime (some (PatchRow.of p).createdAt) = .ok (some p.createdAt) :=
    hkept.created.read
  have hupdated : Column.readTime (some (PatchRow.of p).updatedAt) = .ok (some p.updatedAt) :=
    hkept.updated.read
  obtain ⟨hconfidence, hconfident⟩ := Column.real_within hvalid.confidence.1 hvalid.confidence.2
  obtain ⟨hsafety, hsafe⟩ := Column.real_within hvalid.safety.1 hvalid.safety.2
  have hrule : p.inColumns.rule = none := hvalid.rule
  unfold PatchRow.patch PatchRow.datum
  rw [hmatches, hchanges, hdependencies, happlied, hcreated, hupdated]
  refine Column.readWith_eq (Reads.checked ?_ hrule) supply
  obtain ⟨id, issue, original, patched, diff, explanation, confidence, score, found, changes,
    dependencies, status, kind, review, applied, appliedAt, rolledBack, rollback, backup, commit,
    generation, created, updated⟩ := p
  unfold Patch.inColumns
  apply Reads.record
  · rfl
  repeat' first
    | with_reducible refine Reads.seq ?_ ?_
    | with_reducible refine Reads.map _ ?_
  · exact .field rfl (.text _)
  · exact .required rfl (.text _)
  · exact .field rfl (.text _)
  · exact .field rfl (.text _)
  · exact .field rfl (.text _)
  · exact .field rfl (.text _)
  · exact .field rfl (.floatWithin hconfident hconfidence)
  · exact .field rfl (.floatWithin hsafe hsafety)
  · exact .field rfl (.texts _)
  · exact .field rfl (.texts _)
  · exact .field rfl (.texts _)
  · exact .field rfl (.oneOf status.ofName?_name)
  · exact .field rfl (.kindColumn _)
  · exact .field rfl (.flagColumn _)
  · exact .field rfl (.flagColumn _)
  · exact .field rfl (.momentColumn _)
  · exact .field rfl (.flagColumn _)
  · exact .field rfl (.textColumn _)
  · exact .field rfl (.textColumn _)
  · exact .field rfl (.textColumn _)
  · exact .field rfl (.int _)
  · exact .field rfl (.moment _)
  · exact .field rfl (.moment _)

/-! ## Results -/

/-- What a result must be to be taken for one: its measures are finite, its whole numbers have
no more digits than a text may have, and its time is one that is carried in a text, as every
time that is read is (`Moment.taken_isWritten`). -/
structure ValidationResult.IsValid (r : ValidationResult) : Prop where
  timestamp : r.timestamp.IsWritten
  performance : r.performance.json.IsReadable
  stages : ∀ s ∈ r.stages, (Json.object s.members).IsReadable
  duration : (Json.int r.durationMs).IsReadable

namespace ValidationResult

theorem areReadable_stages {stages : List StageResult}
    (h : ∀ s ∈ stages, (Json.object s.members).IsReadable) :
    Json.AreReadable (stages.map fun s => .object s.members) := by
  induction stages with
  | nil => trivial
  | cons s stages ih =>
    obtain ⟨hs, hrest⟩ := List.forall_mem_cons.1 h
    exact ⟨hs, ih hrest⟩

theorem IsValid.isReadable {r : ValidationResult} (h : r.IsValid) :
    (Json.object r.members).IsReadable := by
  have hkeys : (r.members.map Prod.fst).Nodup := by
    rw [keys_members]
    decide +kernel
  have hkind : (Patch.kindJson r.errorKind).IsReadable := by
    unfold Patch.kindJson Json.ofText?
    cases r.errorKind <;> trivial
  exact ⟨hkeys, trivial, trivial, trivial, trivial, trivial, trivial, h.performance,
    areReadable_stages h.stages, Json.isReadable_texts _, Json.isReadable_texts _, hkind,
    h.duration, trivial, trivial, trivial⟩

/-- Where all measures are finite none is lost. -/
theorem IsValid.kept {r : ValidationResult} (h : r.IsValid) : Store.keptResult r = r := by
  have hfinite : ∀ x : Option Float, (PerformanceImpact.floatJson x).IsReadable →
      Store.finite x = x := by
    intro x hx
    cases x with
    | none => rfl
    | some x =>
      rw [Store.finite, Option.filter, Number.isNaN_of_isFinite hx, Number.isInf_of_isFinite hx]
      rfl
  obtain ⟨-, hcompile, -, hrun, -⟩ := h.performance
  unfold Store.keptResult
  rw [hfinite _ hcompile, hfinite _ hrun]

end ValidationResult

/-- **A result is read back from its row.** -/
theorem ResultRow.result_of {r : ValidationResult} (h : r.IsValid) (stamp : String)
    (supply : Supply) : (ResultRow.of ⟨r, stamp⟩).result supply = .ok r := by
  have hparse : Json.parse (ResultRow.of ⟨r, stamp⟩).payload = .ok (.object r.members) :=
    Json.parse_render Json.Style.plain_oneLine h.isReadable
  unfold ResultRow.result
  rw [hparse]
  exact Column.readWith_eq (ValidationResult.reads_members h.timestamp) supply

end RepairLoop

/-!
## Stamps — the texts of kept times are in order

The store orders its records, and finds the old ones, by the texts of their times. All that it
keeps is in universal time, so these texts are in the order of the instants
(`IsKept.isoText_lt_iff`), with or without a fraction, and each is read back as its instant.
`keptTime_orders` says so of any two times that can be kept, whatever their offsets.
-/

namespace RepairLoop

namespace Moment

variable {t u : Moment}

/-- The reading of a time that is kept is its instant. -/
theorem IsKept.instant (h : t.IsKept) : t.instant = t.reading := by
  rw [Moment.instant, h.offset]
  exact Int.sub_zero _

/-- **Of two times that are kept the earlier one has the smaller text.** -/
theorem IsKept.isoText_lt_iff (ht : t.IsKept) (hu : u.IsKept) :
    t.isoText < u.isoText ↔ t.instant < u.instant := by
  rw [ht.instant, hu.instant]
  obtain ⟨r, o⟩ := t
  obtain ⟨q, o'⟩ := u
  obtain ⟨rfl, hr⟩ := ht
  obtain ⟨rfl, hq⟩ := hu
  rw [← String.not_le, isoText_le_iff hq hr, Int.not_le]

/-- Times that are kept have one text only if they are one instant: neither is earlier. -/
theorem IsKept.isoText_eq_iff (ht : t.IsKept) (hu : u.IsKept) :
    t.isoText = u.isoText ↔ t.instant = u.instant := by
  have hlt := ht.isoText_lt_iff hu
  have hgt := hu.isoText_lt_iff ht
  constructor
  · intro heq
    rw [heq] at hlt hgt
    rcases Int.lt_trichotomy t.instant u.instant with h | h | h
    · exact absurd (hlt.2 h) (String.lt_irrefl _)
    · exact h
    · exact absurd (hgt.2 h) (String.lt_irrefl _)
  · intro heq
    rw [heq] at hlt hgt
    exact String.le_antisymm (String.not_lt.1 fun h => Int.lt_irrefl _ (hgt.1 h))
      (String.not_lt.1 fun h => Int.lt_irrefl _ (hlt.1 h))

/-- A time is kept as its instant if that has a year. -/
theorem keptTime_universal (h : isRepresentable t.instant = true) :
    Store.keptTime t = .ok t.universal := by
  rw [Store.keptTime, toUniversal?, if_pos h]
  rfl

theorem universal_isKept (h : isRepresentable t.instant = true) : t.universal.IsKept := ⟨rfl, h⟩

theorem instant_universal : t.universal.instant = t.instant := Int.sub_zero _

/-- What is kept is kept as it is. -/
theorem IsKept.keptTime (h : t.IsKept) : Store.keptTime t = .ok t := by
  obtain ⟨r, o⟩ := t
  obtain ⟨rfl, hyear⟩ := h
  have hinstant : Moment.instant ⟨r, some 0⟩ = r := Int.sub_zero r
  have hyear : isRepresentable r = true := hyear
  rw [Store.keptTime, toUniversal?, hinstant, if_pos hyear]

end Moment

namespace Store

open Moment (isRepresentable)

/-- **Stamps are in the order of the instants.** Two times whose instants have years, each with or
without an offset, are kept, and the text of one is smaller than, equal to or greater than that of
the other as its instant is earlier, the same or later; each text is read back as the instant, in
universal time. -/
theorem keptTime_orders {a b : Moment} (ha : isRepresentable a.instant = true)
    (hb : isRepresentable b.instant = true) :
    ∃ u v, keptTime a = .ok u ∧ keptTime b = .ok v ∧
      (stampOf u < stampOf v ↔ a.instant < b.instant) ∧
      (stampOf u = stampOf v ↔ a.instant = b.instant) ∧
      (stampOf v < stampOf u ↔ b.instant < a.instant) ∧
      Column.readTime (some (stampOf u)) = .ok (some ⟨a.instant, some 0⟩) ∧
      Column.readTime (some (stampOf v)) = .ok (some ⟨b.instant, some 0⟩) := by
  have hu := Moment.universal_isKept ha
  have hv := Moment.universal_isKept hb
  have hlt := hu.isoText_lt_iff hv
  have heq := hu.isoText_eq_iff hv
  have hgt := hv.isoText_lt_iff hu
  rw [Moment.instant_universal, Moment.instant_universal] at hlt heq hgt
  exact ⟨_, _, Moment.keptTime_universal ha, Moment.keptTime_universal hb, hlt, heq, hgt, hu.read,
    hv.read⟩

/-- The first instant of the second hour, by a clock that is two hours and half a second ahead, and
the microsecond behind it, by one that has no offset: the fraction is written for the later one
only, and its text is greater. -/
theorem keptTime_orders_fraction :
    let a : Moment := ⟨10800500000, some 7200500000⟩
    let b : Moment := ⟨3600000001, none⟩
    ∃ u v, keptTime a = .ok u ∧ keptTime b = .ok v ∧ stampOf u < stampOf v ∧
      Column.readTime (some (stampOf u)) = .ok (some ⟨3600000000, some 0⟩) ∧
      Column.readTime (some (stampOf v)) = .ok (some ⟨3600000001, some 0⟩) := by
  intro a b
  have ha : isRepresentable a.instant = true := by decide
  have hb : isRepresentable b.instant = true := by decide
  obtain ⟨u, v, hu, hv, hlt, -, -, hreadU, hreadV⟩ := keptTime_orders ha hb
  exact ⟨u, v, hu, hv, hlt.2 (by decide), hreadU, hreadV⟩

end Store

end RepairLoop
