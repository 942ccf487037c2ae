import RepairLoop.Proofs.Text.Encoded
import RepairLoop.Settings.Load
import RepairLoop.Settings.Sections
/-!
# Settings — what settings that are read are known to keep

A reading gives values of a kind if all of its values are of it (`Reading.Gives`); for a
record it is enough that one field does, if the others do not matter. So bounds that a
shape puts on a field hold of every settings that were read.

Loading settings is meant to end with settings or with a refusal of the configuration.
It does, unless the file holds bytes that are no text, or the file or a variable a scalar
that stands for no value (`Settings.load_cases`).
-/

namespace RepairLoop

/-! ## Readings -/

/-- What is read is of a kind, whatever names and times are left. -/
def Reading.Gives {α : Type} (Q : α → Prop) (r : Reading α) : Prop :=
  ∀ s a, (r.run s).1 = .ok a → Q a

namespace Reading.Gives

variable {α β : Type} {P : α → Prop} {Q : β → Prop}

theorem any {r : Reading α} : r.Gives fun _ => True := fun _ _ _ => trivial

/-- **A field gives what its shape gives**, or what is taken where it is missing. -/
theorem field {es : Entries} {key : String} {otherwise : Reading α} {shape : Shape α}
    (hother : otherwise.Gives P) (hshape : ∀ d, (shape d).Gives P) :
    (Reading.field es key otherwise shape).Gives P := by
  unfold Reading.field
  split
  · rename_i d hd
    intro s a h
    rw [under] at h
    simp only at h
    split at h
    · rename_i b s' hrun
      cases h
      exact hshape d s a (congrArg Prod.fst hrun)
    · cases h
  · exact hother

/-- A reading of a function and one of a value for it. -/
theorem seq {f : Reading (α → β)} {x : Reading α} (hf : f.Gives fun g => ∀ a, P a → Q (g a))
    (hx : x.Gives P) : (f <*> x).Gives Q := by
  intro s b h
  show Q b
  have happly : Reading.applyResults (f.run s).1 (x.run (f.run s).2).1 = .ok b := h
  cases hg : (f.run s).1 with
  | error ps => cases ha : (x.run (f.run s).2).1 <;> rw [hg, ha] at happly <;> cases happly
  | ok g =>
    cases ha : (x.run (f.run s).2).1 with
    | error ps =>
      rw [hg, ha] at happly
      cases happly
    | ok a =>
      rw [hg, ha] at happly
      obtain rfl := Except.ok.inj happly
      exact hf s g hg a (hx _ a ha)

theorem map {g : α → β} {x : Reading α} (hx : x.Gives P) (h : ∀ a, P a → Q (g a)) :
    (g <$> x).Gives Q :=
  seq (f := Pure.pure g) (fun _ _ hg => by cases hg; exact h) hx

/-- Another value for it says nothing about the function. -/
theorem seq_any {f : Reading (α → β)} {x : Reading α} (hf : f.Gives fun g => ∀ a, Q (g a)) :
    (f <*> x).Gives Q :=
  seq (P := fun _ => True) (fun s g hg a _ => hf s g hg a) any

/-- **A record gives what it is built of.** -/
theorem record {keys : List String} {build : Entries → Reading α} (h : ∀ es, (build es).Gives P)
    (d : Datum) : (Reading.record keys build d).Gives P := by
  cases d with
  | map es =>
    show (Function.const Unit <$> build es <*> noOthers es keys).Gives P
    exact seq_any (map (h es) fun _ ha _ => ha)
  | _ => exact fun _ _ h => by cases h

end Reading.Gives

/-! ## Bounds -/

theorem Schema.intAtLeast_gives (least : Int) (d : Datum) :
    (Schema.intAtLeast least d).Gives fun n => least ≤ n := by
  intro s n h
  cases hread : (int d).run s with
  | mk r s' =>
    rw [intAtLeast] at h
    simp only [hread] at h
    cases r with
    | error ps => cases h
    | ok m =>
      simp only at h
      split at h
      · cases h
      · cases h
        omega

/-- **Settings that are read allow at least one attempt.** -/
theorem ValidationSettings.one_le_maxAttempts {d : Datum} {settings : ValidationSettings}
    {s : Supply} (h : ((ValidationSettings.shape d).run s).1 = .ok settings) :
    1 ≤ settings.maxAttempts := by
  have hshape : (ValidationSettings.shape d).Gives fun v => 1 ≤ v.maxAttempts := by
    refine .record (fun es => ?_) d
    have hattempts : (Reading.field es "max_attempts" (pure usual.maxAttempts)
        (Schema.intAtLeast 1)).Gives fun n => 1 ≤ n := by
      refine .field (fun s n hn => ?_) (Schema.intAtLeast_gives 1)
      cases hn
      decide
    -- the fields in front of it and behind it may be any
    refine .seq_any <| .seq_any <| .seq_any <| .seq_any <| .seq ?_ hattempts
    iterate 10 refine .seq_any ?_
    exact .map .any fun _ _ _ _ _ _ _ _ _ _ _ _ n hn _ _ _ _ => hn
  exact hshape s settings h

/-! ## Loading -/

/-- A text is cut into the nodes of a document, but a scalar of it stands for no value. -/
def Yaml.Valueless (text : String) : Prop :=
  ∃ what message, Yaml.load text = .error (.value what message)

instance (text : String) : Decidable (Yaml.Valueless text) :=
  match h : Yaml.load text with
  | .error (.value what message) => isTrue ⟨what, message, h⟩
  | .ok _ => isFalse (by rintro ⟨what, message, hvalue⟩; cases h.symm.trans hvalue)
  | .error .malformed => isFalse (by rintro ⟨what, message, hvalue⟩; cases h.symm.trans hvalue)

/-- What is asked for was made, or what was given is refused as a configuration. -/
def Answers {α : Type} (r : Except Fault α) : Prop :=
  (∃ a, r = .ok a) ∨ ∃ message details, r = .error (.refuse .configuration message details)

/-- A mishap of any kind. -/
def Strays {α : Type} (r : Except Fault α) : Prop :=
  ∃ what message, r = .error (.mishap what message)

section

variable {α β : Type}

/-- A mishap is no refusal. -/
theorem Strays.not_answers {r : Except Fault α} (h : Strays r) : ¬ Answers r := by
  obtain ⟨what, message, rfl⟩ := h
  rintro (⟨a, h⟩ | ⟨message', details, h⟩) <;> cases h

theorem strays_bind {x : Except Fault α} {f : α → Except Fault β} (h : Strays x) :
    Strays (x >>= f) := by
  obtain ⟨what, message, rfl⟩ := h
  exact ⟨what, message, rfl⟩

end

/-- **The value of a variable is a document or a text, unless a scalar of it stands for
none.** -/
theorem variableValue_cases (text : String) :
    (∃ d, variableValue text = .ok d) ∧ ¬ Yaml.Valueless text ∨
      Strays (variableValue text) ∧ Yaml.Valueless text := by
  unfold variableValue valueBy Yaml.Valueless
  cases hload : Yaml.load text with
  | ok d => exact .inl ⟨⟨d, rfl⟩, by rintro ⟨what, message, h⟩; cases h⟩
  | error e =>
    cases e with
    | malformed => exact .inl ⟨⟨_, rfl⟩, by rintro ⟨what, message, h⟩; cases h⟩
    | value what message => exact .inr ⟨⟨what, message, rfl⟩, what, message, rfl⟩

/-- A variable holds a setting, and its text a scalar that stands for no value. -/
def HoldsNone (v : String × String) : Prop :=
  variableKeys v.1 ≠ [] ∧ Yaml.Valueless v.2

theorem say_cases (es : Entries) (v : String × String) :
    (∃ es', sayBy Yaml.load es v = .ok es') ∧ ¬ HoldsNone v ∨
      Strays (sayBy Yaml.load es v) ∧ HoldsNone v := by
  unfold sayBy HoldsNone
  cases variableKeys v.1 with
  | nil => exact .inl ⟨⟨es, rfl⟩, fun h => h.1 rfl⟩
  | cons k ks =>
    rcases variableValue_cases v.2 with ⟨⟨d, hd⟩, hvalue⟩ | ⟨hstray, hnone⟩
    · rw [variableValue] at hd
      dsimp only
      rw [hd]
      exact .inl ⟨⟨_, rfl⟩, fun h => hvalue h.2⟩
    · exact .inr ⟨strays_bind hstray, List.cons_ne_nil k ks, hnone⟩

/-- **An environment says something, unless a variable of it holds none.** The variables
are read one after another, each into what those in front of it said. -/
theorem overrides_cases (environment : List (String × String)) :
    (∃ es, overrides environment = .ok es) ∧ (∀ v ∈ environment, ¬ HoldsNone v) ∨
      Strays (overrides environment) ∧ ∃ v ∈ environment, HoldsNone v := by
  unfold overrides overridesBy
  generalize ([] : Entries) = said
  induction environment generalizing said with
  | nil => exact .inl ⟨⟨said, rfl⟩, by simp⟩
  | cons v environment ih =>
    rw [List.foldlM_cons]
    rcases say_cases said v with ⟨⟨es, hes⟩, hnot⟩ | ⟨hstray, hnone⟩
    · rw [hes]
      rcases ih es with ⟨hok, hrest⟩ | ⟨hstray, w, hw, hnone⟩
      · exact .inl ⟨hok, List.forall_mem_cons.2 ⟨hnot, hrest⟩⟩
      · exact .inr ⟨hstray, w, List.mem_cons_of_mem _ hw, hnone⟩
    · exact .inr ⟨strays_bind hstray, v, List.mem_cons_self, hnone⟩

namespace Settings

/-- The entries that the content of a file writes. -/
def readFile (path : String) (content : ByteArray) : Except Fault Entries :=
  match Text.decode content with
  | .error f => .error (.mishap .undecodable f.message)
  | .ok text => readDocument path (String.ofList (Text.unifyFeeds text.toList))

/-- The bytes of a file hold no text, or one with a scalar that stands for no value. -/
def Illegible (content : ByteArray) : Prop :=
  (∃ f, Text.decode content = .error f) ∨
    ∃ text, Text.decode content = .ok text ∧
      Yaml.Valueless (String.ofList (Text.unifyFeeds text.toList))

theorem readDocument_cases (path text : String) :
    Answers (readDocument path text) ∧ ¬ Yaml.Valueless text ∨
      Strays (readDocument path text) ∧ Yaml.Valueless text := by
  unfold readDocument Yaml.Valueless
  split
  · exact .inl ⟨.inl ⟨_, rfl⟩, by simp [*]⟩
  · exact .inl ⟨.inl ⟨_, rfl⟩, by simp [*]⟩
  · exact .inl ⟨.inr ⟨_, _, rfl⟩, by simp [*]⟩
  · exact .inl ⟨.inr ⟨_, _, rfl⟩, by simp [*]⟩
  · exact .inr ⟨⟨_, _, rfl⟩, _, _, by assumption⟩

/-- **A file writes entries or is refused, unless it is illegible.** -/
theorem readFile_cases (path : String) (content : ByteArray) :
    Answers (readFile path content) ∧ ¬ Illegible content ∨
      Strays (readFile path content) ∧ Illegible content := by
  unfold readFile Illegible
  cases hdecode : Text.decode content with
  | error f => exact .inr ⟨⟨_, _, rfl⟩, .inl ⟨f, rfl⟩⟩
  | ok text => simpa using readDocument_cases path (String.ofList (Text.unifyFeeds text.toList))

/-- What is read before the variables. -/
def readBelow : Option (String × ByteArray) → Except Fault Entries
  | none => .ok []
  | some (path, content) => readFile path content

theorem load_eq (document : Option (String × ByteArray)) (environment : List (String × String)) :
    load document environment = (do
      let below ← readBelow document
      let above ← overrides environment
      ofEntries (Entries.overlay below above)) := by
  rcases document with _ | ⟨path, content⟩
  · rfl
  · rw [load, readBelow, readFile]
    cases Text.decode content <;> rfl

theorem ofEntries_answers (es : Entries) : Answers (ofEntries es) := by
  unfold ofEntries
  split
  · exact .inl ⟨_, rfl⟩
  · exact .inr ⟨_, _, rfl⟩

section

variable {document : Option (String × ByteArray)} {environment : List (String × String)}

theorem load_strays_of_illegible {path : String} {content : ByteArray}
    (environment : List (String × String)) (h : Illegible content) :
    Strays (load (some (path, content)) environment) := by
  rw [load_eq]
  rcases readFile_cases path content with ⟨-, hlegible⟩ | ⟨hstray, -⟩
  · exact absurd h hlegible
  · exact strays_bind hstray

theorem load_strays_of_holdsNone {below : Entries} (hbelow : readBelow document = .ok below)
    {v : String × String} (hv : v ∈ environment) (h : HoldsNone v) :
    Strays (load document environment) := by
  rw [load_eq, hbelow]
  rcases overrides_cases environment with ⟨-, hnone⟩ | ⟨hstray, -⟩
  · exact absurd h (hnone v hv)
  · exact strays_bind (f := fun above => ofEntries (Entries.overlay below above)) hstray

/-- A file that is refused hides what the variables hold. -/
theorem load_answers (hfile : ∀ file ∈ document, ¬ Illegible file.2)
    (hvariables : (∃ below, readBelow document = .ok below) → ∀ v ∈ environment, ¬ HoldsNone v) :
    Answers (load document environment) := by
  have hbelow : Answers (readBelow document) := by
    rcases document with _ | ⟨path, content⟩
    · exact .inl ⟨[], rfl⟩
    · rcases readFile_cases path content with ⟨hanswer, -⟩ | ⟨-, hillegible⟩
      · exact hanswer
      · exact absurd hillegible (hfile _ rfl)
  rw [load_eq]
  -- where the file is refused the variables are not read
  rcases hbelow with ⟨below, hbelow⟩ | ⟨message, details, hbelow⟩
  · rw [hbelow]
    rcases overrides_cases environment with ⟨⟨above, habove⟩, -⟩ | ⟨-, v, hv, hnone⟩
    · rw [habove]
      exact ofEntries_answers _
    · exact absurd hnone (hvariables ⟨below, hbelow⟩ v hv)
  · rw [hbelow]
    exact .inr ⟨message, details, rfl⟩

end

/-- **Loading ends with settings, with a refusal of the configuration, or with a mishap,
and with a mishap exactly where the file is illegible, or where it is not refused and a
variable holds a scalar that stands for no value.** -/
theorem load_cases (document : Option (String × ByteArray))
    (environment : List (String × String)) :
    (Answers (load document environment) ∨ Strays (load document environment)) ∧
      (Answers (load document environment) ↔
        (∀ file ∈ document, ¬ Illegible file.2) ∧
          ((∃ below, readBelow document = .ok below) →
            ∀ v ∈ environment, ¬ HoldsNone v)) := by
  by_cases hfile : ∀ file ∈ document, ¬ Illegible file.2
  · by_cases hvariables : (∃ below, readBelow document = .ok below) →
        ∀ v ∈ environment, ¬ HoldsNone v
    · have hanswers := load_answers hfile hvariables
      exact ⟨.inl hanswers, iff_of_true hanswers ⟨hfile, hvariables⟩⟩
    · have hstrays : Strays (load document environment) := by
        simp only [Classical.not_imp, Classical.not_forall, Classical.not_not] at hvariables
        obtain ⟨⟨below, hbelow⟩, v, hv, hnone⟩ := hvariables
        exact load_strays_of_holdsNone hbelow hv hnone
      exact ⟨.inr hstrays, iff_of_false hstrays.not_answers fun h => hvariables h.2⟩
  · have hstrays : Strays (load document environment) := by
      simp only [Classical.not_forall, Classical.not_not] at hfile
      obtain ⟨⟨path, content⟩, rfl, hillegible⟩ := hfile
      exact load_strays_of_illegible environment hillegible
    exact ⟨.inr hstrays, iff_of_false hstrays.not_answers fun h => hfile h.1⟩

/-- A byte that starts no character, a date in a thirteenth month in the file, and one in
a variable. -/
theorem load_strays :
    ¬ Answers (load (some ("selfheal.yaml", ⟨#[0xff]⟩)) []) ∧
      ¬ Answers (load (some ("selfheal.yaml", "git:\n  author_name: 2024-13-01\n".toUTF8)) []) ∧
      ¬ Answers (load none [("SELF_HEAL__A", "2024-13-01")]) := by
  refine ⟨?byte, ?file, ?setting⟩
  case byte =>
    have hnone : String.fromUTF8? ⟨#[0xff]⟩ = none := by decide +kernel
    refine (load_strays_of_illegible [] (.inl ?_)).not_answers
    rw [Text.decode, hnone]
    exact ⟨_, rfl⟩
  case file =>
    refine (load_strays_of_illegible [] (.inr ⟨_, Text.decode_toUTF8 _, ?_⟩)).not_answers
    decide +kernel
  case setting =>
    have hsplit : "A".splitOn "__" = ["A"] := by
      rw [String.splitOn, if_neg (by decide +kernel), String.splitOnAux,
        if_neg (by decide +kernel), if_neg (by decide +kernel), String.splitOnAux,
        if_pos (by decide +kernel)]
      decide +kernel
    have hkey : String.ofList ("SELF_HEAL__A".toList.drop variablePrefix.length) = "A" := by
      decide +kernel
    have hkeys : variableKeys "SELF_HEAL__A" ≠ [] := by
      rw [variableKeys, if_pos (by decide +kernel), hkey, hsplit]
      decide +kernel
    have hnone : Yaml.Valueless "2024-13-01" := by decide +kernel
    have hholds : HoldsNone ("SELF_HEAL__A", "2024-13-01") := ⟨hkeys, hnone⟩
    have hbelow : readBelow none = .ok [] := rfl
    exact (load_strays_of_holdsNone hbelow List.mem_cons_self hholds).not_answers

end Settings

end RepairLoop
