import RepairLoop.Proofs.Settings
import RepairLoop.Proofs.Settings.Placing
import RepairLoop.Proofs.Steps
/-!
# What variables say

The name of a variable is a path of keys. If none of the paths is on the way of another
one, then it does not matter in which order the variables come, each value stands at the
end of its path, and on top of a mapping it is found there, merged with what the mapping
has there if both are mappings; off these paths the mapping is seen
(`overridesBy_orderless`). A variable with nothing but underscores behind the prefix has no
keys and says nothing (`overrides_unnamed`).

How a document is read is a parameter.
-/

namespace RepairLoop

open Entries (Alike Distinct Holds overlay putAll)
open Datum (at?)

variable {read : String → Except Yaml.Refused Datum} {environment : List (String × String)}

theorem Diverge.keyPath {p q : List String} (h : Diverge p q) :
    Diverge (RepairLoop.keyPath p) (RepairLoop.keyPath q) := by
  have hinj : Function.Injective Datum.text := fun _ _ => Datum.text.inj
  exact ⟨fun hp => h.1 ((List.prefix_map_iff_of_injective hinj).1 hp),
    fun hq => h.2 ((List.prefix_map_iff_of_injective hinj).1 hq)⟩

/-- What a variable that holds a setting says, at the end of which path. -/
def settingBy (read : String → Except Yaml.Refused Datum) (v : String × String) :
    Option (List String × Datum) :=
  match variableKeys v.1, valueBy read v.2 with
  | k :: ks, .ok d => some (k :: ks, d)
  | _, _ => none

/-- What the variables of an environment say, one after another. -/
def saidBy (read : String → Except Yaml.Refused Datum) (environment : List (String × String)) :
    List (List String × Datum) :=
  environment.filterMap (settingBy read)

theorem settingBy_eq_some {v : String × String} {w : List String × Datum} :
    settingBy read v = some w ↔
      variableKeys v.1 = w.1 ∧ w.1 ≠ [] ∧ valueBy read v.2 = .ok w.2 := by
  obtain ⟨keys, d⟩ := w
  unfold settingBy
  constructor
  · intro h
    split at h
    · rename_i k ks e hkeys hvalue
      cases h
      exact ⟨hkeys, List.cons_ne_nil k ks, hvalue⟩
    · cases h
  · rintro ⟨hkeys, hne, hvalue⟩
    obtain ⟨k, ks, rfl⟩ := List.exists_cons_of_ne_nil hne
    rw [hkeys, hvalue]

theorem mem_saidBy {v : List String × Datum} : v ∈ saidBy read environment ↔
    ∃ w ∈ environment, variableKeys w.1 = v.1 ∧ v.1 ≠ [] ∧ valueBy read w.2 = .ok v.2 := by
  rw [saidBy, List.mem_filterMap]
  exact exists_congr fun w => and_congr_right fun _ => settingBy_eq_some

theorem valueBy_of_ok {text : String} {d : Datum} (h : read text = .ok d) :
    valueBy read text = .ok d := by
  rw [valueBy, h]

theorem valueBy_of_malformed {text : String} (h : read text = .error .malformed) :
    valueBy read text = .ok (.text text) := by
  rw [valueBy, h]

/-- The variables that hold settings have values: each text is a document or is malformed,
with no scalar that stands for no value. -/
def Readable (read : String → Except Yaml.Refused Datum)
    (environment : List (String × String)) : Prop :=
  ∀ v ∈ environment, variableKeys v.1 ≠ [] →
    (∃ d, read v.2 = .ok d) ∨ read v.2 = .error .malformed

theorem Readable.value (h : Readable read environment) {v : String × String} (hv : v ∈ environment)
    (hkeys : variableKeys v.1 ≠ []) : ∃ d, valueBy read v.2 = .ok d := by
  rcases h v hv hkeys with ⟨d, hd⟩ | hbad
  · exact ⟨d, valueBy_of_ok hd⟩
  · exact ⟨.text v.2, valueBy_of_malformed hbad⟩

/-- **An environment says what its variables say**, set one after another. -/
theorem overridesBy_eq (h : Readable read environment) :
    overridesBy read environment = .ok (putAll [] (saidBy read environment)) := by
  unfold overridesBy
  generalize ([] : Entries) = es
  induction environment generalizing es with
  | nil => rfl
  | cons v environment ih =>
    have hrest : Readable read environment := fun w hw => h w (List.mem_cons_of_mem _ hw)
    rw [List.foldlM_cons]
    cases hkeys : variableKeys v.1 with
    | nil =>
      have hsay : sayBy read es v = .ok es := by rw [sayBy, hkeys]
      have hsaid : saidBy read (v :: environment) = saidBy read environment := by
        rw [saidBy, List.filterMap_cons_none (by rw [settingBy, hkeys]), saidBy]
      rw [hsay, hsaid]
      exact ih hrest es
    | cons k ks =>
      obtain ⟨d, hd⟩ : ∃ d, valueBy read v.2 = .ok d :=
        h.value List.mem_cons_self (by rw [hkeys]; exact List.cons_ne_nil k ks)
      have hsay : sayBy read es v = .ok (Entries.putAt es (k :: ks) d) := by
        rw [sayBy, hkeys]
        dsimp only
        rw [hd]
        rfl
      have hsaid : saidBy read (v :: environment) = (k :: ks, d) :: saidBy read environment := by
        rw [saidBy, List.filterMap_cons_some (by rw [settingBy, hkeys, hd]), saidBy]
      rw [hsay, hsaid]
      exact ih hrest _

/-- Of the variables that hold settings none is on the way of another one. -/
def Scattered (environment : List (String × String)) : Prop :=
  environment.Pairwise fun v w => variableKeys v.1 ≠ [] → variableKeys w.1 ≠ [] →
    Diverge (variableKeys v.1) (variableKeys w.1)

theorem Scattered.said (h : Scattered environment) (read : String → Except Yaml.Refused Datum) :
    (saidBy read environment).Pairwise fun v w => Diverge v.1 w.1 := by
  rw [saidBy, List.pairwise_filterMap]
  refine h.imp fun {v w} hvw x hx y hy => ?_
  obtain ⟨hkeys, hne, -⟩ := settingBy_eq_some.1 hx
  obtain ⟨hkeys', hne', -⟩ := settingBy_eq_some.1 hy
  rw [hkeys, hkeys'] at hvw
  exact hvw hne hne'

theorem Scattered.holds (h : Scattered environment) (read : String → Except Yaml.Refused Datum) :
    Holds (saidBy read environment) (putAll [] (saidBy read environment)) := by
  refine Entries.holds_putAll (fun v hv => ?_) ((h.said read).imp Diverge.keyPath)
  obtain ⟨-, -, -, hne, -⟩ := mem_saidBy.1 hv
  exact hne

/-! ## Names and texts -/

/-- The keys of a name, by what is behind the prefix and how that is cut. -/
theorem variableKeys_of_splitOn {name rest : String} {parts : List String}
    (hname : name.startsWith variablePrefix = true)
    (hrest : String.ofList (name.toList.drop variablePrefix.length) = rest)
    (hparts : rest.splitOn "__" = parts) :
    variableKeys name = (parts.filter (· != "")).map Text.lowerCase := by
  rw [variableKeys, if_pos hname, hrest, hparts]

theorem load_malformed {text : String} (hnone : (Yaml.load text).toOption.isNone = true)
    (hvalue : ¬ Yaml.Valueless text) : Yaml.load text = .error .malformed := by
  cases hload : Yaml.load text with
  | ok d =>
    rw [hload] at hnone
    cases hnone
  | error f =>
    cases f with
    | malformed => rfl
    | value what message => exact absurd ⟨what, message, hload⟩ hvalue

theorem variableKeys_siblings :
    variableKeys "SELF_HEAL__A__B" = ["a", "b"] ∧ variableKeys "SELF_HEAL__A__C" = ["a", "c"] := by
  have hparts : "A__B".splitOn "__" = ["A", "B"] ∧ "A__C".splitOn "__" = ["A", "C"] := by
    constructor <;> rw [String.splitOn, if_neg (by decide +kernel)]
    all_goals
      -- a letter, the two underscores, another letter and the end
      rw [String.splitOnAux, if_neg (by decide +kernel), if_neg (by decide +kernel)]
      rw [String.splitOnAux, if_neg (by decide +kernel), if_pos (by decide +kernel),
        if_neg (by decide +kernel)]
      rw [String.splitOnAux, if_neg (by decide +kernel), if_pos (by decide +kernel),
        if_pos (by decide +kernel)]
      rw [String.splitOnAux, if_neg (by decide +kernel), if_neg (by decide +kernel)]
      rw [String.splitOnAux, if_pos (by decide +kernel)]
      decide +kernel
  constructor
  · rw [variableKeys_of_splitOn (by decide +kernel) (by decide +kernel) hparts.1]
    decide +kernel
  · rw [variableKeys_of_splitOn (by decide +kernel) (by decide +kernel) hparts.2]
    decide +kernel

/-! ## Order -/

/-- **What variables say does not depend on their order.** Each value is found at the end
of its path, and in what is said no path leads anywhere but on the way to a value or on
inside of one. On top of a mapping the values are found at the ends of their paths too, on
what the mapping has there, and a path off theirs leads where it leads in the mapping. Of
two values one replaces the other, but mappings are merged key by key. -/
theorem overridesBy_orderless (hread : Readable read environment) (h : Scattered environment) :
    ∃ said, overridesBy read environment = .ok said ∧
      (∀ environment' : List (String × String), environment'.Perm environment →
        ∃ said', overridesBy read environment' = .ok said' ∧ Alike said said') ∧
      (∀ v ∈ environment, variableKeys v.1 ≠ [] → ∃ value, valueBy read v.2 = .ok value ∧
        at? (keyPath (variableKeys v.1)) (.map said) = some value ∧
        ∀ base : Entries, at? (keyPath (variableKeys v.1)) (.map (overlay base said)) =
          some (Datum.under (at? (keyPath (variableKeys v.1)) (.map base)) value)) ∧
      (∀ q d, q ≠ [] → at? q (.map said) = some d → ∃ v ∈ environment, variableKeys v.1 ≠ [] ∧
        ((∃ value rest, valueBy read v.2 = .ok value ∧ q = keyPath (variableKeys v.1) ++ rest ∧
            at? rest value = some d) ∨
          q <+: keyPath (variableKeys v.1) ∧ q ≠ keyPath (variableKeys v.1) ∧
            ∃ inner, d = .map inner)) ∧
      (∀ (base : Entries) q,
        (∀ v ∈ environment, variableKeys v.1 ≠ [] → Diverge (keyPath (variableKeys v.1)) q) →
        at? q (.map (overlay base said)) = at? q (.map base)) ∧
      (∀ below d, (∀ es, below ≠ some (.map es)) ∨ (∀ es, d ≠ .map es) →
        Datum.under below d = d) ∧
      ∀ below above : Entries, Distinct above →
        Datum.under (some (.map below)) (.map above) = .map (overlay below above) ∧
        ∀ k, Yaml.lookup? k (overlay below above) =
          match Yaml.lookup? k above with
          | none => Yaml.lookup? k below
          | some d => some (Datum.under (Yaml.lookup? k below) d) := by
  have hholds := h.holds read
  have hvariable : ∀ v ∈ environment, variableKeys v.1 ≠ [] →
      ∃ value, valueBy read v.2 = .ok value ∧
        (variableKeys v.1, value) ∈ saidBy read environment := by
    intro v hv hkeys
    obtain ⟨value, hvalue⟩ := hread.value hv hkeys
    exact ⟨value, hvalue, mem_saidBy.2 ⟨v, hv, rfl, hkeys, hvalue⟩⟩
  refine ⟨_, overridesBy_eq hread, fun environment' hperm => ?_, fun v hv hkeys => ?_,
    fun q d hq hd => ?_, fun base q hq => ?_, fun below d hnot => ?_,
    fun below above hdistinct => ⟨Datum.under_map, fun k => Entries.lookup?_overlay hdistinct⟩⟩
  · have hread' : Readable read environment' := fun v hv => hread v (hperm.mem_iff.1 hv)
    exact ⟨_, overridesBy_eq hread', Entries.putAll_perm (hperm.symm.filterMap _) (h.said read) []⟩
  · obtain ⟨value, hvalue, hmem⟩ := hvariable v hv hkeys
    exact ⟨value, hvalue, (hholds.leads _ hmem).at?, hholds.at?_overlay hmem⟩
  · obtain ⟨v, hv, hway⟩ := hholds.at?_cases hq hd
    obtain ⟨w, hw, hkeys, hne, hvalue⟩ := mem_saidBy.1 hv
    refine ⟨w, hw, hkeys ▸ hne, ?_⟩
    rw [hkeys]
    exact hway.imp_left fun ⟨rest, hrest⟩ => ⟨v.2, rest, hvalue, hrest⟩
  · have hall : ∀ v ∈ saidBy read environment, Diverge (keyPath v.1) q := by
      intro v hv
      obtain ⟨w, hw, hkeys, hne, -⟩ := mem_saidBy.1 hv
      exact hkeys ▸ hq w hw (hkeys ▸ hne)
    by_cases hempty : q = []
    · -- then nothing is said
      have hnothing : saidBy read environment = [] := by
        refine List.eq_nil_iff_forall_not_mem.2 fun v hv => ?_
        exact absurd hempty (hall v hv).symm.ne_nil
      rw [hnothing, putAll, List.foldl_nil, overlay]
    · exact hholds.at?_overlay_of_diverge hempty hall base
  · rcases hnot with hbelow | habove
    · exact Datum.under_of_not_map hbelow
    · exact Datum.under_of_leaf habove

/-- A text, a variable that holds no setting, and a text that is no document. -/
def siblings : List (String × String) :=
  [("SELF_HEAL__A__B", "x"), ("PATH", "/bin"), ("SELF_HEAL__A__C", "[")]

theorem overridesBy_orderless_siblings : Readable Yaml.load siblings ∧ Scattered siblings ∧
    ∃ said, overrides siblings = .ok said ∧
      at? [.text "a", .text "b"] (.map said) = some (.text "x") ∧
      at? [.text "a", .text "c"] (.map said) = some (.text "[") := by
  obtain ⟨hb, hc⟩ := variableKeys_siblings
  have hpath : variableKeys "PATH" = [] := by rw [variableKeys, if_neg (by decide +kernel)]
  have hword : Yaml.load "x" = .ok (.text "x") := by
    have htext : (Yaml.load "x").toOption.any (Yaml.sameKey (.text "x")) = true := by
      decide +kernel
    obtain ⟨d, hload, hd⟩ := ok_of_any htext
    rw [hload, Yaml.sameKey_text.1 hd]
  have hbracket : Yaml.load "[" = .error .malformed :=
    load_malformed (by decide +kernel) (by decide +kernel)
  have hread : Readable Yaml.load siblings := by
    intro v hv hkeys
    simp only [siblings, List.mem_cons, List.not_mem_nil, or_false] at hv
    rcases hv with rfl | rfl | rfl
    · exact .inl ⟨_, hword⟩
    · exact absurd hpath hkeys
    · exact .inr hbracket
  have hscattered : Scattered siblings := by
    simp only [Scattered, siblings, List.pairwise_cons, List.mem_cons, List.not_mem_nil, or_false,
      forall_eq_or_imp, forall_eq, hb, hc, hpath]
    exact ⟨⟨by simp, by simp [Diverge]⟩, by simp, by simp⟩
  obtain ⟨said, hsaid, -, hvalues, -⟩ := overridesBy_orderless hread hscattered
  obtain ⟨word, hvalue, hat, -⟩ :=
    hvalues ("SELF_HEAL__A__B", "x") (by simp [siblings]) (by simp [hb])
  obtain ⟨bracket, hvalue', hat', -⟩ :=
    hvalues ("SELF_HEAL__A__C", "[") (by simp [siblings]) (by simp [hc])
  obtain rfl : word = .text "x" :=
    Except.ok.inj (hvalue.symm.trans (valueBy_of_ok hword))
  obtain rfl : bracket = .text "[" :=
    Except.ok.inj (hvalue'.symm.trans (valueBy_of_malformed hbracket))
  rw [hb] at hat
  rw [hc] at hat'
  exact ⟨hread, hscattered, said, hsaid, hat, hat'⟩

/-- The variable that is named as the prefix is: a mapping is its value, but nothing is said. -/
theorem overrides_unnamed : ∃ said value,
    overrides [("SELF_HEAL__", "llm:\n  model: x")] = .ok said ∧
      variableValue "llm:\n  model: x" = .ok value ∧
      at? (keyPath (variableKeys "SELF_HEAL__")) (.map said) ≠ some value := by
  have hparts : "".splitOn "__" = [""] := by
    rw [String.splitOn, if_neg (by decide +kernel), String.splitOnAux,
      if_pos (by decide +kernel)]
    decide +kernel
  have hkeys : variableKeys "SELF_HEAL__" = [] := by
    rw [variableKeys_of_splitOn (by decide +kernel) (by decide +kernel) hparts]
    decide +kernel
  have hload : (Yaml.load "llm:\n  model: x").toOption.any (fun d =>
      (at? [.text "llm", .text "model"] d).isSome) = true := by decide +kernel
  obtain ⟨value, hvalue, hmodel⟩ := ok_of_any hload
  have hsay : sayBy Yaml.load [] ("SELF_HEAL__", "llm:\n  model: x") = .ok [] := by
    rw [sayBy, hkeys]
  refine ⟨[], value, ?_, ?_, ?_⟩
  · rw [overrides, overridesBy, List.foldlM_cons, hsay]
    rfl
  · exact valueBy_of_ok hvalue
  · rw [hkeys]
    intro h
    obtain rfl : Datum.map [] = value := Option.some.inj h
    cases hmodel

end RepairLoop
