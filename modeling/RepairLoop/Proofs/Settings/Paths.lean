import Mathlib.Data.List.Infix
import RepairLoop.Settings.Load
/-!
# Paths into mappings

A path of keys leads through mappings to a value, or misses in one of them. In a mapping
with another on top of it a key has what the two have there, one on top of the other
(`Entries.lookup?_overlay`). So at the end of a path of the mapping on top its value lies on
what is below there (`Datum.Leads.under`), and where it misses what is below is seen
(`Datum.Misses.under`).
-/

namespace RepairLoop

/-! ## Keys -/

namespace Yaml

variable {a b c k l d v w : Datum} {es : Entries}

theorem sameKey_iff : sameKey a b = true ↔ ∃ key, keyOf? a = some key ∧ keyOf? b = some key := by
  rw [sameKey, Bool.and_eq_true, beq_iff_eq, Option.isSome_iff_exists]
  constructor
  · rintro ⟨⟨key, ha⟩, hab⟩
    exact ⟨key, ha, hab ▸ ha⟩
  · rintro ⟨key, ha, hb⟩
    exact ⟨⟨key, ha⟩, ha.trans hb.symm⟩

theorem sameKey_symm (h : sameKey a b = true) : sameKey b a = true := by
  obtain ⟨key, ha, hb⟩ := sameKey_iff.1 h
  exact sameKey_iff.2 ⟨key, hb, ha⟩

theorem sameKey_trans (h : sameKey a b = true) (h' : sameKey b c = true) : sameKey a c = true := by
  obtain ⟨key, ha, hb⟩ := sameKey_iff.1 h
  obtain ⟨key', hb', hc⟩ := sameKey_iff.1 h'
  obtain rfl : key = key' := Option.some.inj (hb.symm.trans hb')
  exact sameKey_iff.2 ⟨key, ha, hc⟩

/-- The same key tells the same keys from others. -/
theorem sameKey_congr (h : sameKey a b = true) : sameKey a c = sameKey b c := by
  rw [Bool.eq_iff_iff]
  exact ⟨sameKey_trans (sameKey_symm h), sameKey_trans h⟩

theorem sameKey_text {s : String} : sameKey (.text s) a = true ↔ a = .text s := by
  rw [sameKey_iff]
  constructor
  · rintro ⟨key, hs, ha⟩
    obtain rfl : Key.text s = key := Option.some.inj hs
    cases a with
    | text t =>
      obtain rfl : t = s := Key.text.inj (Option.some.inj ha)
      rfl
    | float x =>
      simp only [keyOf?] at ha
      split at ha
      · cases ha
      · obtain ⟨r, -, hr⟩ := Option.map_eq_some_iff.1 ha
        cases hr
    | _ => cases ha
  · rintro rfl
    exact ⟨.text s, rfl, rfl⟩

theorem lookup?_cons : lookup? k ((l, w) :: es) = if sameKey l k then some w else lookup? k es :=
  rfl

/-- **A key that is set has the value**, and others have what they had. -/
theorem lookup?_putEntry : lookup? k (putEntry l v es) =
    if sameKey l k then some v else lookup? k es := by
  induction es with
  | nil => rfl
  | cons e es ih =>
    obtain ⟨m, w⟩ := e
    rw [putEntry, lookup?_cons]
    by_cases hml : sameKey m l = true
    · rw [if_pos hml, lookup?_cons, sameKey_congr hml]
      split <;> rfl
    · rw [if_neg hml, lookup?_cons, ih]
      by_cases hmk : sameKey m k = true
      · have hlk : ¬sameKey l k = true := fun hlk => hml (sameKey_trans hmk (sameKey_symm hlk))
        rw [if_pos hmk, if_neg hlk, if_pos hmk]
      · rw [if_neg hmk, if_neg hmk]

theorem lookup?_congr (h : sameKey k l = true) : lookup? k es = lookup? l es := by
  induction es with
  | nil => rfl
  | cons e es ih =>
    obtain ⟨m, w⟩ := e
    have hm : sameKey m k = sameKey m l := by
      rw [Bool.eq_iff_iff]
      exact ⟨fun hk => sameKey_trans hk h, fun hl => sameKey_trans hl (sameKey_symm h)⟩
    rw [lookup?_cons, lookup?_cons, hm, ih]

end Yaml

namespace Entries

open Yaml (sameKey lookup? putEntry)

variable {es bs : Entries} {k l v w : Datum}

theorem get?_eq (es : Entries) (key : String) : es.get? key = lookup? (.text key) es := by
  induction es with
  | nil => rfl
  | cons e es ih =>
    obtain ⟨a, w⟩ := e
    rw [Yaml.lookup?_cons, ← ih, get?, get?, List.find?_cons]
    by_cases h : sameKey a (.text key) = true
    · obtain rfl := Yaml.sameKey_text.1 (Yaml.sameKey_symm h)
      rw [if_pos h]
      simp
    · rw [if_neg h]
      cases a with
      | text s =>
        have hs : (s == key) = false := by
          rw [beq_eq_false_iff_ne]
          exact fun hs => h (Yaml.sameKey_text.2 (by rw [hs]))
        simp only [hs]
      | _ => rfl

/-- A mapping has each key once. -/
def Distinct (es : Entries) : Prop := es.Pairwise fun a b => sameKey a.1 b.1 = false

theorem Distinct.nil : Distinct [] := List.Pairwise.nil

theorem mem_putEntry {e : Datum × Datum} (h : e ∈ putEntry l v es) :
    e.1 = l ∨ ∃ f ∈ es, f.1 = e.1 := by
  induction es with
  | nil =>
    obtain rfl := List.mem_singleton.1 h
    exact .inl rfl
  | cons f es ih =>
    obtain ⟨m, w⟩ := f
    rw [putEntry] at h
    split at h
    · rcases List.mem_cons.1 h with rfl | h
      · exact .inr ⟨(m, w), List.mem_cons_self, rfl⟩
      · exact .inr ⟨e, List.mem_cons_of_mem _ h, rfl⟩
    · rcases List.mem_cons.1 h with rfl | h
      · exact .inr ⟨(m, w), List.mem_cons_self, rfl⟩
      · rcases ih h with hl | ⟨f, hf, hkey⟩
        · exact .inl hl
        · exact .inr ⟨f, List.mem_cons_of_mem _ hf, hkey⟩

theorem Distinct.put (h : Distinct es) : Distinct (putEntry l v es) := by
  induction es with
  | nil => exact List.pairwise_singleton _ _
  | cons e es ih =>
    obtain ⟨m, w⟩ := e
    obtain ⟨hm, hes⟩ := List.pairwise_cons.1 h
    rw [putEntry]
    split
    · exact List.pairwise_cons.2 ⟨hm, hes⟩
    · rename_i hml
      refine List.pairwise_cons.2 ⟨fun e he => ?_, ih hes⟩
      rcases mem_putEntry he with hl | ⟨f, hf, hkey⟩
      · simpa [hl] using hml
      · exact hkey ▸ hm f hf

theorem lookup?_of_distinct (h : Distinct ((l, w) :: es)) (hk : sameKey l k = true) :
    lookup? k es = none := by
  obtain ⟨hl, -⟩ := List.pairwise_cons.1 h
  clear h
  induction es with
  | nil => rfl
  | cons e es ih =>
    obtain ⟨m, u⟩ := e
    have hm : sameKey l m = false := hl (m, u) List.mem_cons_self
    rw [Yaml.lookup?_cons, if_neg, ih fun e he => hl e (List.mem_cons_of_mem _ he)]
    intro hmk
    rw [Yaml.sameKey_trans hk (Yaml.sameKey_symm hmk)] at hm
    cases hm

theorem overlay_cons : overlay bs ((l, w) :: es) =
    overlay (putEntry l (Datum.under (lookup? l bs) w) bs) es := by
  rw [overlay]

/-- **A mapping on top of another one** is merged with it key by key. -/
theorem lookup?_overlay (h : Distinct es) : lookup? k (overlay bs es) =
    match lookup? k es with
    | none => lookup? k bs
    | some d => some (Datum.under (lookup? k bs) d) := by
  -- the first entry is put, and no other one has its key
  induction es generalizing bs with
  | nil => rw [overlay]; rfl
  | cons e es ih =>
    obtain ⟨l, w⟩ := e
    rw [overlay_cons, ih (List.pairwise_cons.1 h).2, Yaml.lookup?_cons, Yaml.lookup?_putEntry]
    by_cases hlk : sameKey l k = true
    · rw [lookup?_of_distinct h hlk, if_pos hlk, if_pos hlk, Yaml.lookup?_congr hlk]
    · rw [if_neg hlk, if_neg hlk]

end Entries

/-! ## Paths -/

namespace Datum

open Yaml (lookup?)
open Entries (Distinct)

/-- The value at the end of a path of keys. -/
def at? : List Datum → Datum → Option Datum
  | [], d => some d
  | k :: ks, .map es => (lookup? k es).bind (at? ks)
  | _ :: _, _ => none

/-- The path leads through mappings, each of which has its keys once, to a value. -/
def Leads (v : Datum) : List Datum → Datum → Prop
  | [], d => d = v
  | k :: ks, .map es => Distinct es ∧ ∃ d, lookup? k es = some d ∧ Leads v ks d
  | _ :: _, _ => False

/-- The path leads through such mappings to one that lacks the next key. -/
def Misses : List Datum → Datum → Prop
  | [], _ => False
  | k :: ks, .map es => Distinct es ∧ ∀ d, lookup? k es = some d → Misses ks d
  | _ :: _, _ => False

variable {p q : List Datum} {above d v : Datum} {below : Option Datum} {es bs : Entries}

theorem at?_cons_map {k : Datum} : at? (k :: q) (.map es) = (lookup? k es).bind (at? q) := rfl

/-- A path that goes on is one path after another. -/
theorem at?_append (p q : List Datum) (d : Datum) :
    at? (p ++ q) d = (at? p d).bind (at? q) := by
  induction p generalizing d with
  | nil => rfl
  | cons k p ih =>
    cases d with
    | map es =>
      rw [List.cons_append, at?_cons_map, at?_cons_map]
      cases lookup? k es with
      | none => rfl
      | some e => exact ih e
    | _ => rfl

theorem Leads.at? (h : Leads v p d) : Datum.at? p d = some v := by
  induction p generalizing d with
  | nil => exact congrArg some h
  | cons k p ih =>
    cases d with
    | map es =>
      obtain ⟨-, e, he, hlead⟩ := h
      rw [at?_cons_map, he]
      exact ih hlead
    | _ => exact h.elim

/-- On the way to a value there are mappings. -/
theorem Leads.inner (h : Leads v p d) (hq : q <+: p) (hne : q ≠ p) :
    ∃ es, Datum.at? q d = some (.map es) := by
  obtain ⟨rest, rfl⟩ := hq
  have hend := h.at?
  rw [at?_append] at hend
  cases hvalue : Datum.at? q d with
  | none =>
    rw [hvalue] at hend
    cases hend
  | some e =>
    rw [hvalue] at hend
    cases rest with
    | nil => exact absurd (List.append_nil q).symm hne
    | cons k rest =>
      cases e with
      | map es => exact ⟨es, rfl⟩
      | _ => cases hend

theorem Misses.at? (h : Misses q d) : Datum.at? q d = none := by
  induction q generalizing d with
  | nil => exact h.elim
  | cons k q ih =>
    cases d with
    | map es =>
      rw [at?_cons_map]
      cases he : lookup? k es with
      | none => rfl
      | some e => exact ih (h.2 e he)
    | _ => exact h.elim

theorem under_map : under (some (.map bs)) (.map es) = .map (Entries.overlay bs es) := by
  rw [under]

/-- What lies on something else than a mapping replaces it. -/
theorem under_of_not_map (h : ∀ bs, below ≠ some (.map bs)) : under below above = above := by
  cases above with
  | map es =>
    rw [under]
    exact h
  | _ => rw [under]; simp

/-- Something else than a mapping replaces what it lies on. -/
theorem under_of_leaf (h : ∀ es, above ≠ .map es) : under below above = above := by
  cases above with
  | map es => exact absurd rfl (h es)
  | _ => rw [under]; simp

/-- Where something else than a mapping lies below, no path leads on in it. -/
theorem bind_at?_of_not_map (h : ∀ bs, below ≠ some (.map bs)) (k : Datum) (q : List Datum) :
    below.bind (at? (k :: q)) = none := by
  cases below with
  | none => rfl
  | some d =>
    cases d with
    | map bs => exact absurd rfl (h bs)
    | _ => rfl

/-- **At the end of a path** what is on top lies on what is below there. -/
theorem Leads.under (h : Leads v p above) :
    Datum.at? p (under below above) = some (Datum.under (below.bind (Datum.at? p)) v) := by
  induction p generalizing above below with
  | nil =>
    obtain rfl : above = v := h
    cases below <;> rfl
  | cons k p ih =>
    by_cases hmap : ∃ bs, below = some (.map bs)
    · obtain ⟨bs, rfl⟩ := hmap
      cases above with
      | map es =>
        obtain ⟨hdistinct, e, he, hlead⟩ := h
        rw [under_map, at?_cons_map, Entries.lookup?_overlay hdistinct, he]
        exact ih hlead
      | _ => exact h.elim
    · have hbelow : ∀ bs, below ≠ some (.map bs) := fun bs hbs => hmap ⟨bs, hbs⟩
      rw [under_of_not_map hbelow, bind_at?_of_not_map hbelow, h.at?]
      exact congrArg some (under_of_not_map fun _ hnone => by cases hnone).symm

/-- **Where what is on top lacks a key** what is below is seen. -/
theorem Misses.under (h : Misses q above) :
    Datum.at? q (under below above) = below.bind (Datum.at? q) := by
  induction q generalizing above below with
  | nil => exact h.elim
  | cons k q ih =>
    by_cases hmap : ∃ bs, below = some (.map bs)
    · obtain ⟨bs, rfl⟩ := hmap
      cases above with
      | map es =>
        obtain ⟨hdistinct, hmiss⟩ := h
        rw [under_map, at?_cons_map, Entries.lookup?_overlay hdistinct]
        cases he : lookup? k es with
        | none => rfl
        | some e => exact ih (hmiss e he)
      | _ => exact h.elim
    · have hbelow : ∀ bs, below ≠ some (.map bs) := fun bs hbs => hmap ⟨bs, hbs⟩
      rw [under_of_not_map hbelow, bind_at?_of_not_map hbelow, h.at?]

end Datum

end RepairLoop
