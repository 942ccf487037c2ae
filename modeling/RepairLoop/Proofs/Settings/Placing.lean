import RepairLoop.Proofs.Settings.Paths
/-!
# Values at the ends of paths

A value is set at the end of a path of text keys, and on the way there whatever is no
mapping becomes one. So a later value may hide an earlier one, but not where the paths
diverge: then each value stands at the end of its path, whatever other path there is
leads nowhere (`Entries.holds_putAll`), and in which order the values are set tells only
in which order the entries stand (`Entries.putAll_perm`).
-/

namespace RepairLoop

open Yaml (sameKey lookup? putEntry)

/-- None of two paths leads through the end of the other. -/
def Diverge {α : Type} (p q : List α) : Prop := ¬p <+: q ∧ ¬q <+: p

theorem Diverge.symm {α : Type} {p q : List α} (h : Diverge p q) : Diverge q p := ⟨h.2, h.1⟩

theorem Diverge.cons {α : Type} {a : α} {p q : List α} (h : Diverge (a :: p) (a :: q)) :
    Diverge p q :=
  ⟨fun hp => h.1 (List.cons_prefix_cons.2 ⟨rfl, hp⟩),
    fun hq => h.2 (List.cons_prefix_cons.2 ⟨rfl, hq⟩)⟩

theorem Diverge.ne_nil {α : Type} {p q : List α} (h : Diverge p q) : p ≠ [] := by
  rintro rfl
  exact h.1 List.nil_prefix

/-- A path of text keys. -/
def keyPath (ks : List String) : List Datum := ks.map .text

theorem keyPath_ne_nil {ks : List String} (h : ks ≠ []) : keyPath ks ≠ [] := by
  simpa [keyPath] using h

namespace Entries

open Datum (at? Leads Misses)

variable {es es' : Entries} {k : String} {ks p : List String} {q : List Datum} {d v : Datum}

/-- The mapping that is gone into at a key: an empty one where there is none. -/
def inside (es : Entries) (k : String) : Entries :=
  match es.get? k with
  | some (.map inner) => inner
  | _ => []

/-- What is set at a key for the sake of a path that starts with it. -/
def placed (es : Entries) (k : String) (ks : List String) (d : Datum) : Datum :=
  match ks with
  | [] => d
  | ks => .map ((inside es k).putAt ks d)

theorem putAt_cons (es : Entries) (k : String) (ks : List String) (d : Datum) :
    es.putAt (k :: ks) d = putEntry (.text k) (placed es k ks d) es := by
  cases ks with
  | nil => rw [putAt]; rfl
  | cons l ks => rw [putAt]; rfl; simp

theorem placed_cons {l : String} :
    placed es k (l :: ks) d = .map ((inside es k).putAt (l :: ks) d) :=
  rfl

theorem lookup?_putAt {l : Datum} : lookup? l (es.putAt (k :: ks) d) =
    if sameKey (.text k) l then some (placed es k ks d) else lookup? l es := by
  rw [putAt_cons, Yaml.lookup?_putEntry]

theorem lookup?_putAt_self :
    lookup? (.text k) (es.putAt (k :: ks) d) = some (placed es k ks d) := by
  rw [lookup?_putAt, if_pos (Yaml.sameKey_text.2 rfl)]

theorem lookup?_putAt_of_ne {l : Datum} (h : l ≠ .text k) :
    lookup? l (es.putAt (k :: ks) d) = lookup? l es := by
  rw [lookup?_putAt, if_neg (mt Yaml.sameKey_text.1 h)]

theorem Distinct.putAt (h : Distinct es) : Distinct (es.putAt ks d) := by
  cases ks with
  | nil => exact h
  | cons k ks => exact putAt_cons es k ks d ▸ h.put

theorem inside_of_lookup? {inner : Entries} (h : lookup? (.text k) es = some (.map inner)) :
    inside es k = inner := by
  rw [inside, get?_eq, h]

theorem inside_of_none (h : lookup? (.text k) es = none) : inside es k = [] := by
  rw [inside, get?_eq, h]

/-- In an empty mapping every path misses. -/
theorem misses_nil (h : q ≠ []) : Misses q (.map []) := by
  cases q with
  | nil => exact absurd rfl h
  | cons l q => exact ⟨.nil, fun d hd => by cases hd⟩

/-- Where a path misses, it misses in the mapping that is gone into. -/
theorem misses_inside (h : Misses (.text k :: q) (.map es)) (hq : q ≠ []) :
    Misses q (.map (inside es k)) := by
  cases he : lookup? (.text k) es with
  | none =>
    rw [inside_of_none he]
    exact misses_nil hq
  | some d =>
    have hmiss := h.2 d he
    cases d with
    | map inner => rwa [inside_of_lookup? he]
    | _ =>
      cases q with
      | nil => exact absurd rfl hq
      | cons l q => exact hmiss.elim

/-- **A path that missed leads to the value that is set at its end.** -/
theorem leads_putAt (h : Misses (keyPath p) (.map es)) :
    Leads v (keyPath p) (.map (es.putAt p v)) := by
  -- along the path: the rest of it misses in the mapping that is gone into
  induction p generalizing es with
  | nil => exact h.elim
  | cons k ks ih =>
    refine ⟨h.1.putAt, _, lookup?_putAt_self, ?_⟩
    cases ks with
    | nil => rfl
    | cons l ks => exact ih (misses_inside h (List.cons_ne_nil _ _))

/-- **What another path leads to stays.** -/
theorem leads_putAt_of_diverge (h : Leads v q (.map es)) (hp : Diverge (keyPath p) q) :
    Leads v q (.map (es.putAt p d)) := by
  -- along both paths, up to the key at which they part
  induction p generalizing es q with
  | nil => exact absurd rfl hp.ne_nil
  | cons k ks ih =>
    cases q with
    | nil => exact absurd rfl hp.symm.ne_nil
    | cons l q =>
      obtain ⟨hdistinct, e, he, hlead⟩ := h
      by_cases hl : l = .text k
      · subst hl
        have hrest : Diverge (keyPath ks) q := hp.cons
        refine ⟨hdistinct.putAt, _, lookup?_putAt_self, ?_⟩
        cases ks with
        | nil => exact absurd rfl hrest.ne_nil
        | cons m ks =>
          rw [placed_cons]
          cases q with
          | nil => exact absurd rfl hrest.symm.ne_nil
          | cons n q =>
            cases e with
            | map inner =>
              rw [inside_of_lookup? he]
              exact ih hlead hrest
            | _ => exact hlead.elim
      · exact ⟨hdistinct.putAt, e, (lookup?_putAt_of_ne hl).trans he, hlead⟩

/-- **Where another path misses it goes on missing.** -/
theorem misses_putAt_of_diverge (h : Misses q (.map es)) (hp : Diverge (keyPath p) q) :
    Misses q (.map (es.putAt p d)) := by
  induction p generalizing es q with
  | nil => exact absurd rfl hp.ne_nil
  | cons k ks ih =>
    cases q with
    | nil => exact absurd rfl hp.symm.ne_nil
    | cons l q =>
      by_cases hl : l = .text k
      · subst hl
        have hrest : Diverge (keyPath ks) q := hp.cons
        refine ⟨h.1.putAt, fun e he => ?_⟩
        obtain rfl := Option.some.inj (lookup?_putAt_self.symm.trans he)
        cases ks with
        | nil => exact absurd rfl hrest.ne_nil
        | cons m ks => exact ih (misses_inside h hrest.symm.ne_nil) hrest
      · refine ⟨h.1.putAt, fun e he => ?_⟩
        exact h.2 e ((lookup?_putAt_of_ne hl).symm.trans he)

/-! ## Setting many values -/

/-- The values at the ends of some paths, set one after another. -/
def putAll (es : Entries) (vs : List (List String × Datum)) : Entries :=
  vs.foldl (fun es v => es.putAt v.1 v.2) es

/-- The values stand at the ends of their paths, and whatever other path has no part of them
misses. -/
structure Holds (vs : List (List String × Datum)) (es : Entries) : Prop where
  leads : ∀ v ∈ vs, Leads v.2 (keyPath v.1) (.map es)
  others : ∀ q, q ≠ [] → (∀ v ∈ vs, Diverge (keyPath v.1) q) → Misses q (.map es)

variable {vs vs' : List (List String × Datum)} {w : List String × Datum}

theorem Holds.putAt (h : Holds vs es) (hw : w.1 ≠ [])
    (hdiverge : ∀ v ∈ vs, Diverge (keyPath v.1) (keyPath w.1)) :
    Holds (vs ++ [w]) (es.putAt w.1 w.2) := by
  refine ⟨fun v hv => ?_, fun q hq hall => ?_⟩
  · rcases List.mem_append.1 hv with hv | hv
    · exact leads_putAt_of_diverge (h.leads v hv) (hdiverge v hv).symm
    · obtain rfl := List.mem_singleton.1 hv
      exact leads_putAt (h.others _ (keyPath_ne_nil hw) hdiverge)
  · exact misses_putAt_of_diverge (h.others q hq fun v hv => hall v (List.mem_append_left _ hv))
      (hall w (List.mem_append_right _ (List.mem_singleton_self w)))

/-- **Values on diverging paths** all stand at the ends of these. -/
theorem holds_putAll (hnamed : ∀ v ∈ vs, v.1 ≠ [])
    (hdiverge : vs.Pairwise fun v w => Diverge (keyPath v.1) (keyPath w.1)) :
    Holds vs (putAll [] vs) := by
  induction vs using List.reverseRecOn with
  | nil => exact ⟨fun v hv => (by cases hv), fun q hq _ => misses_nil hq⟩
  | append_singleton vs w ih =>
    obtain ⟨hvs, -, hlast⟩ := List.pairwise_append.1 hdiverge
    have hall : Holds vs (putAll [] vs) := ih (fun v hv => hnamed v (List.mem_append_left _ hv)) hvs
    have hw : w ∈ [w] := List.mem_singleton_self w
    rw [putAll, List.foldl_append]
    exact hall.putAt (hnamed w (List.mem_append_right _ hw)) fun v hv => hlast v hv w hw

/-- **What is on the way to a value or inside of one** is all there is. -/
theorem Holds.at?_cases (h : Holds vs es) (hq : q ≠ []) (hd : at? q (.map es) = some d) :
    ∃ v ∈ vs, (∃ rest, q = keyPath v.1 ++ rest ∧ at? rest v.2 = some d) ∨
      q <+: keyPath v.1 ∧ q ≠ keyPath v.1 ∧ ∃ inner, d = .map inner := by
  obtain ⟨v, hv, hmeet⟩ : ∃ v ∈ vs, ¬Diverge (keyPath v.1) q := by
    by_contra hnone
    have hmiss := h.others q hq fun v hv => by_contra fun hmeet => hnone ⟨v, hv, hmeet⟩
    rw [hmiss.at?] at hd
    cases hd
  have hlead := h.leads v hv
  refine ⟨v, hv, ?_⟩
  by_cases hlong : keyPath v.1 <+: q
  · obtain ⟨rest, rfl⟩ := hlong
    rw [Datum.at?_append, hlead.at?] at hd
    exact .inl ⟨rest, rfl, hd⟩
  · have hshort : q <+: keyPath v.1 := by
      by_contra hshort
      exact hmeet ⟨hlong, hshort⟩
    have hproper : q ≠ keyPath v.1 := by
      rintro rfl
      exact hlong (List.prefix_refl _)
    obtain ⟨inner, hinner⟩ := hlead.inner hshort hproper
    exact .inr ⟨hshort, hproper, inner, Option.some.inj (hd.symm.trans hinner)⟩

/-- On top of a mapping each value lies on what the mapping has at the end of its path. -/
theorem Holds.at?_overlay (h : Holds vs es) (hw : w ∈ vs) (base : Entries) :
    at? (keyPath w.1) (.map (overlay base es)) =
      some (Datum.under (at? (keyPath w.1) (.map base)) w.2) := by
  rw [← Datum.under_map, (h.leads w hw).under]
  rfl

/-- Off the paths of the values the mapping below is seen. -/
theorem Holds.at?_overlay_of_diverge (h : Holds vs es) (hq : q ≠ [])
    (hdiverge : ∀ v ∈ vs, Diverge (keyPath v.1) q) (base : Entries) :
    at? q (.map (overlay base es)) = at? q (.map base) := by
  rw [← Datum.under_map, (h.others q hq hdiverge).under]
  rfl

/-! ## Order -/

/-- The same entries in another order, at any depth. -/
inductive Alike : Entries → Entries → Prop
  | nil : Alike [] []
  | cons {es es' : Entries} (e : Datum × Datum) (h : Alike es es') : Alike (e :: es) (e :: es')
  | inner {es es' inner inner' : Entries} (k : Datum) (hinner : Alike inner inner')
      (h : Alike es es') : Alike ((k, .map inner) :: es) ((k, .map inner') :: es')
  | swap (e f : Datum × Datum) (es : Entries) (h : sameKey e.1 f.1 = false) :
      Alike (e :: f :: es) (f :: e :: es)
  | trans {es es' es'' : Entries} (h : Alike es es') (h' : Alike es' es'') : Alike es es''

theorem Alike.refl (es : Entries) : Alike es es := by
  induction es with
  | nil => exact .nil
  | cons e es ih => exact .cons e ih

/-- The same value, or mappings with the same entries in another order. -/
inductive AlikeAt : Datum → Datum → Prop
  | refl (d : Datum) : AlikeAt d d
  | map {es es' : Entries} (h : Alike es es') : AlikeAt (.map es) (.map es')

theorem AlikeAt.cons {d d' : Datum} (l : Datum) (hd : AlikeAt d d') (h : Alike es es') :
    Alike ((l, d) :: es) ((l, d') :: es') := by
  cases hd with
  | refl => exact .cons _ h
  | map hinner => exact .inner l hinner h

theorem AlikeAt.put_self {d d' l : Datum} (hd : AlikeAt d d') (es : Entries) :
    Alike (putEntry l d es) (putEntry l d' es) := by
  induction es with
  | nil => exact hd.cons l .nil
  | cons e es ih =>
    obtain ⟨m, w⟩ := e
    rw [putEntry, putEntry]
    split
    · exact hd.cons m (.refl es)
    · exact .cons _ ih

/-- Setting a key keeps mappings alike. -/
theorem Alike.put {d d' l : Datum} (h : Alike es es') (hd : AlikeAt d d') :
    Alike (putEntry l d es) (putEntry l d' es') := by
  -- of two entries that change places at most one has the key
  induction h generalizing d d' with
  | nil => exact hd.cons l .nil
  | cons e h ih =>
    obtain ⟨m, w⟩ := e
    rw [putEntry, putEntry]
    split
    · exact hd.cons m h
    · exact .cons _ (ih hd)
  | inner m hinner h _ ih =>
    rw [putEntry, putEntry]
    split
    · exact hd.cons m h
    · exact .inner m hinner (ih hd)
  | swap e f es hne =>
    obtain ⟨m, w⟩ := e
    obtain ⟨n, u⟩ := f
    by_cases hm : sameKey m l = true
    · have hn : ¬sameKey n l = true := fun hn => by
        rw [Yaml.sameKey_trans hm (Yaml.sameKey_symm hn)] at hne
        cases hne
      simp only [putEntry, if_pos hm, if_neg hn]
      exact (hd.cons m (.refl _)).trans (.swap _ _ _ hne)
    · by_cases hn : sameKey n l = true
      · simp only [putEntry, if_neg hm, if_pos hn]
        exact (Alike.cons _ (hd.cons n (.refl _))).trans (.swap _ _ _ hne)
      · simp only [putEntry, if_neg hm, if_neg hn]
        exact (Alike.cons _ (.cons _ (hd.put_self es))).trans (.swap _ _ _ hne)
  | trans _ _ ih ih' => exact (ih hd).trans (ih' (.refl d'))

theorem AlikeAt.trans {d d' d'' : Datum} (h : AlikeAt d d') (h' : AlikeAt d' d'') :
    AlikeAt d d'' := by
  cases h with
  | refl => exact h'
  | map h =>
    cases h' with
    | refl => exact .map h
    | map h' => exact .map (h.trans h')

theorem AlikeAt.optionTrans {o o' o'' : Option Datum} (h : Option.Rel AlikeAt o o')
    (h' : Option.Rel AlikeAt o' o'') : Option.Rel AlikeAt o o'' := by
  cases h with
  | none => exact h'
  | some h =>
    cases h' with
    | some h' => exact .some (h.trans h')

/-- In mappings that are alike a key has values that are alike. -/
theorem Alike.lookup? (h : Alike es es') (l : Datum) :
    Option.Rel AlikeAt (Yaml.lookup? l es) (Yaml.lookup? l es') := by
  have hrefl : ∀ o : Option Datum, Option.Rel AlikeAt o o := fun o => by
    cases o with
    | none => exact .none
    | some d => exact .some (.refl d)
  induction h with
  | nil => exact .none
  | cons e _ ih =>
    rw [Yaml.lookup?_cons, Yaml.lookup?_cons]
    split
    · exact .some (.refl _)
    · exact ih
  | inner m hinner _ _ ih =>
    rw [Yaml.lookup?_cons, Yaml.lookup?_cons]
    split
    · exact .some (.map hinner)
    · exact ih
  | swap e f es hne =>
    obtain ⟨m, w⟩ := e
    obtain ⟨n, u⟩ := f
    simp only [Yaml.lookup?_cons]
    by_cases hm : sameKey m l = true
    · have hn : ¬sameKey n l = true := fun hn => by
        rw [Yaml.sameKey_trans hm (Yaml.sameKey_symm hn)] at hne
        cases hne
      rw [if_pos hm, if_neg hn, if_pos hm]
      exact hrefl _
    · rw [if_neg hm, if_neg hm]
      exact hrefl _
  | trans _ _ ih ih' => exact AlikeAt.optionTrans ih ih'

theorem Alike.inside (h : Alike es es') (k : String) :
    Alike (Entries.inside es k) (Entries.inside es' k) := by
  have hvalues := h.lookup? (.text k)
  unfold Entries.inside
  rw [get?_eq, get?_eq]
  generalize Yaml.lookup? (.text k) es = o at hvalues
  generalize Yaml.lookup? (.text k) es' = o' at hvalues
  cases hvalues with
  | none => exact .nil
  | some hd =>
    cases hd with
    | refl d => exact .refl _
    | map hinner => exact hinner

/-- **Setting a value** at the end of a path keeps mappings alike. -/
theorem Alike.putAt (h : Alike es es') (p : List String) (d : Datum) :
    Alike (es.putAt p d) (es'.putAt p d) := by
  induction p generalizing es es' with
  | nil => exact h
  | cons k ks ih =>
    rw [putAt_cons, putAt_cons]
    refine h.put ?_
    cases ks with
    | nil => exact .refl d
    | cons l ks => exact .map (ih (h.inside k))

/-! ## Values on diverging paths -/

/-- A key that is set twice has the second value. -/
theorem putEntry_putEntry {l d d' : Datum} (hl : sameKey l l = true) :
    putEntry l d' (putEntry l d es) = putEntry l d' es := by
  induction es with
  | nil => simp only [putEntry, if_pos hl]
  | cons e es ih =>
    obtain ⟨m, w⟩ := e
    by_cases hm : sameKey m l = true
    · simp only [putEntry, if_pos hm]
    · simp only [putEntry, if_neg hm, ih]

/-- Different keys may be set in either order. -/
theorem putEntry_comm {l m x y : Datum} (h : sameKey m l = false) :
    Alike (putEntry l x (putEntry m y es)) (putEntry m y (putEntry l x es)) := by
  have h' : sameKey l m = false := by
    rw [Bool.eq_false_iff] at h ⊢
    exact fun hl => h (Yaml.sameKey_symm hl)
  induction es with
  | nil =>
    simp only [putEntry, h, h', Bool.false_eq_true, if_false]
    exact .swap _ _ _ h
  | cons e es ih =>
    obtain ⟨n, w⟩ := e
    by_cases hm : sameKey n m = true
    · have hl : ¬sameKey n l = true := fun hl => by
        rw [Yaml.sameKey_trans (Yaml.sameKey_symm hm) hl] at h
        cases h
      simp only [putEntry, if_pos hm, if_neg hl]
      exact .refl _
    · by_cases hl : sameKey n l = true
      · simp only [putEntry, if_pos hl, if_neg hm]
        exact .refl _
      · simp only [putEntry, if_neg hl, if_neg hm]
        exact .cons _ ih

theorem inside_putAt_self {k l : String} {ks : List String} {d : Datum} :
    inside (es.putAt (k :: l :: ks) d) k = (inside es k).putAt (l :: ks) d := by
  rw [inside, get?_eq, lookup?_putAt_self, placed_cons]

theorem inside_putAt_of_ne {k l : String} {ks : List String} {d : Datum} (h : k ≠ l) :
    inside (es.putAt (k :: ks) d) l = inside es l := by
  rw [inside, inside, get?_eq, get?_eq, lookup?_putAt_of_ne fun hl => h (Datum.text.inj hl).symm]

theorem placed_putAt_of_ne {k l : String} {ks ls : List String} {x y : Datum} (h : k ≠ l) :
    placed (es.putAt (k :: ks) y) l ls x = placed es l ls x := by
  cases ls with
  | nil => rfl
  | cons m ls => rw [placed_cons, placed_cons, inside_putAt_of_ne h]

/-- Two paths with the same first key set what is inside of it. -/
theorem putAt_putAt_self {k l m : String} {ls ms : List String} {x y : Datum} :
    (es.putAt (k :: l :: ls) y).putAt (k :: m :: ms) x =
      putEntry (.text k) (.map (((inside es k).putAt (l :: ls) y).putAt (m :: ms) x)) es := by
  have hself : sameKey (.text k) (.text k) = true := Yaml.sameKey_text.2 rfl
  rw [putAt_cons _ k (m :: ms), placed_cons, inside_putAt_self, putAt_cons es k,
    putEntry_putEntry hself]

/-- **Values on diverging paths** may be set in either order. -/
theorem putAt_comm {p q : List String} {x y : Datum} (h : Diverge p q) :
    Alike ((es.putAt q y).putAt p x) ((es.putAt p x).putAt q y) := by
  induction p generalizing es q with
  | nil => exact absurd rfl h.ne_nil
  | cons k p ih =>
    cases q with
    | nil => exact absurd rfl h.symm.ne_nil
    | cons l q =>
      by_cases hkl : k = l
      · -- both values are set in the mapping at that key, each behind it
        subst hkl
        have hrest := h.cons
        obtain ⟨k', p, rfl⟩ := List.exists_cons_of_ne_nil hrest.ne_nil
        obtain ⟨l', q, rfl⟩ := List.exists_cons_of_ne_nil hrest.symm.ne_nil
        rw [putAt_putAt_self, putAt_putAt_self]
        exact (Alike.refl es).put (.map (ih hrest))
      · -- neither of the values is set inside of the other one
        rw [putAt_cons _ k p x, placed_putAt_of_ne (Ne.symm hkl), putAt_cons es l,
          putAt_cons _ l q y, placed_putAt_of_ne hkl, putAt_cons es k]
        refine putEntry_comm ?_
        rw [Bool.eq_false_iff]
        exact fun hsame => hkl (Datum.text.inj (Yaml.sameKey_text.1 hsame))

theorem Alike.putAll_same (h : Alike es es') (vs : List (List String × Datum)) :
    Alike (putAll es vs) (putAll es' vs) := by
  induction vs generalizing es es' with
  | nil => exact h
  | cons v vs ih => exact ih (h.putAt v.1 v.2)

/-- **The order in which values are set does not matter** on diverging paths. -/
theorem putAll_perm (hperm : vs.Perm vs') (hdiverge : vs.Pairwise fun v w => Diverge v.1 w.1)
    (es : Entries) : Alike (putAll es vs) (putAll es vs') := by
  induction hperm generalizing es with
  | nil => exact .refl es
  | cons v _ ih => exact ih (List.pairwise_cons.1 hdiverge).2 (es.putAt v.1 v.2)
  | swap v w vs =>
    obtain ⟨hw, -⟩ := List.pairwise_cons.1 hdiverge
    exact (putAt_comm (hw v List.mem_cons_self).symm).putAll_same vs
  | trans hperm _ ih ih' =>
    have hnext := (hperm.pairwise_iff Diverge.symm).1 hdiverge
    exact (ih hdiverge es).trans (ih' hnext es)

end Entries

end RepairLoop
