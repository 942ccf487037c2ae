import Mathlib.Data.List.Infix
import RepairLoop.Files.Access
import RepairLoop.Proofs.Steps
/-!
# Files — what a change of a tree leaves as it was

A change at a location shows there, below it, and on the way to it: directories come up
around what is put (`entry?_put_of_ne`), and they stay around what is taken out
(`entry?_remove_of_not_prefix`). Everything else stands as it stood, so a change below a
directory is nowhere seen outside of it (`SameOutside`), and to put back what is there
changes the content of no file (`SameContents`).
-/

namespace RepairLoop.FileTree

variable {t : FileTree} {p q : Location}

/-- There is something at a location if an entry stands there or below, and at the top. -/
theorem has_iff : t.has q = true ↔ q = [] ∨ ∃ e ∈ t.entries, q <+: e.1 := by
  have hany : (t.entries.any fun e => q.isPrefixOf e.1) = true ↔ ∃ e ∈ t.entries, q <+: e.1 := by
    simp only [List.any_eq_true, List.isPrefixOf_iff_prefix]
  rw [has, entry?]
  cases hfind : t.entries.find? (·.1 == q) with
  | some found =>
    have hkey : found.1 = q := by simpa using List.find?_some hfind
    have hmem := List.mem_of_find?_eq_some hfind
    exact ⟨fun _ => .inr ⟨found, hmem, hkey ▸ List.prefix_refl _⟩, fun _ => rfl⟩
  | none =>
    by_cases hempty : q = []
    · simp [hempty]
    · rw [← hany]
      cases t.entries.any fun e => q.isPrefixOf e.1 <;> simp [hempty]

/-- What is around something is there. -/
theorem has_above (h : t.has p = true) (hq : q <+: p) : t.has q = true := by
  rw [has_iff] at h ⊢
  rcases h with rfl | ⟨e, he, hp⟩
  · exact .inl (List.prefix_nil.1 hq)
  · exact .inr ⟨e, he, hq.trans hp⟩

theorem entry?_eq_none : t.entry? q = none ↔ t.has q = false := by
  rw [has]
  cases t.entry? q <;> simp

/-- Where no entry stands at a location itself, there is a directory or nothing. -/
theorem entry?_of_find? (h : t.entries.find? (·.1 == q) = none) :
    t.entry? q = if t.has q then some .directory else none := by
  rw [has, entry?, h]
  simp only
  split <;> rfl

/-! ## Directories -/

/-- **A directory that is made** shows as such, and so do those around it, where nothing
was before. -/
theorem entry?_makeDirectory :
    entry? (t.makeDirectory p) q =
      if (t.entry? q).isNone && q.isPrefixOf p then some .directory else t.entry? q := by
  rw [makeDirectory]
  split
  · rename_i hp
    rw [if_neg]
    rw [Bool.and_eq_true, Option.isNone_iff_eq_none, List.isPrefixOf_iff_prefix, entry?_eq_none]
    rintro ⟨hnone, hprefix⟩
    rw [has_above hp hprefix] at hnone
    cases hnone
  · rename_i hp
    by_cases hpq : p = q
    · subst hpq
      rw [entry?_put_self, entry?_eq_none.2 (Bool.eq_false_iff.2 hp)]
      simp
    · exact entry?_put_of_ne hpq

/-! ## What is taken out -/

/-- The entries that are not below a location. -/
private theorem mem_apart {e : Location × Entry} :
    e ∈ t.entries.filter (fun (k, _) => !p.isPrefixOf k) ↔ e ∈ t.entries ∧ ¬ p <+: e.1 := by
  rw [List.mem_filter, Bool.not_eq_true', ← Bool.not_eq_true, List.isPrefixOf_iff_prefix]

/-- What is properly around a location is around what it stands in. -/
theorem prefix_dropLast (h : q <+: p) (hne : ¬ p <+: q) : q <+: p.dropLast := by
  have hlength : q.length ≠ p.length := fun hsame =>
    hne ((h.eq_of_length hsame) ▸ List.prefix_refl _)
  refine List.prefix_of_prefix_length_le h (List.dropLast_prefix p) ?_
  have hle := h.length_le
  rw [List.length_dropLast]
  omega

/-- What a location stands in is not below it. -/
theorem not_prefix_dropLast (hne : p ≠ []) : ¬ p <+: p.dropLast := by
  intro h
  have hle := h.length_le
  have hpos := List.length_pos_of_ne_nil hne
  rw [List.length_dropLast] at hle
  omega

/-- **What is taken out is gone with all that is below it.** -/
theorem entry?_remove_of_prefix (h : p <+: q) (hne : p ≠ []) : entry? (t.remove p) q = none := by
  have hgone : entry? (⟨t.entries.filter fun (k, _) => !p.isPrefixOf k⟩ : FileTree) q = none := by
    rw [entry?_eq_none, ← Bool.not_eq_true, has_iff]
    rintro (hq | ⟨e, he, hqe⟩)
    · exact hne (List.prefix_nil.1 (hq ▸ h))
    · exact (mem_apart.1 he).2 (h.trans hqe)
  rw [remove]
  split
  · -- the directory that stays is above what was taken out, so it does not show there
    have hlonger : ¬ q <+: p.dropLast := fun hq => not_prefix_dropLast hne (h.trans hq)
    rw [entry?_makeDirectory, hgone, if_neg]
    simpa using hlonger
  · exact hgone

/-- **And the rest stays as it was**: what stood in a directory leaves it behind. -/
theorem entry?_remove_of_not_prefix (h : ¬ p <+: q) : entry? (t.remove p) q = t.entry? q := by
  rw [remove]
  generalize hrest : (⟨t.entries.filter fun (k, _) => !p.isPrefixOf k⟩ : FileTree) = rest
  have hmem (e : Location × Entry) : e ∈ rest.entries ↔ e ∈ t.entries ∧ ¬ p <+: e.1 := by
    subst hrest
    exact mem_apart
  have hfind : rest.entries.find? (·.1 == q) = t.entries.find? (·.1 == q) := by
    subst hrest
    rw [List.find?_filter]
    congr 1
    funext e
    by_cases hkey : e.1 = q
    · simp [hkey, Bool.eq_false_iff.2 fun hp => h (List.isPrefixOf_iff_prefix.1 hp)]
    · simp [hkey]
  split
  · rename_i hp
    rw [entry?_makeDirectory]
    cases hstands : t.entries.find? (·.1 == q) with
    | some found =>
      have hsame : rest.entry? q = t.entry? q := by rw [ entry?, entry?, hfind, hstands]
      have hthere : t.entry? q = some found.2 := by rw [ entry?, hstands]
      rw [hsame, hthere]
      simp
    | none =>
      -- a directory on the way to something that was taken out is still on the way to
      -- the directory that it stood in
      have hhas : t.has q = (rest.has q || q.isPrefixOf p.dropLast) := by
        rw [Bool.eq_iff_iff, Bool.or_eq_true, List.isPrefixOf_iff_prefix, has_iff, has_iff]
        constructor
        · rintro (hq | ⟨e, he, hqe⟩)
          · exact .inl (.inl hq)
          · by_cases hpe : p <+: e.1
            · exact .inr (prefix_dropLast ((List.prefix_or_prefix_of_prefix hqe hpe).resolve_right h) h)
            · exact .inl (.inr ⟨e, (hmem e).2 ⟨he, hpe⟩, hqe⟩)
        · rintro ((hq | ⟨e, he, hqe⟩) | hq)
          · exact .inl hq
          · exact .inr ⟨e, ((hmem e).1 he).1, hqe⟩
          · exact has_iff.1 (has_above hp (hq.trans (List.dropLast_prefix p)))
      rw [entry?_of_find? (hfind.trans hstands), entry?_of_find? hstands, hhas]
      cases rest.has q <;> cases q.isPrefixOf p.dropLast <;> rfl
  · rename_i hp
    have hsame : rest.entries = t.entries := by
      subst hrest
      refine List.filter_eq_self.2 fun e he => ?_
      rw [Bool.not_eq_true', ← Bool.not_eq_true, List.isPrefixOf_iff_prefix]
      exact fun hpe => hp (has_iff.2 (.inr ⟨e, he, hpe⟩))
    rw [ entry?, entry?, hsame]

/-! ## What is outside of a directory -/

/-- All that is not at or below a location stands as it stood. -/
def SameOutside (root : Location) (t u : FileTree) : Prop :=
  ∀ q, ¬ root <+: q → u.entry? q = t.entry? q

namespace SameOutside

variable {root : Location} {u v : FileTree}

theorem refl (t : FileTree) : SameOutside root t t := fun _ _ => rfl

theorem trans (h : SameOutside root t u) (h' : SameOutside root u v) : SameOutside root t v :=
  fun q hq => (h' q hq).trans (h q hq)

theorem has (h : SameOutside root t u) (hq : ¬ root <+: q) : u.has q = t.has q := by
  rw [FileTree.has, FileTree.has, h q hq]

/-- What is above something below the directory, but not below it itself, is a directory
on the way to it. -/
private theorem above {l : Location} (hparent : t.has root.dropLast = true) (hl : root <+: l)
    (hq : ¬ root <+: q) : ((t.entry? q).isNone && q.isPrefixOf l) = false := by
  rw [Bool.and_eq_false_iff, ← Bool.not_eq_true, ← Bool.not_eq_true, Option.isNone_iff_eq_none,
    entry?_eq_none, List.isPrefixOf_iff_prefix]
  by_cases hprefix : q <+: l
  · have hroot : q <+: root := (List.prefix_or_prefix_of_prefix hprefix hl).resolve_right hq
    have hthere := has_above hparent (prefix_dropLast hroot hq)
    exact .inl (by rw [hthere]; simp)
  · exact .inr hprefix

theorem put {l : Location} {e : Entry} (hparent : t.has root.dropLast = true) (hl : root <+: l) :
    SameOutside root t (t.put l e) := by
  intro q hq
  have hne : l ≠ q := fun heq => hq (heq ▸ hl)
  rw [entry?_put_of_ne hne, above hparent hl hq]
  rfl

theorem makeDirectory {l : Location} (hparent : t.has root.dropLast = true) (hl : root <+: l) :
    SameOutside root t (t.makeDirectory l) := by
  intro q hq
  rw [entry?_makeDirectory, above hparent hl hq]
  rfl

theorem remove {l : Location} (hl : root <+: l) : SameOutside root t (t.remove l) :=
  fun _ hq => entry?_remove_of_not_prefix fun hlq => hq (hl.trans hlq)

end SameOutside

/-! ## Files by their paths -/

section

variable {root : Location} {u : FileTree} {path : Path}

theorem unlink_sameOutside (hpath : root <+: path.parts) (h : t.unlink path = .ok u) :
    SameOutside root t u := by
  rw [unlink] at h
  split at h
  · cases h
  · split at h
    · cases h
      exact .remove hpath
    · cases h
      exact .refl t

/-- **A file that is written below a directory**, with the directories around it. -/
theorem writeDeep_sameOutside {content : ByteArray} (hroot : root ≠ [])
    (hparent : t.has root.dropLast = true) (hpath : root <+: path.parts)
    (h : t.writeDeep path content = .ok u) : SameOutside root t u := by
  obtain ⟨around, hmade, hwritten⟩ := ok_of_bind h
  have haround : SameOutside root t around := by
    rw [makeDirectories] at hmade
    split at hmade
    · cases hmade
    · split at hmade
      · cases hmade
      · cases hmade
        by_cases hdeep : root <+: path.parent.parts
        · exact .makeDirectory hparent hdeep
        · -- the file stands in place of the directory, and what surrounds it is there
          have hsame : path.parts = root := by
            by_contra hne
            refine hdeep ?_
            exact prefix_dropLast hpath fun hback => hne (hback.eq_of_length_le hpath.length_le)
          have hthere : t.has path.parent.parts = true := by
            rw [Path.parent, hsame]
            exact hparent
          rw [FileTree.makeDirectory, if_pos hthere]
          exact .refl t
  split at hwritten
  · cases hwritten
  · cases hwritten
    refine haround.trans (.put ?_ hpath)
    rw [haround.has (not_prefix_dropLast hroot)]
    exact hparent

end

/-! ## What the files hold -/

/-- Every file has the content that it had, and there are no other ones. -/
def SameContents (t u : FileTree) : Prop := ∀ l, u.content? l = t.content? l

/-- The top is a directory, and nothing stands below a file or a link. -/
structure Grounded (t : FileTree) : Prop where
  top : t.isDirectory [] = true
  leaves : ∀ p q, t.isLeaf p = true → p <+: q → p ≠ q → t.has q = false

namespace SameContents

variable {u v : FileTree}

theorem refl (t : FileTree) : SameContents t t := fun _ => rfl

theorem trans (h : SameContents t u) (h' : SameContents u v) : SameContents t v :=
  fun l => (h' l).trans (h l)

theorem of_entries (h : ∀ q, u.entry? q = t.entry? q) : SameContents t u :=
  fun l => by rw [content?, content?, h l]

end SameContents

namespace Grounded

variable {u : FileTree} {path : Path}

theorem of_entries (ht : t.Grounded) (h : ∀ q, u.entry? q = t.entry? q) : u.Grounded := by
  have hhas (q : Location) : u.has q = t.has q := by rw [has, has, h q]
  have hdirectory (q : Location) : u.isDirectory q = t.isDirectory q := by
    rw [isDirectory, isDirectory, h q]
  refine ⟨(hdirectory []).trans ht.top, fun p q hp hpq hne => ?_⟩
  rw [isLeaf, hhas, hdirectory] at hp
  rw [hhas]
  exact ht.leaves p q hp hpq hne

theorem ne_top (ht : t.Grounded) (hleaf : t.isLeaf p = true) : p ≠ [] := by
  rintro rfl
  rw [isLeaf, ht.top, Bool.and_comm] at hleaf
  cases hleaf

theorem remove (ht : t.Grounded) (hleaf : t.isLeaf p = true) : (t.remove p).Grounded := by
  have hdeep := ht.ne_top hleaf
  have hstays (q : Location) (hq : ¬ p <+: q) : entry? (t.remove p) q = t.entry? q :=
    entry?_remove_of_not_prefix hq
  refine ⟨?_, fun a q ha haq hne => ?_⟩
  · rw [isDirectory, hstays [] fun hq => hdeep (List.prefix_nil.1 hq)]
    exact ht.top
  · by_cases hq : p <+: q
    · exact entry?_eq_none.1 ( entry?_remove_of_prefix hq hdeep)
    · have habove : ¬ p <+: a := fun hpa => hq (hpa.trans haq)
      rw [isLeaf, has, isDirectory, hstays a habove] at ha
      rw [has, hstays q hq]
      exact ht.leaves a q ha haq hne

/-- A link that is taken out takes no content away. -/
theorem remove_sameContents (ht : t.Grounded) (hleaf : t.isLeaf p = true)
    (hnone : t.content? p = none) : SameContents t (t.remove p) := by
  intro q
  by_cases hq : p <+: q
  · have hempty : t.content? q = none := by
      by_cases hsame : p = q
      · exact hsame ▸ hnone
      · rw [content?, entry?_eq_none.2 (ht.leaves p q hleaf hq hsame)]
    rw [hempty, content?, entry?_remove_of_prefix hq (ht.ne_top hleaf)]
  · rw [content?, content?, entry?_remove_of_not_prefix hq]

/-- **To remove what is no file takes no content away.** -/
theorem unlink (ht : t.Grounded) (hnone : t.content? path.parts = none)
    (h : t.unlink path = .ok u) : SameContents t u ∧ u.Grounded := by
  rw [FileTree.unlink] at h
  split at h
  · cases h
  · rename_i hdirectory
    split at h
    · rename_i hhas
      cases h
      have hleaf : t.isLeaf path.parts = true := by
        rw [isLeaf, hhas, Bool.eq_false_iff.2 hdirectory]
        rfl
      exact ⟨ht.remove_sameContents hleaf hnone, ht.remove hleaf⟩
    · cases h
      exact ⟨.refl t, ht⟩

/-- **And neither does writing what a file holds already.** -/
theorem writeDeep {content : ByteArray} (ht : t.Grounded)
    (hsome : t.content? path.parts = some content) (h : t.writeDeep path content = .ok u) :
    SameContents t u ∧ u.Grounded := by
  have hentry : t.entry? path.parts = some (.file content) := by
    rw [content?] at hsome
    split at hsome
    · rename_i found hfound
      rw [hfound, Option.some.inj hsome]
    · cases hsome
  have hthere : t.has path.parts = true := by rw [has, hentry]; rfl
  have habove : t.has path.parent.parts = true := has_above hthere (List.dropLast_prefix _)
  obtain ⟨around, hmade, hwritten⟩ := ok_of_bind h
  -- the directories around the file stand already
  have haround : around = t := by
    rw [makeDirectories] at hmade
    split at hmade
    · cases hmade
    · split at hmade
      · cases hmade
      · rw [makeDirectory, if_pos habove] at hmade
        exact (Except.ok.inj hmade).symm
  subst haround
  split at hwritten
  · cases hwritten
  · obtain rfl := Except.ok.inj hwritten
    have hsame (q : Location) : entry? (around.write path.parts content) q = around.entry? q := by
      by_cases hq : path.parts = q
      · rw [← hq, hentry]
        exact entry?_put_self _ _ _
      · rw [write, entry?_put_of_ne hq, if_neg]
        rw [Bool.and_eq_true, Option.isNone_iff_eq_none, List.isPrefixOf_iff_prefix, entry?_eq_none]
        rintro ⟨hmissing, hprefix⟩
        rw [has_above hthere hprefix] at hmissing
        cases hmissing
    exact ⟨.of_entries hsame, ht.of_entries hsame⟩

end Grounded

end RepairLoop.FileTree
