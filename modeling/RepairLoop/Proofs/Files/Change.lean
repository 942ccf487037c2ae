import Mathlib.Logic.Relation
import RepairLoop.Proofs.Files.Tree
/-!
# Files — a tree in which files are written and deleted

A program that may touch some files only can write them, where nothing stands in the way,
and delete them (`Touches`). Whatever it does in a row (`Tampers`), all other contents stay,
directories stay, and new ones come up only on the way to a file that it may touch
(`Tampers.tampered`).
-/

namespace RepairLoop.FileTree

variable {t u : FileTree} {p q : Location} {content : ByteArray}

/-! ## One file -/

theorem isLeaf_iff : t.isLeaf p = true ↔ t.has p = true ∧ t.isDirectory p = false := by
  rw [isLeaf, Bool.and_eq_true, Bool.not_eq_true']

/-- A directory is there. -/
theorem has_of_isDirectory (h : t.isDirectory p = true) : t.has p = true := by
  rw [isDirectory] at h
  rw [has]
  split at h
  · rename_i hentry
    rw [hentry]
    rfl
  · cases h

/-- What is neither a directory nor a link is what its content says. -/
theorem entry_of_content (hfile : t.isDirectory p = false) (hlink : ∀ target, t.entry? p ≠ some (.link target)) :
    t.entry? p = (t.content? p).map .file := by
  rw [isDirectory] at hfile
  rw [content?]
  cases hentry : t.entry? p with
  | none => rfl
  | some e =>
    cases e with
    | file c => rfl
    | directory =>
      rw [hentry] at hfile
      cases hfile
    | link target => exact (hlink target hentry).elim

theorem content?_congr (h : u.entry? q = t.entry? q) : u.content? q = t.content? q := by
  rw [content?, content?, h]

theorem isDirectory_congr (h : u.entry? q = t.entry? q) : u.isDirectory q = t.isDirectory q := by
  rw [isDirectory, isDirectory, h]

/-- Nothing stands in the way if there are only directories. -/
theorem Grounded.blocked_iff (ht : t.Grounded) :
    t.blocked p = false ↔ ∀ q, q <+: p → q ≠ p → t.isLeaf q = false := by
  rw [blocked, List.any_eq_false]
  constructor
  · intro h q hq hne
    by_contra hleaf
    have hleaf : t.isLeaf q = true := by simpa using hleaf
    have hlength : q.length < p.length :=
      Nat.lt_of_le_of_ne hq.length_le fun hsame => hne (hq.eq_of_length hsame)
    have hpos : q.length ≠ 0 := fun hzero => ht.ne_top hleaf (List.eq_nil_of_length_eq_zero hzero)
    refine h q.length (List.mem_range.2 hlength) ?_
    rw [← List.prefix_iff_eq_take.1 hq, hleaf, Bool.and_true, bne_iff_ne]
    exact hpos
  · intro h n hn hleaf
    rw [Bool.and_eq_true] at hleaf
    have hlt := List.mem_range.1 hn
    have hne : p.take n ≠ p := fun hsame => by
      have hlength := congrArg List.length hsame
      rw [List.length_take] at hlength
      omega
    rw [h _ (List.take_prefix n p) hne] at hleaf
    exact absurd hleaf.2 (by decide)

/-! ### A file that is deleted -/

/-- **What is no directory goes alone.** -/
theorem Grounded.entry?_remove (ht : t.Grounded) (hleaf : t.isLeaf p = true) (q : Location) :
    entry? (t.remove p) q = if p = q then none else t.entry? q := by
  by_cases hpq : p <+: q
  · rw [ entry?_remove_of_prefix hpq (ht.ne_top hleaf)]
    split
    · rfl
    · rename_i hne
      exact (entry?_eq_none.2 (ht.leaves p q hleaf hpq hne)).symm
  · have hne : p ≠ q := fun hsame => hpq (hsame ▸ List.prefix_refl _)
    rw [ entry?_remove_of_not_prefix hpq, if_neg hne]

/-! ### A file that is written -/

/-- A new directory comes up on the way, where nothing was. -/
theorem isDirectory_write (hfile : t.isDirectory p = false) :
    (t.write p content).isDirectory q = true ↔
      t.isDirectory q = true ∨ (q <+: p ∧ q ≠ p ∧ t.has q = false) := by
  by_cases hpq : p = q
  · subst hpq
    have hself : (t.write p content).isDirectory p = false := by
      rw [isDirectory, write, entry?_put_self]
    rw [hself, hfile]
    simp
  · have hwritten := entry?_put_of_ne (t := t) (e := .file content) hpq
    rw [isDirectory, write, hwritten]
    by_cases hnew : (t.entry? q).isNone && q.isPrefixOf p
    · rw [if_pos hnew]
      rw [Bool.and_eq_true, Option.isNone_iff_eq_none, entry?_eq_none, List.isPrefixOf_iff_prefix] at hnew
      exact ⟨fun _ => .inr ⟨hnew.2, Ne.symm hpq, hnew.1⟩, fun _ => rfl⟩
    · rw [if_neg hnew]
      rw [Bool.and_eq_true, Option.isNone_iff_eq_none, entry?_eq_none, List.isPrefixOf_iff_prefix] at hnew
      exact ⟨.inl, fun h => h.resolve_right fun hq => hnew ⟨hq.2.2, hq.1⟩⟩

/-- Other entries stay, but where nothing was a directory may come up. -/
theorem entry?_write_of_has (hne : p ≠ q) (hthere : t.has q = true) :
    entry? (t.write p content) q = t.entry? q := by
  rw [write, entry?_put_of_ne hne, if_neg]
  rw [Bool.and_eq_true, Option.isNone_iff_eq_none, entry?_eq_none, hthere]
  simp

/-- No other content changes. -/
theorem content?_write_of_ne (hne : p ≠ q) : (t.write p content).content? q = t.content? q := by
  by_cases hthere : t.has q = true
  · exact content?_congr (entry?_write_of_has hne hthere)
  · have hnone := entry?_eq_none.2 (Bool.eq_false_iff.2 hthere)
    rw [content?, content?, write, entry?_put_of_ne hne, hnone]
    cases q.isPrefixOf p <;> rfl

/-- **A file may be written** where no file is in the way and no directory in its place. -/
theorem Grounded.write (ht : t.Grounded) (hfree : t.blocked p = false)
    (hfile : t.isDirectory p = false) : (t.write p content).Grounded := by
  have hdeep : p ≠ [] := by
    rintro rfl
    rw [ht.top] at hfile
    cases hfile
  have hpath := ht.blocked_iff.1 hfree
  refine ⟨(isDirectory_write hfile).2 (.inl ht.top), fun a q ha haq hne => ?_⟩
  rw [← entry?_eq_none]
  rw [isLeaf_iff] at ha
  have hundirected : ¬ (t.isDirectory a = true ∨ (a <+: p ∧ a ≠ p ∧ t.has a = false)) := by
    rw [← (isDirectory_write hfile : (t.write p content).isDirectory a = true ↔ _), ha.2]
    decide
  by_cases hap : a = p
  · -- nothing was below the file, whether it is new or not
    subst hap
    have hbelow : t.has q = false := by
      by_cases hthere : t.has a = true
      · exact ht.leaves a q (isLeaf_iff.2 ⟨hthere, hfile⟩) haq hne
      · by_contra hq
        exact hthere (has_above (by simpa using hq) haq)
    have hlonger : ¬ q <+: a := fun hback => hne (haq.eq_of_length_le hback.length_le)
    rw [FileTree.write, entry?_put_of_ne hne, entry?_eq_none.2 hbelow, if_neg]
    simpa using hlonger
  · have hthere : t.has a = true := by
      by_contra hnone
      have hnone : t.has a = false := by simpa using hnone
      have hentry := entry?_put_of_ne (t := t) (e := .file content) (Ne.symm hap)
      rw [has, FileTree.write, hentry, entry?_eq_none.2 hnone] at ha
      by_cases hbelow : a <+: p
      · exact hundirected (.inr ⟨hbelow, hap, hnone⟩)
      · rw [if_neg (by simpa using hbelow)] at ha
        exact absurd ha.1 (by decide)
    have hleaf : t.isLeaf a = true :=
      isLeaf_iff.2 ⟨hthere, by simpa using fun h => hundirected (.inl h)⟩
    have hnotAbove : ¬ a <+: p := fun hprefix => by
      rw [hpath a hprefix hap] at hleaf
      cases hleaf
    have hpq : p ≠ q := fun hsame => hnotAbove (hsame ▸ haq)
    have hbelow := ht.leaves a q hleaf haq hne
    rw [FileTree.write, entry?_put_of_ne hpq, entry?_eq_none.2 hbelow, if_neg]
    have hnotOn : ¬ q <+: p := fun hq => hnotAbove (haq.trans hq)
    simpa using hnotOn

/-! ### A tree of one file -/

theorem entry?_empty (hdeep : p ≠ []) : empty.entry? p = none := by
  have hfull : p.isEmpty = false := by simpa using hdeep
  rw [empty, FileTree.entry?, List.find?_nil, List.any_nil, hfull]
  rfl

theorem isLeaf_empty (p : Location) : empty.isLeaf p = false := by
  rw [isLeaf]
  by_cases hdeep : p = []
  · subst hdeep
    rfl
  · rw [entry?_eq_none.1 (entry?_empty hdeep)]
    rfl

theorem grounded_empty : empty.Grounded := by
  refine ⟨rfl, fun p q hleaf => ?_⟩
  rw [isLeaf_empty] at hleaf
  cases hleaf

/-- One file may stand anywhere but at the top. -/
theorem grounded_single (hdeep : p ≠ []) : (empty.write p content).Grounded := by
  refine grounded_empty.write (grounded_empty.blocked_iff.2 fun q _ _ => isLeaf_empty q) ?_
  rw [isDirectory, entry?_empty hdeep]

/-- It is no link, and there is none. -/
theorem entry?_single (target : String) : entry? (empty.write p content) q ≠ some (.link target) := by
  by_cases hpq : p = q
  · rw [← hpq, FileTree.write, entry?_put_self]
    simp
  · rw [FileTree.write, entry?_put_of_ne hpq]
    by_cases hdeep : q = []
    · subst hdeep
      cases p <;> simp [empty, FileTree.entry?]
    · rw [entry?_empty hdeep]
      cases q.isPrefixOf p <;> simp

/-! ## Files by their paths -/

section

variable {path : Path}

/-- A file that was removed. -/
theorem Grounded.unlink_ok (ht : t.Grounded) (h : t.unlink path = .ok u) :
    t.isDirectory path.parts = false ∧
      ∀ q, u.entry? q = if path.parts = q then none else t.entry? q := by
  rw [FileTree.unlink] at h
  split at h
  · cases h
  · rename_i hdirectory
    have hdirectory : t.isDirectory path.parts = false := by simpa using hdirectory
    refine ⟨hdirectory, fun q => ?_⟩
    split at h
    · rename_i hthere
      obtain rfl := Except.ok.inj h
      exact ht.entry?_remove (isLeaf_iff.2 ⟨hthere, hdirectory⟩) q
    · rename_i hgone
      obtain rfl := Except.ok.inj h
      split
      · rename_i hsame
        exact hsame ▸ entry?_eq_none.2 (by simpa using hgone)
      · rfl

/-- What is no directory can be removed. -/
theorem unlink_isOk (hfile : t.isDirectory path.parts = false) : ∃ u, t.unlink path = .ok u := by
  rw [unlink, hfile, if_neg (by decide)]
  split <;> exact ⟨_, rfl⟩

/-- Nothing is in the way to a file if nothing is in the way to the directory that it stands
in, and that is no file. -/
theorem Grounded.blocked_parent (ht : t.Grounded) (hdeep : path.parts ≠ []) :
    t.blocked path.parts = false ↔
      t.blocked path.parent.parts = false ∧ t.isLeaf path.parent.parts = false := by
  have hparent : path.parent.parts <+: path.parts := List.dropLast_prefix _
  have hnotAbove : ¬ path.parts <+: path.parent.parts := not_prefix_dropLast hdeep
  have hshorter : path.parent.parts ≠ path.parts := fun hsame =>
    hnotAbove (hsame ▸ List.prefix_refl _)
  rw [ht.blocked_iff, ht.blocked_iff]
  constructor
  · intro h
    refine ⟨fun q hq hne => h q (hq.trans hparent) fun hsame => ?_, h _ hparent hshorter⟩
    exact hnotAbove (hsame ▸ hq)
  · rintro ⟨habove, hleaf⟩ q hq hne
    by_cases hsame : q = path.parent.parts
    · exact hsame ▸ hleaf
    · exact habove q (prefix_dropLast hq fun hback => hne (hq.eq_of_length_le hback.length_le)) hsame

/-- The directories around a file hide nothing. -/
theorem entry?_write_makeDirectory :
    entry? ((t.makeDirectory path.parent.parts).write path.parts content) q =
      entry? (t.write path.parts content) q := by
  by_cases hpq : path.parts = q
  · subst hpq
    rw [write, write, entry?_put_self, entry?_put_self]
  · rw [write, write, entry?_put_of_ne hpq, entry?_put_of_ne hpq, entry?_makeDirectory]
    by_cases hnew : (t.entry? q).isNone && q.isPrefixOf path.parent.parts
    · rw [if_pos hnew]
      rw [Bool.and_eq_true, List.isPrefixOf_iff_prefix] at hnew
      have hpath : q <+: path.parts := hnew.2.trans (List.dropLast_prefix _)
      simp [hnew.1, hpath]
    · rw [if_neg hnew]

/-- A directory stands in the place of a file whether those around it are made or not. -/
theorem Grounded.isDirectory_makeDirectory (ht : t.Grounded) :
    (t.makeDirectory path.parent.parts).isDirectory path.parts = t.isDirectory path.parts := by
  refine isDirectory_congr ?_
  rw [entry?_makeDirectory, if_neg]
  rw [Bool.and_eq_true, Option.isNone_iff_eq_none, entry?_eq_none, List.isPrefixOf_iff_prefix]
  rintro ⟨hnone, hprefix⟩
  by_cases hdeep : path.parts = []
  · rw [hdeep, has_of_isDirectory ht.top] at hnone
    cases hnone
  · exact not_prefix_dropLast hdeep hprefix

theorem Grounded.deep_of_isDirectory (ht : t.Grounded) (hfile : t.isDirectory p = false) : p ≠ [] := by
  rintro rfl
  rw [ht.top] at hfile
  cases hfile

/-- **A file that was written** with the directories around it stands as one that is written
at once. -/
theorem Grounded.writeDeep_ok (ht : t.Grounded) (h : t.writeDeep path content = .ok u) :
    t.blocked path.parts = false ∧ t.isDirectory path.parts = false ∧
      ∀ q, u.entry? q = entry? (t.write path.parts content) q := by
  obtain ⟨around, hmade, hwritten⟩ := ok_of_bind h
  rw [makeDirectories] at hmade
  split at hmade
  · cases hmade
  · rename_i hfree
    split at hmade
    · cases hmade
    · rename_i hleaf
      obtain rfl := Except.ok.inj hmade
      rw [ht.isDirectory_makeDirectory] at hwritten
      split at hwritten
      · cases hwritten
      · rename_i hdirectory
        obtain rfl := Except.ok.inj hwritten
        have hfile : t.isDirectory path.parts = false := by simpa using hdirectory
        have hdeep := ht.deep_of_isDirectory hfile
        exact ⟨(ht.blocked_parent hdeep).2 ⟨by simpa using hfree, by simpa using hleaf⟩, hfile,
          fun q => entry?_write_makeDirectory⟩

/-- A file can be written where nothing is in the way. -/
theorem Grounded.writeDeep_isOk (ht : t.Grounded) (hfree : t.blocked path.parts = false)
    (hfile : t.isDirectory path.parts = false) (content : ByteArray) :
    ∃ u, t.writeDeep path content = .ok u := by
  obtain ⟨hparent, hleaf⟩ := (ht.blocked_parent (ht.deep_of_isDirectory hfile)).1 hfree
  have hmade : t.makeDirectories path.parent = .ok (t.makeDirectory path.parent.parts) := by
    rw [makeDirectories, hparent, hleaf]
    rfl
  rw [FileTree.writeDeep, hmade]
  refine ⟨_, if_neg ?_⟩
  rw [ht.isDirectory_makeDirectory, hfile]
  decide

end

/-! ## Files that may be touched -/

/-- One of the files that may be touched is written, where nothing is in the way, or
deleted. -/
inductive Touches (may : Location → Prop) (t : FileTree) : FileTree → Prop
  | write {l : Location} (hmay : may l) (hfree : t.blocked l = false)
    (hfile : t.isDirectory l = false) (content : ByteArray) : Touches may t (t.write l content)
  | delete {l : Location} (hmay : may l) (hleaf : t.isLeaf l = true) : Touches may t (t.remove l)

/-- They are written and deleted in some row. -/
abbrev Tampers (may : Location → Prop) : FileTree → FileTree → Prop :=
  Relation.ReflTransGen (Touches may)

/-- What is left of a tree where only some files were touched. -/
structure Tampered (may : Location → Prop) (t u : FileTree) : Prop where
  grounded : u.Grounded
  contents : ∀ l, ¬ may l → u.content? l = t.content? l
  kept : ∀ l, t.isDirectory l = true → u.isDirectory l = true
  raised : ∀ l, u.isDirectory l = true → t.isDirectory l = true ∨ ∃ p, may p ∧ l <+: p ∧ l ≠ p

variable {may : Location → Prop}

theorem Grounded.untouched (ht : t.Grounded) : Tampered may t t :=
  ⟨ht, fun _ _ => rfl, fun _ h => h, fun _ h => .inl h⟩

theorem Tampered.trans {v : FileTree} (h : Tampered may t u) (h' : Tampered may u v) :
    Tampered may t v where
  grounded := h'.grounded
  contents l hl := (h'.contents l hl).trans (h.contents l hl)
  kept l hl := h'.kept l (h.kept l hl)
  raised l hl := (h'.raised l hl).elim (h.raised l) .inr

/-- What is seen of a tree is all that counts. -/
theorem Tampered.of_entries {v : FileTree} (h : Tampered may t u)
    (hsame : ∀ q, v.entry? q = u.entry? q) : Tampered may t v where
  grounded := h.grounded.of_entries hsame
  contents l hl := (content?_congr (hsame l)).trans (h.contents l hl)
  kept l hl := (isDirectory_congr (hsame l)).trans (h.kept l hl)
  raised l hl := h.raised l ((isDirectory_congr (hsame l)).symm.trans hl)

/-- To touch fewer files is to touch them. -/
theorem Tampered.mono {may' : Location → Prop} (h : Tampered may t u) (hmay : ∀ l, may l → may' l) :
    Tampered may' t u where
  grounded := h.grounded
  contents l hl := h.contents l fun hold => hl (hmay l hold)
  kept := h.kept
  raised l hl := (h.raised l hl).imp_right fun ⟨p, hp, hon⟩ => ⟨p, hmay p hp, hon⟩

/-- **One touch** leaves the rest as it was. -/
theorem Touches.tampered (h : Touches may t u) (ht : t.Grounded) : Tampered may t u := by
  cases h with
  | @write p hmay hfree hfile content =>
    refine ⟨ht.write hfree hfile, fun l hl => ?_, fun l hl => ?_, fun l hl => ?_⟩
    · exact content?_write_of_ne fun hsame => hl (hsame ▸ hmay)
    · exact (isDirectory_write hfile).2 (.inl hl)
    · rcases (isDirectory_write hfile).1 hl with hold | ⟨hon, hne, -⟩
      · exact .inl hold
      · exact .inr ⟨p, hmay, hon, hne⟩
  | @delete p hmay hleaf =>
    have hentry := ht.entry?_remove hleaf
    have hsame (l : Location) (hl : p ≠ l) : entry? (t.remove p) l = t.entry? l := by
      rw [hentry, if_neg hl]
    refine ⟨ht.remove hleaf, fun l hl => ?_, fun l hl => ?_, fun l hl => .inl ?_⟩
    · exact content?_congr (hsame l fun heq => hl (heq ▸ hmay))
    · have hne : p ≠ l := by
        rintro rfl
        rw [(isLeaf_iff.1 hleaf).2] at hl
        cases hl
      rwa [isDirectory_congr (hsame l hne)]
    · rw [isDirectory, hentry] at hl
      by_cases hne : p = l
      · rw [if_pos hne] at hl
        cases hl
      · rwa [if_neg hne, ← isDirectory] at hl

/-- **And so does any row of them.** -/
theorem Tampers.tampered (h : Tampers may t u) (ht : t.Grounded) : Tampered may t u := by
  induction h with
  | refl => exact ht.untouched
  | tail _ hlast ih => exact ih.trans (hlast.tampered ih.grounded)

end RepairLoop.FileTree
