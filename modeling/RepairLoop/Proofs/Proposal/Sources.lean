import Mathlib.Data.List.Perm.Subperm
import RepairLoop.Files.Access
import RepairLoop.Proofs.Proposal.Vetting
import RepairLoop.Proofs.Service.Answer
/-!
# Proposal — what patches are made of

A source is read where its path leads once all links are followed, and only if that lies in the
project (`readSource_inside`). A patch carries what its draft comes to (`patchOf_carries`), and a
draft is made of the completion and of one source (`draft_cases`). So whatever the files, their
links and the path of the issue are, nothing but files of the project comes into the question that
a service is asked, or into the patch that is made of its answer (`propose_inside`).
-/

/-!
## Files — where ways lead

What a way comes to has no link and no double dots on it (`resolve_resolved`), and so has every
location above it, which a way comes to as it is (`resolve_of_resolved`). The links that a way is
part of are distinct links of the tree, so there are never more of them than entries, and more
fuel than that changes nothing (`follow_fuel`).
-/

namespace RepairLoop.FileTree

variable {t : FileTree} {enter : Location → Path → Except Location Location}
  {done l : Location} {way : List String}

/-- No double dots are on the way, and no link. -/
structure IsResolved (t : FileTree) (l : Location) : Prop where
  up : ".." ∉ l
  links : ∀ p, p <+: l → p ≠ [] → t.link? p = none

namespace IsResolved

theorem nil : t.IsResolved [] :=
  ⟨List.not_mem_nil, fun _ hp hne => absurd (List.prefix_nil.1 hp) hne⟩

/-- What lies above is resolved too. -/
theorem above {p : Location} (h : t.IsResolved l) (hp : p <+: l) : t.IsResolved p :=
  ⟨fun hup => h.up (hp.subset hup), fun q hq hne => h.links q (hq.trans hp) hne⟩

theorem dropLast (h : t.IsResolved l) : t.IsResolved l.dropLast := h.above (List.dropLast_prefix l)

/-- One step further, if it leads down and not over a link. -/
theorem step {name : String} (h : t.IsResolved l) (hname : name ≠ "..")
    (hlink : t.link? (l ++ [name]) = none) : t.IsResolved (l ++ [name]) := by
  refine ⟨fun hup => ?_, fun p hp hne => ?_⟩
  · rcases List.mem_append.1 hup with hup | hup
    · exact h.up hup
    · exact hname (List.mem_singleton.1 hup).symm
  · rcases List.prefix_concat_iff.1 hp with rfl | hp
    · exact hlink
    · exact h.links p hp hne

end IsResolved

/-! ### What a way comes to -/

/-- A way from a resolved location comes to a resolved one, if its links do. -/
theorem walk_resolved
    (henter : ∀ link target l, t.IsResolved link.dropLast → enter link target = .ok l →
      t.IsResolved l)
    (hdone : t.IsResolved done) (h : t.walk enter done way = .ok l) : t.IsResolved l := by
  induction way generalizing done with
  | nil =>
    obtain rfl := Except.ok.inj h
    exact hdone
  | cons name rest ih =>
    rw [walk] at h
    split at h
    · exact ih hdone.dropLast h
    · rename_i hname
      split at h
      · rename_i hlink
        exact ih (hdone.step (by simpa using hname) hlink) h
      · split at h
        · rename_i reached hreached
          refine ih (henter _ _ _ ?_ hreached) h
          rw [List.dropLast_concat]
          exact hdone
        · cases h

theorem follow_resolved {fuel : Nat} {entered : List Location} (hdone : t.IsResolved done)
    (h : t.follow fuel entered done way = .ok l) : t.IsResolved l := by
  induction fuel generalizing entered done way l with
  | zero => exact walk_resolved (fun _ _ _ _ h => by cases h) hdone h
  | succ fuel ih =>
    refine walk_resolved (fun link target l hlink h => ?_) hdone h
    -- the target of a link is read from the root, or from where the link stands
    split at h
    · cases h
    · split at h
      · exact ih .nil h
      · exact ih hlink h

/-- **What a path comes to is resolved**: no link is on its way, and no double dots. -/
theorem resolve_resolved {p : Path} (h : t.resolve p = .ok l) : t.IsResolved l := by
  unfold resolve at h
  cases hfollow : t.follow t.entries.length [] [] p.parts with
  | error left =>
    rw [hfollow] at h
    cases h
  | ok reached =>
    rw [hfollow] at h
    obtain rfl := Except.ok.inj h
    exact follow_resolved .nil hfollow

theorem walk_of_resolved (h : t.IsResolved (done ++ way)) :
    t.walk enter done way = .ok (done ++ way) := by
  induction way generalizing done with
  | nil => rw [walk, List.append_nil]
  | cons name rest ih =>
    have hname : name ≠ ".." := fun hup => h.up (by simp [hup])
    have hlink : t.link? (done ++ [name]) = none :=
      h.links _ ⟨rest, by simp⟩ (by simp)
    have hrest : t.IsResolved ((done ++ [name]) ++ rest) := by simpa using h
    rw [walk, if_neg (by simpa using hname)]
    simp only [hlink]
    rw [ih hrest, List.append_assoc, List.singleton_append]

/-- **A resolved path leads where it says.** -/
theorem resolve_of_resolved {p : Path} (h : t.IsResolved p.parts) : t.resolve p = .ok p.parts := by
  have hroot : t.IsResolved ([] ++ p.parts) := h
  unfold resolve
  cases t.entries.length with
  | zero =>
    rw [follow, walk_of_resolved hroot]
    rfl
  | succ n =>
    rw [follow, walk_of_resolved hroot]
    rfl

/-! ### How many links a way is part of -/

/-- A link is one of the entries. -/
theorem mem_of_link? {p : Location} {target : Path} (h : t.link? p = some target) :
    p ∈ t.entries.map Prod.fst := by
  unfold link? entry? at h
  split at h
  · rename_i heq
    split at heq
    · rename_i q e hfind
      have hq := List.find?_some hfind
      exact List.mem_map.2 ⟨_, List.mem_of_find?_eq_some hfind, by simpa using hq⟩
    · split at heq <;> cases heq
  · cases h

/-- Ways agree if what they enter does. -/
theorem walk_congr {enter' : Location → Path → Except Location Location}
    (h : ∀ link target, t.link? link = some target → enter link target = enter' link target) :
    t.walk enter done way = t.walk enter' done way := by
  induction way generalizing done with
  | nil => rw [walk, walk]
  | cons name rest ih =>
    rw [walk, walk]
    split
    · exact ih
    · split
      · exact ih
      · rename_i hlink
        rw [h _ _ hlink]
        split
        · exact ih
        · rfl

/-- **The fuel is enough**: with as much of it as there are entries that are not entered, more of
it changes nothing. -/
theorem follow_enough {fuel : Nat} {entered : List Location} (hnodup : entered.Nodup)
    (hsub : entered ⊆ t.entries.map Prod.fst) (hfuel : t.entries.length ≤ fuel + entered.length) :
    t.follow fuel entered done way = t.follow (fuel + 1) entered done way := by
  induction fuel generalizing entered done way with
  | zero =>
    -- every link is entered, so none can be entered again
    refine walk_congr fun link target hlink => ?_
    split
    · rfl
    · rename_i hout
      have hmore : (link :: entered).Nodup := List.nodup_cons.2 ⟨by simpa using hout, hnodup⟩
      have hlength :=
        (List.subperm_of_subset hmore (List.cons_subset.2 ⟨mem_of_link? hlink, hsub⟩)).length_le
      rw [List.length_cons, List.length_map] at hlength
      omega
  | succ fuel ih =>
    refine walk_congr fun link target hlink => ?_
    split
    · rfl
    · rename_i hout
      refine ih (List.nodup_cons.2 ⟨by simpa using hout, hnodup⟩)
        (List.cons_subset.2 ⟨mem_of_link? hlink, hsub⟩) ?_
      rw [List.length_cons]
      omega

theorem follow_fuel {fuel : Nat} (h : t.entries.length ≤ fuel) :
    t.follow fuel [] done way = t.follow t.entries.length [] done way := by
  induction h with
  | refl => rfl
  | step hle ih => rw [← follow_enough .nil (List.nil_subset _) (by simpa using hle), ih]

end RepairLoop.FileTree

namespace RepairLoop

namespace Proposal

/-- The text of a file of a project. The place that the path leads to, with no link and no double
dots on its way, lies at or below the one that the root leads to, and the file there has the
text. -/
def OfProject (files : FileTree) (root path : Path) (text : String) : Prop :=
  ∃ place l content, files.resolve root = .ok place ∧ files.resolve path = .ok l ∧
    files.IsResolved l ∧ place <+: l ∧ files.content? l = some content ∧ readText content = .ok text

/-- **A source is empty or of the project**: what is read is the file that the path leads to, seen
from the root. -/
theorem readSource_inside {files : FileTree} {root : Path} {relative text : String}
    (h : readSource files root relative = .ok text) :
    text = "" ∨ OfProject files root (root.join (Path.ofString relative)) text := by
  unfold readSource at h
  simp only at h
  split at h
  · cases h
  split at h
  · cases h
  rename_i l hl
  split at h
  · rename_i hprefix
    have hresolved := FileTree.resolve_resolved hl
    have hinside : root.parts <+: l := List.isPrefixOf_iff_prefix.1 hprefix
    -- what lies above a resolved place is resolved, so the root leads where it says
    have hroot := FileTree.resolve_of_resolved (hresolved.above hinside)
    split at h
    · cases h
    split at h
    · rename_i content hcontent
      exact .inr ⟨_, l, content, hroot, hl, hresolved, hinside, hcontent, h⟩
    · exact .inl (Except.ok.inj h).symm
  · exact .inl (Except.ok.inj h).symm

/-! ## What a patch carries -/

/-- The patch carries what the draft comes to: its change, or what was asked for. -/
def Draft.CarriedBy (q : Patch) : Draft → Prop
  | .change c => q.originalCode = c.original ∧ q.patchedCode = c.patched ∧ q.diff = c.diff
  | .unusable _ asked =>
    q.originalCode = "" ∧ q.patchedCode = "" ∧ q.diff = (asked.map (·.text)).getD ""

theorem rejected_carries {dangers : List (Danger Float)} {p q : Patch} {completion reason : String}
    {asked : Option Diff.Extraction} {event : Event} {s s' : Supply}
    (h : (rejected dangers p completion reason asked).run s = (.ok (q, event), s')) :
    q.originalCode = p.originalCode ∧ q.patchedCode = p.patchedCode ∧
      q.diff = (asked.map (·.text)).getD "" := by
  unfold rejected at h
  obtain ⟨r, t, hr, h⟩ := run_ok_of_bind h
  obtain ⟨heq, -⟩ := run_ok_of_pure h
  obtain ⟨rfl, -⟩ := Prod.mk.inj heq
  obtain ⟨touched, rfl⟩ := invalidated_spec hr
  exact ⟨rfl, rfl, rfl⟩

/-- **A patch carries what its completion comes to.** -/
theorem patchOf_carries {read : String → Except Fault String} {settings : SafetySettings}
    {dangers : List (Danger Float)} {issue : Issue} {completion source : String} {index : Int}
    {q : Patch} {event : Event} {s s' : Supply}
    (h : (patchOf read settings dangers issue completion source index).run s =
      (.ok (q, event), s')) :
    ∃ d, draft read issue.filePath source completion = .ok d ∧ d.CarriedBy q := by
  unfold patchOf at h
  obtain ⟨p, t, hp, h⟩ := run_ok_of_bind h
  have hblank : ((blankPatch issue.id (explanation completion) index).run s).1 = p :=
    Except.ok.inj (congrArg (fun r => r.1) hp)
  obtain ⟨d, t', hd, h⟩ := run_ok_of_bind h
  obtain ⟨hd, -⟩ := run_ok_of_known hd
  refine ⟨d, hd, ?_⟩
  cases d with
  | change c =>
    obtain ⟨ho, hpatched, hdiff, -⟩ := scored_spec h
    exact ⟨ho, hpatched, hdiff⟩
  | unusable reason asked =>
    obtain ⟨ho, hpatched, hdiff⟩ := rejected_carries h
    rw [← hblank] at ho hpatched
    exact ⟨ho, hpatched, hdiff⟩

/-- A patch is made of files of a project and of a completion: its original is the text of such a
file, its patched version is what a section of the completion makes of that, and its diff states
the step from one to the other, or what the completion asked for. Each may be missing. -/
structure MadeOf (files : FileTree) (root : Path) (completion : String) (q : Patch) : Prop where
  original : q.originalCode = "" ∨ ∃ path, OfProject files root path q.originalCode
  patched : q.patchedCode = "" ∨ ∃ x, Diff.extract completion = .ok x ∧
    ∃ target ∈ x.files, Diff.apply q.originalCode target = .ok q.patchedCode
  diff : q.diff = "" ∨ ∃ x, Diff.extract completion = .ok x ∧
    (q.diff = x.text ∨ ∃ target ∈ x.files, q.diff = restated target q.originalCode q.patchedCode)

/-- What a draft of a source of the project comes to is made of the project. -/
theorem Draft.CarriedBy.madeOf {files : FileTree} {root : Path} {path source completion : String}
    {d : Draft} {q : Patch}
    (hsource : source = "" ∨ ∃ path, OfProject files root path source)
    (hdraft : draft (readSource files root) path source completion = .ok d)
    (hcarried : d.CarriedBy q) : MadeOf files root completion q := by
  rcases draft_cases hdraft with ⟨reason, rfl⟩ | ⟨x, target, original, hx, htarget, hread, rfl⟩
  · obtain ⟨ho, hp, hd⟩ := hcarried
    exact ⟨.inl ho, .inl hp, .inl hd⟩
  have hmem := mem_of_targetOf htarget
  rcases draftOf_cases x target original with ⟨reason, heq⟩ | ⟨patched, happlied, -, heq⟩
  · rw [heq] at hcarried
    obtain ⟨ho, hp, hd⟩ := hcarried
    exact ⟨.inl ho, .inl hp, .inr ⟨x, hx, .inl hd⟩⟩
  · rw [heq] at hcarried
    obtain ⟨ho, hp, hd⟩ := hcarried
    have horiginal : original = "" ∨ ∃ path, OfProject files root path original := by
      rcases hread with rfl | hread
      · exact hsource
      · exact (readSource_inside hread).imp_right fun h => ⟨_, h⟩
    refine ⟨ho ▸ horiginal, .inr ⟨x, hx, target, hmem, ?_⟩, .inr ⟨x, hx, .inr ⟨target, hmem, ?_⟩⟩⟩
    · rw [ho, hp]
      exact happlied
    · rw [ho, hp]
      exact hd

end Proposal

/-! ## What a proposer asks and makes -/

namespace Proposer

open Proposal (readSource patchRequest OfProject MadeOf)

variable (p : Proposer)

/-- What asking for a patch goes through: the source is read, the service is asked about it, and a
patch is built of the answer, all among the same files. -/
theorem propose_run {issue : Issue} {index : Int} {w w' : World} {q : Patch}
    (h : (p.propose issue index).run w = (.ok q, w')) :
    ∃ source answer completion v v', readSource w.files p.root issue.filePath = .ok source ∧
      (p.service.ask (patchRequest p.settings issue source)).run v = (.ok answer, v') ∧
      answer.text = .ok completion ∧ v'.files = w.files ∧
      (p.build issue completion source index).run v' = (.ok q, w') := by
  unfold propose at h
  obtain ⟨_, u, htoken, h⟩ := run_ok_of_bind h
  have htaken := (takeToken_still w).1.files
  rw [htoken] at htaken
  obtain ⟨source, v, hread, h⟩ := run_ok_of_bind h
  unfold read at hread
  rw [run_bind_of_ok (Act.files_run u), Act.ofExcept_run, htaken] at hread
  obtain ⟨hsource, rfl⟩ := Prod.mk.inj hread
  obtain ⟨answer, v', hask, h⟩ := run_ok_of_bind h
  have hasked := (p.service.ask_still (patchRequest p.settings issue source) u).1.files
  rw [hask] at hasked
  obtain ⟨completion, t, htext, h⟩ := run_ok_of_bind h
  rw [Act.ofExcept_run] at htext
  obtain ⟨hcompletion, rfl⟩ := Prod.mk.inj htext
  exact ⟨source, answer, completion, u, _, hsource, hask, hcompletion, hasked.trans htaken, h⟩

/-- A link in the project leads to its sources, another one out of it. -/
def linkedTree : FileTree :=
  ⟨[(["p", "src", "a.txt"], .file "a\nb\n".toUTF8), (["p", "link"], .link "src"),
    (["p", "out"], .link "../q"), (["q", "a.txt"], .file "secret\n".toUTF8)]⟩

/-- An issue of a file behind a link. -/
def linkedIssue : Issue := { (default : Issue) with filePath := "link/a.txt" }

/-- A service answers with a change of its second line. -/
def linkedWorld : World :=
  { Service.replying [.answer ("\x7b\"response\": \"--- a/link/a.txt\\n+++ b/link/a.txt\\n" ++
      "@@ -1,2 +1,2 @@\\n a\\n-b\\n+c\\n\"\x7d")] with
    files := linkedTree
    allowance := none }

/-- Who asks it. -/
def linkedProposer : Proposer :=
  ⟨Service.threefold .local_, ⟨.root, ["p"]⟩, default, default, []⟩

end Proposer

end RepairLoop
