import RepairLoop.Proofs.Files.Tree
import RepairLoop.Proofs.Trial.Results
/-!
# Trial — the workspace is only read

The gate works in a copy. What git and the commands do there stays below it, as long as
they write where they work (`Outside.Confined`); so does all that the gate itself does to the
files, and in the end the copy is taken away. So a validation leaves every file as
it was, wherever it ends (`validate_untraced`). All that it runs, it runs in the copy; the
one exception is the question whether the program for containers answers.
-/

namespace RepairLoop

open Act (Keeps Obeys)
open World (Still)

/-! ## What runs where -/

/-- Where a run of git works: in the directory that it makes a repository of, or else
where it is run. -/
def GitCall.scene (c : GitCall) : Path :=
  match c.arguments with
  | ["init", "--quiet", target] => c.place.join (Path.ofString target)
  | _ => c.place

theorem GitCall.scene_of_head {c : GitCall} (h : c.arguments.head? ≠ some "init") :
    c.scene = c.place := by
  unfold scene
  split
  · rename_i target htarget
    rw [htarget] at h
    exact absurd rfl h
  · rfl

/-- Changes that are made at a place all lie at or below a directory. -/
def Changes.Within (changes : Changes) (place root : Path) : Prop :=
  ∀ e ∈ changes, root.parts <+: (place.join e.1).collapsed.parts

/-- What works in a directory writes only there, and a probe does not write at all. -/
structure Outside.Confined (o : Outside) (root : Path) (probe : CommandCall → Prop) : Prop where
  git : ∀ calls c, c.scene = root → (o.git (calls ++ [c])).changes.Within c.place root
  command : ∀ calls c, c.place = root → (o.command (calls ++ [c])).changes.Within c.place root
  probe : ∀ calls c, probe c → (o.command (calls ++ [c])).changes = []

/-- A path as directories are given: from the top, without detours, and below it. -/
structure Path.Settled (p : Path) : Prop where
  absolute : p.isAbsolute = true
  collapsed : p.collapsed = p
  written : Path.ofString p.text = p
  below : p.parts ≠ []

namespace Path.Settled

variable {p : Path}

theorem join (h : p.Settled) (q : Path) : q.join p = p := by
  rw [Path.join, if_pos h.absolute]

end Path.Settled

/-- **Changes below a directory are nowhere seen outside of it.** -/
theorem World.changed_sameOutside {changes : Changes} {place root : Path} {t : FileTree}
    (hroot : root.Settled) (hparent : t.has root.parts.dropLast = true)
    (h : changes.Within place root) :
    FileTree.SameOutside root.parts t (World.changed t place changes) := by
  induction changes generalizing t with
  | nil => exact .refl t
  | cons e rest ih =>
    obtain ⟨path, change⟩ := e
    obtain ⟨hfirst, hrest⟩ := List.forall_mem_cons.1 h
    -- one change, and the directory around the root is still there
    have hone (u : FileTree) (hu : FileTree.SameOutside root.parts t u) :
        FileTree.SameOutside root.parts t (World.changed u place rest) := by
      refine hu.trans (ih ?_ hrest)
      rw [hu.has (FileTree.not_prefix_dropLast hroot.below)]
      exact hparent
    cases change with
    | file content => exact hone _ (.put hparent hfirst)
    | directory => exact hone _ (.makeDirectory hparent hfirst)
    | delete => exact hone _ (.remove hfirst)

/-! ## Work in a copy -/

namespace Gate

/-- The program for containers is asked whether it answers. -/
def Probes (g : Gate) (here : Path) (c : CommandCall) : Prop :=
  c.place = here ∧ c.words = [g.settings.container.executable, "info"]

/-- The copy is made at a place in an existing directory, and what is run keeps to where
it works. -/
structure Secluded (g : Gate) (root : Path) (w : World) : Prop where
  settled : root.Settled
  workshop : w.workshop = root
  parent : w.files.has root.parts.dropLast = true
  outside : w.outside.Confined root (g.Probes w.here)

/-- What was run between the two worlds was run at a place, except for a probe. -/
structure RunsAt (g : Gate) (root : Path) (w w' : World) : Prop where
  git : ∃ cs, w'.gitCalls = w.gitCalls ++ cs ∧ ∀ c ∈ cs, c.scene = root
  commands : ∃ cs, w'.commandCalls = w.commandCalls ++ cs ∧
    ∀ c ∈ cs, c.place = root ∨ g.Probes w.here c

/-- Everything but a place is as it was, and what was run was run there. -/
structure Spares (g : Gate) (root : Path) (w w' : World) : Prop extends RunsAt g root w w' where
  outside : w'.outside = w.outside
  here : w'.here = w.here
  workshop : w'.workshop = w.workshop
  files : FileTree.SameOutside root.parts w.files w'.files

variable {g : Gate} {root : Path} {w w' w'' : World}

namespace RunsAt

/-- Nothing was run. -/
theorem of_eq (hgit : w'.gitCalls = w.gitCalls) (hcommands : w'.commandCalls = w.commandCalls) :
    g.RunsAt root w w' :=
  ⟨⟨[], by rw [hgit, List.append_nil], fun _ hc => (List.not_mem_nil hc).elim⟩,
    ⟨[], by rw [hcommands, List.append_nil], fun _ hc => (List.not_mem_nil hc).elim⟩⟩

theorem trans (h : g.RunsAt root w w') (h' : g.RunsAt root w' w'') (hhere : w'.here = w.here) :
    g.RunsAt root w w'' := by
  obtain ⟨cs, hcs, hscene⟩ := h.git
  obtain ⟨ds, hds, hscene'⟩ := h'.git
  obtain ⟨es, hes, hplace⟩ := h.commands
  obtain ⟨fs, hfs, hplace'⟩ := h'.commands
  rw [hhere] at hplace'
  exact ⟨⟨cs ++ ds, by rw [hds, hcs, List.append_assoc], List.forall_mem_append.2 ⟨hscene, hscene'⟩⟩,
    ⟨es ++ fs, by rw [hfs, hes, List.append_assoc], List.forall_mem_append.2 ⟨hplace, hplace'⟩⟩⟩

end RunsAt

namespace Spares

/-- Only the files were changed. -/
theorem of_files {f : FileTree → FileTree}
    (h : FileTree.SameOutside root.parts w.files (f w.files)) :
    g.Spares root w { w with files := f w.files } :=
  ⟨.of_eq rfl rfl, rfl, rfl, rfl, h⟩

theorem of_still (h : Still w w') : g.Spares root w w' :=
  ⟨.of_eq h.gitCalls h.commandCalls, h.apart.outside, h.here, h.workshop, h.files ▸ .refl _⟩

theorem trans (h : g.Spares root w w') (h' : g.Spares root w' w'') : g.Spares root w w'' :=
  ⟨h.toRunsAt.trans h'.toRunsAt h.here, h'.outside.trans h.outside, h'.here.trans h.here,
    h'.workshop.trans h.workshop, h.files.trans h'.files⟩

end Spares

/-- What spares the rest keeps it so that the next step may spare it. -/
theorem Secluded.on (hw : g.Secluded root w) (h : g.Spares root w w') : g.Secluded root w' := by
  refine ⟨hw.settled, h.workshop.trans hw.workshop, ?_, ?_⟩
  · rw [h.files.has (FileTree.not_prefix_dropLast hw.settled.below)]
    exact hw.parent
  · rw [h.outside, h.here]
    exact hw.outside

/-- The work spares everything but the place, if it starts in a world where it may. -/
def Sparing (g : Gate) (root : Path) (w w' : World) : Prop :=
  g.Secluded root w → g.Spares root w w'

/-- And if nothing stood at the place, nothing stands there in the end. -/
def Clearing (g : Gate) (root : Path) (w w' : World) : Prop :=
  g.Secluded root w → g.Spares root w w' ∧
    (w.files.has root.parts = false → w'.files.has root.parts = false)

instance (g : Gate) (root : Path) : IsPreorder World (g.Sparing root) where
  refl w _ := .of_still (refl_of Still w)
  trans _ _ _ h h' hw := (h hw).trans (h' (hw.on (h hw)))

instance (g : Gate) (root : Path) : IsPreorder World (g.Clearing root) where
  refl w _ := ⟨.of_still (refl_of Still w), id⟩
  trans _ _ _ h h' hw := by
    obtain ⟨hspares, hclear⟩ := h hw
    obtain ⟨hspares', hclear'⟩ := h' (hw.on hspares)
    exact ⟨hspares.trans hspares', fun hnew => hclear' (hclear hnew)⟩

theorem setFiles_sparing {f : FileTree → FileTree}
    (h : ∀ t : FileTree, t.has root.parts.dropLast = true →
      FileTree.SameOutside root.parts t (f t)) : Keeps (g.Sparing root) (Act.setFiles f) :=
  Keeps.modify fun w hw => .of_files (h w.files hw.parent)

/-- **Git spares everything but the directory where it works.** -/
theorem git_sparing {c : GitCall} (hscene : c.scene = root) :
    Keeps (g.Sparing root) (Act.git c) := by
  intro w
  rw [Act.git_run]
  refine ⟨fun hw => ?_, fun _ _ => trivial⟩
  have hnone : g.RunsAt root w w := .of_eq rfl rfl
  exact ⟨⟨⟨[c], rfl, List.forall_mem_singleton.2 hscene⟩, hnone.commands⟩, rfl, rfl, rfl,
    World.changed_sameOutside hw.settled hw.parent (hw.outside.git w.gitCalls c hscene)⟩

/-- And so does a command. -/
theorem command_sparing {c : CommandCall} (hplace : c.place = root) :
    Keeps (g.Sparing root) (Act.command c) := by
  intro w
  rw [Act.command_run]
  refine ⟨fun hw => ?_, fun _ _ => trivial⟩
  have hnone : g.RunsAt root w w := .of_eq rfl rfl
  exact ⟨⟨hnone.git, [c], rfl, List.forall_mem_singleton.2 (.inl hplace)⟩, rfl, rfl, rfl,
    World.changed_sameOutside hw.settled hw.parent (hw.outside.command w.commandCalls c hplace)⟩

/-- **A probe changes nothing.** -/
theorem isAvailable_sparing :
    Keeps (g.Sparing root) (Sandbox.isAvailable g.settings.container) := by
  refine Obeys.get_bind fun w => ⟨fun hw => ?_, fun _ _ => trivial⟩
  have hnone : g.RunsAt root w w := .of_eq rfl rfl
  split
  · generalize hc : (⟨w.here, [g.settings.container.executable, "info"], Sandbox.serviceTimeout⟩ :
      CommandCall) = c
    have hprobe : g.Probes w.here c := hc ▸ ⟨rfl, rfl⟩
    have hchanges := hw.outside.probe w.commandCalls c hprobe
    have hfiles : (Act.afterCommand c w).files = w.files := by
      rw [Act.afterCommand]
      simp only [hchanges, World.changed]
    have hrun : ((CommandResult.succeeded <$> Command.runWords w.here
        [g.settings.container.executable, "info"] Sandbox.serviceTimeout).run w).2 =
          Act.afterCommand c w := by
      rw [Act.map_run_snd, Command.runWords, if_neg (by simp), Act.map_run_snd, hc, Act.command_run]
    rw [hrun]
    exact ⟨⟨hnone.git, [c], rfl, List.forall_mem_singleton.2 (.inr hprobe)⟩, rfl, rfl, rfl,
      hfiles ▸ .refl _⟩
  · exact .of_still (refl_of Still w)

end Gate

/-! ### The repository of the copy -/

namespace Repository

variable {g : Gate} {root : Path} {r : Repository}

/-- What a diff may name lies below the root of the repository. -/
theorem pathOf_below {path : String} (h : Diff.Named path) :
    r.root.parts <+: (r.pathOf path).parts := by
  have hrelative : (Path.ofString path).isAbsolute = false := by
    by_contra habsolute
    have hrefused : Diff.checkPath (some path) = .error (.absolutePath path) :=
      if_pos (Bool.not_eq_false _ ▸ habsolute)
    rw [h.safe] at hrefused
    cases hrefused
  rw [pathOf, Path.join, hrelative]
  exact List.prefix_append _ _

theorem restoreOne_sameOutside {t u : FileTree} {path : String} {content : Option ByteArray}
    (hne : r.root.parts ≠ []) (hparent : t.has r.root.parts.dropLast = true)
    (hnamed : Diff.Named path) (h : r.restoreOne t path content = .ok u) :
    FileTree.SameOutside r.root.parts t u := by
  cases content with
  | none => exact FileTree.unlink_sameOutside (pathOf_below hnamed) h
  | some content => exact FileTree.writeDeep_sameOutside hne hparent (pathOf_below hnamed) h

/-- **What a diff names is put back below the root.** -/
theorem restore_sparing {before : Snapshot} (hnamed : before.Named) :
    Keeps (g.Sparing r.root) (r.restore before) := by
  induction before with
  | nil => exact .pure trivial
  | cons entry rest ih =>
    obtain ⟨path, content⟩ := entry
    obtain ⟨hfirst, hrest⟩ := List.forall_mem_cons.1 hnamed
    intro w
    rw [restore, run_bind_of_ok (Act.files_run w), run_bind_eq, Act.ofExcept_run]
    cases hone : r.restoreOne w.files path content with
    | error e => exact ⟨refl_of (g.Sparing r.root) w, fun _ _ => trivial⟩
    | ok u =>
      refine Obeys.modify_bind (fun hw => ?_) (ih hrest)
      have hone' : FileTree.SameOutside r.root.parts w.files u :=
        restoreOne_sameOutside hw.settled.below hw.parent hfirst hone
      exact .of_files (f := fun _ => u) hone'

/-- **Routine work spares everything but the root.** -/
theorem bears_sparing (hroot : r.root = root) : r.Bears (g.Sparing root) := by
  subst hroot
  refine ⟨fun w w' h _ => .of_still h, fun arguments patch hroutine => ?_, fun _ => restore_sparing⟩
  refine Gate.git_sparing (GitCall.scene_of_head fun hinit => ?_)
  obtain ⟨word, hword, hhead⟩ := hroutine.head
  obtain rfl := Option.some.inj (hhead.symm.trans hinit)
  exact absurd hword (by decide)

variable (settings : GitSettings)

theorem at_sparing (hroot : root.Settled) :
    Obeys (g.Sparing root) (fun r => r.root = root) (at_ root settings) := by
  have hfiles : Keeps (g.Sparing root) Act.files := Act.files_still.weaken fun _ _ h _ => .of_still h
  refine Keeps.get.bind fun w => hfiles.bind fun files => ?_
  split
  · refine .pure ?_
    show (w.here.join root).collapsed = root
    rw [hroot.join, hroot.collapsed]
  · exact .throw

theorem create_sparing (hroot : root.Settled) :
    Obeys (g.Sparing root) (fun r => r.root = root) (create root settings) := by
  refine Keeps.get.bind fun w => ?_
  have habsolute : (w.absolute root).collapsed = root := by
    rw [World.absolute, hroot.join, hroot.collapsed]
  simp only [habsolute]
  have hinit : Keeps (g.Sparing root)
      (Act.git ⟨w.here, [], ["init", "--quiet", root.text], none⟩) := by
    refine Gate.git_sparing ?_
    show w.here.join (Path.ofString root.text) = root
    rw [hroot.written, hroot.join]
  refine hinit.map.bind fun out => ?_
  split
  · exact at_sparing settings hroot
  · exact .throw

end Repository

/-! ### The gate -/

namespace Gate

variable {g : Gate} {root : Path} {w : World}

theorem ownFiles_below (root : Path) : root.parts <+: Repository.ownFiles root := by
  have hrelative : (Path.ofString ".git").isAbsolute = false := by decide +kernel
  rw [Repository.ownFiles, Path.join, hrelative]
  exact List.prefix_append _ _

theorem prepareAndApply_sparing (hroot : root.Settled) (diff : String) :
    Keeps (g.Sparing root) (g.prepareAndApply root diff) := by
  have hmarker : Keeps (g.Sparing root) (Act.setFiles fun t =>
      if t.isFile (Repository.ownFiles root) then t.remove (Repository.ownFiles root) else t) := by
    refine setFiles_sparing fun t _ => ?_
    split
    · exact .remove (ownFiles_below root)
    · exact .refl t
  have hfiles : Keeps (g.Sparing root) Act.files := Act.files_still.weaken fun _ _ h _ => .of_still h
  have happly (r : Repository) (hr : r.root = root) : Keeps (g.Sparing root) (do
      let _ ← r.commitBaseline baselineMessage
      r.applyDiff diff true false) :=
    ((Repository.bears_sparing hr).commitBaseline _).bind fun _ =>
      (Repository.bears_sparing hr).applyDiff _ _ _
  refine hmarker.bind fun _ => hfiles.bind fun files => ?_
  split
  · exact (Repository.at_sparing g.git hroot).bind happly
  · exact (Repository.create_sparing g.git hroot).bind happly

/-- A tree that is placed somewhere shows nowhere else. -/
theorem placed_sameOutside {t part : FileTree} {place : Location} (hne : place ≠ [])
    (hparent : t.has place.dropLast = true) :
    FileTree.SameOutside place t (Sandbox.placed t place part) := by
  have hfold (es : List (Location × Entry)) (u : FileTree)
      (hu : FileTree.SameOutside place t u) : FileTree.SameOutside place t
        (es.foldl (fun u e => u.put (place ++ e.1) e.2) u) := by
    induction es generalizing u with
    | nil => exact hu
    | cons e es ih =>
      refine ih _ (hu.trans (.put ?_ (List.prefix_append _ _)))
      rw [hu.has (FileTree.not_prefix_dropLast hne)]
      exact hparent
  exact hfold _ _ (.makeDirectory hparent (List.prefix_refl _))

/-- **What was placed in a new directory and is taken away again** leaves the tree as it was. -/
theorem remove_placed {t part : FileTree} {place : Location} (hnew : t.has place = false)
    (hparent : t.has place.dropLast = true) : (Sandbox.placed t place part).remove place = t := by
  have hput (u : FileTree) {l : Location} (hl : place <+: l) (e : Entry) :
      (u.put l e).entries.filter (fun x => !place.isPrefixOf x.1) =
        u.entries.filter (fun x => !place.isPrefixOf x.1) :=
    FileTree.filter_put (f := fun l => !place.isPrefixOf l) (by simpa using hl) u e
  have hfold (es : List (Location × Entry)) (u : FileTree) :
      (es.foldl (fun u e => u.put (place ++ e.1) e.2) u).entries.filter
          (fun x => !place.isPrefixOf x.1) =
        u.entries.filter (fun x => !place.isPrefixOf x.1) := by
    induction es generalizing u with
    | nil => rfl
    | cons e es ih => exact (ih _).trans (hput u (List.prefix_append _ _) e.2)
  have hall : t.entries.filter (fun x => !place.isPrefixOf x.1) = t.entries := by
    refine List.filter_eq_self.2 fun e he => ?_
    rw [Bool.not_eq_true', Bool.eq_false_iff]
    exact fun hl => Bool.eq_false_iff.1 hnew
      (FileTree.has_iff.2 (.inr ⟨e, he, List.isPrefixOf_iff_prefix.1 hl⟩))
  have hrest : (Sandbox.placed t place part).entries.filter (fun x => !place.isPrefixOf x.1) =
      t.entries := by
    refine (hfold _ _).trans ?_
    rw [FileTree.makeDirectory, if_neg (by simp [hnew]), hput t (List.prefix_refl _), hall]
  have hback : t.makeDirectory place.dropLast = t := if_pos hparent
  rw [FileTree.remove]
  simp only [hrest]
  split
  · exact hback
  · rfl

/-- **Work in a copy spares everything else**, and in the end the copy is gone. -/
theorem inCopy_clearing {α : Type} {work : Sandbox → Act α} (hroot : root.Settled)
    (h : ∀ s, s.root = root → Keeps (g.Sparing root) (work s)) :
    Keeps (g.Clearing root) (g.inCopy work) := by
  have hplaced : Keeps (g.Sparing root) (Act.setFiles fun t => Sandbox.placed t root.parts
      (Sandbox.copied g.settings.sandboxIgnore (t.below g.workspace.parts))) :=
    setFiles_sparing fun t hparent => placed_sameOutside hroot.below hparent
  have hbody : Keeps (g.Sparing root) (do
      Act.setFiles fun t => Sandbox.placed t root.parts
        (Sandbox.copied g.settings.sandboxIgnore (t.below g.workspace.parts))
      let contained ←
        if g.settings.container.enabled then Sandbox.isAvailable g.settings.container else pure false
      work ⟨root, if contained then some g.settings.container else none⟩) :=
    hplaced.bind fun _ => Keeps.either isAvailable_sparing (.pure trivial) fun _ => h _ rfl
  refine Obeys.get_bind fun w => ⟨fun hw => ?_, fun _ _ => trivial⟩
  rw [hw.workshop, Act.finally_setFiles_run]
  refine ⟨((hbody w).1 hw).trans ?_, fun _ => ?_⟩
  · exact Spares.of_files (f := fun t => t.remove root.parts) (.remove (List.prefix_refl _))
  · exact FileTree.entry?_eq_none.1
      (FileTree.entry?_remove_of_prefix (List.prefix_refl _) hroot.below)

/-- **All that the gate does is sparing.** -/
theorem bears_sparing (g : Gate) (hroot : root.Settled) :
    g.Bears (· = root) (g.Sparing root) (g.Clearing root) where
  still _ _ h _ := .of_still h
  command _ hplace := command_sparing hplace
  prepare place diff hplace := by
    obtain rfl := hplace
    exact prepareAndApply_sparing hroot diff
  idle _ _ h _ := ⟨.of_still h, fun hnew => by rwa [h.files]⟩
  copies _ h := inCopy_clearing hroot h

/-! ## Whole validations -/

/-- Every file is as it was, and what was run was run at a place. -/
structure Untraced (g : Gate) (root : Path) (w w' : World) : Prop extends RunsAt g root w w' where
  files : ∀ l, w'.files.entry? l = w.files.entry? l

/-- Where nothing stands before and after, and all else is spared, there is no trace. -/
theorem Clearing.untraced {w' : World} (h : g.Clearing root w w') (hw : g.Secluded root w)
    (hnew : w.files.has root.parts = false) : g.Untraced root w w' := by
  obtain ⟨hspares, hclear⟩ := h hw
  refine ⟨hspares.toRunsAt, fun l => ?_⟩
  by_cases hl : root.parts <+: l
  · have hgone {t : FileTree} (ht : t.has root.parts = false) : t.entry? l = none := by
      rw [FileTree.entry?_eq_none, ← Bool.not_eq_true]
      intro hthere
      rw [FileTree.has_above hthere hl] at ht
      cases ht
    rw [hgone hnew, hgone (hclear hnew)]
  · exact hspares.files l hl

/-- A file that points to a repository elsewhere is taken away. -/
def unpointed (root : Path) (t : FileTree) : FileTree :=
  if t.isFile (Repository.ownFiles root) then t.remove (Repository.ownFiles root) else t

theorem isFile_unpointed (hroot : root.Settled) (t : FileTree) :
    (unpointed root t).isFile (Repository.ownFiles root) = false := by
  have hne : Repository.ownFiles root ≠ [] := by
    intro hnil
    exact hroot.below (List.prefix_nil.1 (hnil ▸ ownFiles_below root))
  rw [unpointed]
  split
  · rw [FileTree.isFile, FileTree.content?,
      FileTree.entry?_remove_of_prefix (List.prefix_refl _) hne]
    rfl
  · rename_i hfile
    exact Bool.eq_false_iff.2 hfile

/-- **A diff is applied as if no file pointed to a repository elsewhere.** -/
theorem prepareAndApply_unpointed (hroot : root.Settled) (diff : String) (w : World) :
    (g.prepareAndApply root diff).run w =
      (g.prepareAndApply root diff).run { w with files := unpointed root w.files } := by
  have hset (v : World) : (Act.setFiles (unpointed root)).run v =
      (.ok (), { v with files := unpointed root v.files }) := rfl
  have hagain : unpointed root (unpointed root w.files) = unpointed root w.files :=
    if_neg (by rw [isFile_unpointed hroot]; simp)
  show (Act.setFiles (unpointed root) >>= fun _ => _).run w =
    (Act.setFiles (unpointed root) >>= fun _ => _).run _
  rw [run_bind_of_ok (hset _), run_bind_of_ok (hset _), hagain]

/-- **A validation leaves every file as it was**, wherever it ends, if the copy is made in a
new directory and what is run keeps to where it works; and git and the commands are run in
the copy. A file in the copy that points to a repository elsewhere makes no difference. -/
theorem validate_untraced (g : Gate) {w : World} (hroot : w.workshop.Settled)
    (hparent : w.files.has w.workshop.parts.dropLast = true)
    (hnew : w.files.has w.workshop.parts = false)
    (houtside : w.outside.Confined w.workshop (g.Probes w.here)) :
    (∀ p, g.Untraced w.workshop w ((g.validate p).run w).2) ∧
      (∀ ps, g.Untraced w.workshop w ((g.validateMany ps).run w).2) ∧
      ∀ diff v, (g.prepareAndApply w.workshop diff).run v =
        (g.prepareAndApply w.workshop diff).run
          { v with files := unpointed w.workshop v.files } := by
  have hw : g.Secluded w.workshop w := ⟨hroot, rfl, hparent, houtside⟩
  have hbears := g.bears_sparing hroot
  refine ⟨fun p => ?_, fun ps => ?_, fun diff v => prepareAndApply_unpointed hroot diff v⟩
  · exact Clearing.untraced (hbears.validate p w).1 hw hnew
  · exact Clearing.untraced (hbears.validateMany ps w).1 hw hnew

end Gate

namespace Small

/-- The gate in front of a workspace whose `.git` points to a repository elsewhere. -/
def linkedGate : Gate := { slowGate with
  settings := { slowGate.settings with measurePerformance := true } }

/-- The world of that gate: every command writes a file where it is run. -/
def linkedWorld : World := { slowWorld with
  files := ⟨[(["project", "f.txt"], .file "a\nb\n".toUTF8),
    (["project", ".git"], .file "gitdir: /elsewhere".toUTF8)]⟩
  outside := { slowWorld.outside with command := command } }
where
  /-- A command that succeeds and leaves a file. -/
  command (calls : List CommandCall) : CommandReply :=
    ⟨some 0, "", "", 1, false, false,
      if calls.getLast?.map CommandCall.place = some ⟨.root, ["copy"]⟩ then
        [(⟨.relative, ["out.txt"]⟩, .file "built".toUTF8)]
      else [], none⟩

theorem settled_workshop : linkedWorld.workshop.Settled :=
  ⟨by decide +kernel, by decide +kernel, by decide +kernel, by decide +kernel⟩

/-- Git and the commands of the linked workspace keep to the copy. -/
theorem linkedWorld_confined :
    linkedWorld.outside.Confined linkedWorld.workshop (linkedGate.Probes linkedWorld.here) := by
  refine ⟨fun calls c _ => ?_, fun calls c hplace => ?_, fun calls c hprobe => ?_⟩
  · show Changes.Within (git (calls ++ [c])).changes _ _
    unfold git
    split
    · have hjoin : c.place.join ⟨.root, ["copy", ".git"]⟩ = ⟨.root, ["copy", ".git"]⟩ := if_pos rfl
      refine List.forall_mem_singleton.2 ?_
      rw [hjoin]
      decide +kernel
    all_goals exact fun _ he => (List.not_mem_nil he).elim
  · show Changes.Within (linkedWorld.command (calls ++ [c])).changes _ _
    rw [hplace]
    unfold linkedWorld.command
    simp only
    split
    · refine List.forall_mem_singleton.2 ?_
      decide +kernel
    · exact fun _ he => (List.not_mem_nil he).elim
  · have hplace : (calls ++ [c]).getLast?.map CommandCall.place ≠ some ⟨.root, ["copy"]⟩ := by
      rw [List.getLast?_concat, Option.map_some, hprobe.1]
      decide
    exact if_neg hplace

end Small

/-- In the linked workspace commands write files in the copy, and nothing is left of them. -/
theorem Gate.validate_untraced_linked :
    let w := Small.linkedWorld
    (w.workshop.Settled ∧ w.files.has w.workshop.parts.dropLast = true ∧
      w.files.has w.workshop.parts = false ∧
      w.outside.Confined w.workshop (Small.linkedGate.Probes w.here)) ∧
    Small.linkedGate.Untraced w.workshop w ((Small.linkedGate.validate Small.change).run w).2 ∧
    Small.linkedGate.Untraced w.workshop w
      ((Small.linkedGate.validateMany [Small.change]).run w).2 ∧
    ((Small.linkedGate.validate Small.change).run w).2.commandCalls.length = 2 := by
  intro w
  have hparent : w.files.has w.workshop.parts.dropLast = true := by decide +kernel
  have hnew : w.files.has w.workshop.parts = false := by decide +kernel
  have huntraced := Gate.validate_untraced Small.linkedGate Small.settled_workshop hparent hnew
    Small.linkedWorld_confined
  have hcommands : ((Small.linkedGate.validate Small.change).run w).2.commandCalls.length = 2 := by
    decide +kernel
  exact ⟨⟨Small.settled_workshop, hparent, hnew, Small.linkedWorld_confined⟩,
    huntraced.1 Small.change, huntraced.2.1 [Small.change], hcommands⟩

end RepairLoop
