import RepairLoop.Proofs.Repository.Runs
import RepairLoop.Proofs.Text.Encoded
import RepairLoop.Proofs.Text.Lines
/-!
# Repository — the list of changed files, read back

Git lists a changed file with a letter for the index, a letter for the working tree and its path.
If either letter says that the file was renamed or copied, the path that it came from follows,
and a null character ends each of these fields. The reader goes by the first letter: where it says
so, the field behind is passed over (`ofPieces_fields`). Where only the second one does, the field
behind is taken for an entry (`ofPieces_misread`), and from there on the reader stays behind
(`ofPieces_behind`). So the changes are read as they were listed exactly if each that moved in the
working tree moved in the index as well (`Repository.status_lossless_iff`).
-/

namespace RepairLoop

/-! ## What git lists -/

/-- A path that can be listed: it is not empty and holds no null character. -/
structure ListedPath where
  text : String
  ne_empty : text ≠ ""
  unbroken : '\x00' ∉ text.toList

/-- The letter of a file that was renamed or copied. -/
def IsMove (letter : Char) : Prop := letter = 'R' ∨ letter = 'C'

instance : DecidablePred IsMove := fun letter =>
  inferInstanceAs (Decidable (letter = 'R' ∨ letter = 'C'))

/-- A changed file: what became of it in the index and in the working tree, its path, and the
path that it came from if it was renamed or copied in either. -/
structure ListedChange where
  index : Char
  tree : Char
  path : ListedPath
  source : Option ListedPath
  sourced : source.isSome = true ↔ IsMove index ∨ IsMove tree

namespace ListedChange

variable (c : ListedChange) {p : List Char}

/-- What is to be read of the change. -/
def entry : StatusEntry := ⟨String.ofList [c.index, c.tree], c.path.text⟩

/-- The field that holds code and path. -/
def line : List Char := c.index :: c.tree :: ' ' :: c.path.text.toList

/-- The fields of the change. -/
def fields : List (List Char) := c.line :: c.source.toList.map (·.text.toList)

/-- The list of some changes, each field ended by a null character. -/
def listing (cs : List ListedChange) : String :=
  String.ofList ((cs.flatMap fields).flatMap (· ++ ['\x00']))

/-- The code holds no null character. -/
def Legible : Prop := c.index ≠ '\x00' ∧ c.tree ≠ '\x00'

/-- If the file moved in the working tree, it moved in the index as well. -/
def InStep : Prop := IsMove c.tree → IsMove c.index

/-- A file that moved came from somewhere. -/
theorem exists_source (h : IsMove c.index ∨ IsMove c.tree) : ∃ s, c.source = some s :=
  Option.isSome_iff_exists.1 (c.sourced.2 h)

theorem fields_of_none (h : c.source = none) : c.fields = [c.line] := by
  rw [fields, h]
  rfl

theorem fields_of_some {s : ListedPath} (h : c.source = some s) :
    c.fields = [c.line, s.text.toList] := by
  rw [fields, h]
  rfl

theorem mem_fields (hp : p ∈ c.fields) :
    p = c.line ∨ ∃ s, c.source = some s ∧ p = s.text.toList := by
  simpa [fields, eq_comm] using hp

theorem fields_ne_nil (hp : p ∈ c.fields) : p ≠ [] := by
  obtain rfl | ⟨s, -, rfl⟩ := c.mem_fields hp
  · exact List.cons_ne_nil _ _
  · simpa using s.ne_empty

theorem fields_unbroken (hc : c.Legible) (hp : p ∈ c.fields) : '\x00' ∉ p := by
  obtain rfl | ⟨s, -, rfl⟩ := c.mem_fields hp
  · simp [line, hc.1.symm, hc.2.symm, c.path.unbroken]
  · exact s.unbroken

end ListedChange

namespace StatusEntry

variable {c : ListedChange} {cs : List ListedChange} {p : List Char} {ps : List (List Char)}

/-! ## One change -/

theorem ofPiece_line (c : ListedChange) : ofPiece c.line = c.entry := by
  simp [ofPiece, ListedChange.line, ListedChange.entry]

/-- A field that reads as the change begins with the same letter. -/
theorem hasSource_iff (h : ofPiece p = c.entry) : hasSource p = true ↔ IsMove c.index := by
  have hcode : p.take 2 = [c.index, c.tree] :=
    String.ofList_injective (congrArg StatusEntry.code h)
  cases p with
  | nil => cases hcode
  | cons letter rest =>
    rw [← (List.cons.inj hcode).1]
    simp [hasSource, IsMove]

theorem ofPieces_cons (h : ¬ hasSource p = true) (ps : List (List Char)) :
    ofPieces (p :: ps) = ofPiece p :: ofPieces ps := by
  cases ps with
  | nil => rfl
  | cons q ps => rw [ofPieces, if_neg h]

theorem ofPieces_cons_cons (h : hasSource p = true) (q : List Char) (ps : List (List Char)) :
    ofPieces (p :: q :: ps) = ofPiece p :: ofPieces ps := by
  rw [ofPieces, if_pos h]

/-- **One change is read, and the reader stands behind its fields.** -/
theorem ofPieces_fields (hstep : c.InStep) (ps : List (List Char)) :
    ofPieces (c.fields ++ ps) = c.entry :: ofPieces ps := by
  have hline := hasSource_iff (ofPiece_line c)
  cases hsource : c.source with
  | none =>
    have hstays : ¬ IsMove c.index := by
      intro hmoved
      obtain ⟨s, hs⟩ := c.exists_source (.inl hmoved)
      cases hsource.symm.trans hs
    rw [c.fields_of_none hsource, List.singleton_append, ofPieces_cons (mt hline.1 hstays),
      ofPiece_line]
  | some s =>
    have hmoved : IsMove c.index := (c.sourced.1 (by rw [hsource]; rfl)).elim id hstep
    rw [c.fields_of_some hsource, List.cons_append, List.singleton_append,
      ofPieces_cons_cons (hline.2 hmoved), ofPiece_line]

/-- Where only the working tree moved, the path that the file came from is read as an entry. -/
theorem ofPieces_misread (hstep : ¬ c.InStep) (ps : List (List Char)) :
    ∃ p, ofPieces (c.fields ++ ps) = c.entry :: ofPieces (p :: ps) := by
  obtain ⟨hmoved, hstays⟩ := Classical.not_imp.1 hstep
  obtain ⟨s, hsource⟩ := c.exists_source (.inr hmoved)
  refine ⟨s.text.toList, ?_⟩
  rw [c.fields_of_some hsource, List.cons_append, List.singleton_append,
    ofPieces_cons (mt (hasSource_iff (ofPiece_line c)).1 hstays), ofPiece_line]

/-! ## All changes -/

theorem ofPieces_ne_nil (h : ps ≠ []) : ofPieces ps ≠ [] := by
  unfold ofPieces
  split
  · exact (h rfl).elim
  · exact List.cons_ne_nil _ _
  · exact List.cons_ne_nil _ _

/-- **A reader that is behind stays behind.** With a field left over in front of the changes it
does not read them as they are: it may take the field for the first change, but then there is a
field left over in front of the others. -/
theorem ofPieces_behind (hps : ps ≠ []) (cs : List ListedChange) :
    ofPieces (ps ++ cs.flatMap ListedChange.fields) ≠ cs.map ListedChange.entry := by
  induction cs generalizing ps with
  | nil => simpa using ofPieces_ne_nil hps
  | cons c cs ih =>
    obtain ⟨p, ps, rfl⟩ := List.exists_cons_of_ne_nil hps
    have hleft (ps : List (List Char)) : ps ++ c.fields ≠ [] :=
      List.append_ne_nil_of_right_ne_nil ps (List.cons_ne_nil _ _)
    rw [List.flatMap_cons, List.map_cons]
    intro h
    by_cases hsource : hasSource p = true
    · cases ps with
      | nil =>
        -- the code and path of the change are passed over, but not the path that it came from
        rw [List.singleton_append, ListedChange.fields, List.cons_append,
          ofPieces_cons_cons hsource] at h
        obtain ⟨hfirst, hrest⟩ := List.cons.inj h
        obtain ⟨s, hs⟩ := c.exists_source (.inl ((hasSource_iff hfirst).1 hsource))
        rw [hs] at hrest
        exact ih (List.cons_ne_nil _ _) hrest
      | cons q ps =>
        rw [List.cons_append, List.cons_append, ofPieces_cons_cons hsource,
          ← List.append_assoc] at h
        exact ih (hleft ps) (List.cons.inj h).2
    · rw [List.cons_append, ofPieces_cons hsource, ← List.append_assoc] at h
      exact ih (hleft ps) (List.cons.inj h).2

/-- **The fields of some changes are read as the changes** exactly if the reader stays in step
with each of them. -/
theorem ofPieces_eq_iff (cs : List ListedChange) :
    ofPieces (cs.flatMap ListedChange.fields) = cs.map ListedChange.entry ↔
      ∀ c ∈ cs, c.InStep := by
  induction cs with
  | nil => simp [ofPieces]
  | cons c cs ih =>
    rw [List.flatMap_cons, List.map_cons, List.forall_mem_cons, ← ih]
    by_cases hstep : c.InStep
    · rw [ofPieces_fields hstep, List.cons_eq_cons]
      exact ⟨fun h => ⟨hstep, h.2⟩, fun h => ⟨rfl, h.2⟩⟩
    · obtain ⟨p, hp⟩ := ofPieces_misread hstep (cs.flatMap ListedChange.fields)
      rw [hp]
      refine ⟨fun h => ?_, fun h => (hstep h.1).elim⟩
      exact (ofPieces_behind (List.cons_ne_nil p []) cs (List.cons.inj h).2).elim

/-! ## The text -/

/-- What is read is read from one of the fields. -/
theorem mem_ofPieces {e : StatusEntry} (h : e ∈ ofPieces ps) : ∃ p ∈ ps, e = ofPiece p := by
  fun_induction ofPieces ps with
  | case1 => cases h
  | case2 p => exact ⟨p, List.mem_singleton_self p, List.mem_singleton.1 h⟩
  | case3 p q rest hpassed hread =>
    rcases List.mem_cons.1 h with rfl | h
    · exact ⟨p, List.mem_cons_self, rfl⟩
    · split at h
      · obtain ⟨o, ho, he⟩ := hpassed h
        exact ⟨o, List.mem_cons_of_mem _ (List.mem_cons_of_mem _ ho), he⟩
      · obtain ⟨o, ho, he⟩ := hread h
        exact ⟨o, List.mem_cons_of_mem _ ho, he⟩

/-- No code that is read holds a null character. -/
theorem code_of_mem_ofListing {text : List Char} {e : StatusEntry} (h : e ∈ ofListing text) :
    '\x00' ∉ e.code.toList := by
  obtain ⟨p, hp, rfl⟩ := mem_ofPieces h
  have hpiece := Text.notMem_of_mem_pieces (List.mem_filter.1 hp).1
  simpa [ofPiece] using fun hnull => hpiece (List.mem_of_mem_take hnull)

/-- Where no code holds a null character, the list is cut into the fields. -/
theorem ofListing_listing (h : ∀ c ∈ cs, c.Legible) :
    ofListing (ListedChange.listing cs).toList = ofPieces (cs.flatMap ListedChange.fields) := by
  have hunbroken : ∀ p ∈ cs.flatMap ListedChange.fields, '\x00' ∉ p := by
    intro p hp
    obtain ⟨c, hc, hp⟩ := List.mem_flatMap.1 hp
    exact c.fields_unbroken (h c hc) hp
  have hpieces := Text.pieces_ended hunbroken []
  rw [List.append_nil] at hpieces
  have hkept : (cs.flatMap ListedChange.fields).filter (fun p => !p.isEmpty) =
      cs.flatMap ListedChange.fields := by
    refine List.filter_eq_self.2 fun p hp => ?_
    obtain ⟨c, -, hp⟩ := List.mem_flatMap.1 hp
    simpa using c.fields_ne_nil hp
  have hlast : (Text.pieces '\x00' []).filter (fun p => !p.isEmpty) = [] := rfl
  rw [ofListing, ListedChange.listing, String.toList_ofList, hpieces, List.filter_append, hkept,
    hlast, List.append_nil]

/-- **A list is read as what was listed** exactly if no code holds a null character and the
reader stays in step. -/
theorem ofListing_listing_iff (cs : List ListedChange) :
    ofListing (ListedChange.listing cs).toList = cs.map ListedChange.entry ↔
      ∀ c ∈ cs, c.Legible ∧ c.InStep := by
  have hlegible (h : ofListing (ListedChange.listing cs).toList = cs.map ListedChange.entry) :
      ∀ c ∈ cs, c.Legible := by
    intro c hc
    have hcode : '\x00' ∉ c.entry.code.toList :=
      code_of_mem_ofListing (h ▸ List.mem_map_of_mem hc)
    simpa [ListedChange.entry, ListedChange.Legible, eq_comm] using hcode
  constructor
  · intro h c hc
    have hread := h
    rw [ofListing_listing (hlegible h), ofPieces_eq_iff] at hread
    exact ⟨hlegible h c hc, hread c hc⟩
  · intro h
    rw [ofListing_listing fun c hc => (h c hc).1, ofPieces_eq_iff]
    exact fun c hc => (h c hc).2

end StatusEntry

/-! ## What git prints -/

/-- The run succeeded and printed a text. -/
structure GitReply.Prints (reply : GitReply) (text : String) : Prop where
  ran : reply.failure = none
  code : reply.code = 0
  out : reply.out = text.toUTF8

namespace Repository

section

variable (r : Repository) (arguments : List String) (w : World) (tries : Nat)

/-- The reply to a call that was made some times in a row before. -/
def replyAfter : GitReply :=
  w.outside.git (w.gitCalls ++ List.replicate (tries + 1) (r.call arguments none))

/-- The try of a call finds the repository held that comes behind some others. -/
structure HeldAfter : Prop where
  ran : (r.replyAfter arguments w tries).failure = none
  busy : (GitOutput.ofReply (r.replyAfter arguments w tries)).isBusy = true

/-- The repository is held in the first tries of a call. One more try is left behind them, and
the pauses in front of it can be doubled. -/
structure HeldFor : Prop where
  left : tries ≤ r.settings.lockRetries.toNat
  brief : tries ≤ 1024
  held : ∀ n < tries, r.HeldAfter arguments w n

end

variable {r : Repository} {arguments : List String} {w : World} {tries : Nat}

theorem git_run_replyAfter (hran : (r.replyAfter arguments w 0).failure = none) :
    (Act.git (r.call arguments none)).run w =
      (.ok (r.replyAfter arguments w 0), Act.afterGit (r.call arguments none) w) := by
  have hreply : w.outside.git (w.gitCalls ++ [r.call arguments none]) =
      r.replyAfter arguments w 0 := rfl
  rw [Act.git_run, hreply, hran]

/-- **A call goes on as long as the repository is held**, and comes to the reply behind that. -/
theorem runFrom_run_replyAfter {left tried : Nat} (hleft : tries ≤ left)
    (hbrief : tried + tries ≤ 1024) (hheld : ∀ n < tries, r.HeldAfter arguments w n)
    (hran : (r.replyAfter arguments w tries).failure = none)
    (hfree : (GitOutput.ofReply (r.replyAfter arguments w tries)).isBusy = false) :
    ∃ v, (r.runFrom (r.call arguments none) left tried).run w =
      (.ok (.ofReply (r.replyAfter arguments w tries)), v) := by
  induction tries generalizing left tried w with
  | zero => exact ⟨_, r.runFrom_run_free (git_run_replyAfter hran) hfree left tried⟩
  | succ tries ih =>
    obtain ⟨left, rfl⟩ : ∃ more, left = more + 1 := ⟨left - 1, by omega⟩
    have hfirst := hheld 0 (Nat.succ_pos tries)
    obtain ⟨u, hstill, hrun⟩ := r.runFrom_run_held (git_run_replyAfter hfirst.ran) hfirst.busy
      (show tried < 1024 by omega) left
    -- behind the first try and the pause, each reply has one call less in front of it
    have hlater (n : Nat) : r.replyAfter arguments u n = r.replyAfter arguments w (n + 1) := by
      rw [replyAfter, replyAfter, hstill.apart.outside, hstill.gitCalls, List.replicate_succ (n := n + 1)]
      exact congrArg w.outside.git (List.append_assoc ..)
    have hheldLater : ∀ n < tries, r.HeldAfter arguments u n := by
      intro n hn
      have h := hheld (n + 1) (Nat.succ_lt_succ hn)
      exact ⟨hlater n ▸ h.ran, hlater n ▸ h.busy⟩
    rw [← hlater] at hran hfree ⊢
    rw [hrun]
    exact ih (by omega) (by omega) hheldLater hran hfree

/-- **A call that must succeed comes to its output** where git prints one in the end. -/
theorem run_run_prints {text : String} (hheld : r.HeldFor arguments w tries)
    (hprints : (r.replyAfter arguments w tries).Prints text) :
    ∃ out v, (r.run arguments).run w = (.ok out, v) ∧ out.out = text := by
  have hfree : (GitOutput.ofReply (r.replyAfter arguments w tries)).isBusy = false := by
    simp [GitOutput.isBusy, GitOutput.ofReply, hprints.code]
  have hsucceeded := (GitOutput.succeeded_iff (r.replyAfter arguments w tries)).2 hprints.code
  obtain ⟨v, hrun⟩ := runFrom_run_replyAfter hheld.left (Nat.zero_add tries ▸ hheld.brief)
    hheld.held hprints.ran hfree
  have htry : (r.try_ arguments).run w = (.ok (.ofReply (r.replyAfter arguments w tries)), v) :=
    hrun
  refine ⟨.ofReply (r.replyAfter arguments w tries), v, ?_, ?_⟩
  · rw [run, run_bind_of_ok htry, if_pos hsucceeded]
    rfl
  · rw [GitOutput.ofReply, hprints.out, Text.decodeLossy_toUTF8]

/-- How git is asked for the changed files. -/
def statusWords (untracked : Bool) : List String :=
  ["status", "--porcelain", "-z",
    if untracked then "--untracked-files=all" else "--untracked-files=no"]

/-- What git prints in the end is read. -/
theorem status_run_prints {untracked : Bool} {text : String}
    (hheld : r.HeldFor (statusWords untracked) w tries)
    (hprints : (r.replyAfter (statusWords untracked) w tries).Prints text) :
    ∃ v, (r.status untracked).run w = (.ok (StatusEntry.ofListing text.toList), v) := by
  obtain ⟨out, v, hrun, rfl⟩ := run_run_prints hheld hprints
  exact ⟨v, run_bind_of_ok hrun⟩

/-- **When the changed files are read as git lists them.** Where git lists some changes in the end,
entries are read in any case, and they are the codes and the paths of the changes, in order, exactly
if no code holds a null character and each file that moved in the working tree moved in the index
as well. -/
theorem status_lossless_iff {untracked : Bool} {cs : List ListedChange}
    (hheld : r.HeldFor (statusWords untracked) w tries)
    (hprints : (r.replyAfter (statusWords untracked) w tries).Prints (ListedChange.listing cs)) :
    ∃ entries v, (r.status untracked).run w = (.ok entries, v) ∧
      (entries = cs.map ListedChange.entry ↔ ∀ c ∈ cs, c.Legible ∧ c.InStep) := by
  obtain ⟨v, hrun⟩ := status_run_prints hheld hprints
  exact ⟨_, v, hrun, StatusEntry.ofListing_listing_iff cs⟩

end Repository

/-! ## Files that moved -/

namespace Moving

/-- The repository. -/
def repository : Repository := ⟨⟨.root, ["project"]⟩, GitSettings.usual⟩

/-- The answer of a git that finds the repository held. -/
def held : GitReply := { (default : GitReply) with
  code := 128, err := "fatal: Unable to create '.git/index.lock': File exists.\n".toUTF8 }

/-- A world whose git finds the repository held at first, and lists some changes then. -/
def world (cs : List ListedChange) : World := { (default : World) with
  outside := { (default : Outside) with git := fun calls =>
    if calls.length = 1 then held
    else { (default : GitReply) with out := (ListedChange.listing cs).toUTF8 } } }

theorem heldFor (cs : List ListedChange) (arguments : List String) :
    repository.HeldFor arguments (world cs) 1 := by
  refine ⟨by decide, by decide, fun n hn => ?_⟩
  obtain rfl : n = 0 := by omega
  exact ⟨rfl, show (GitOutput.ofReply held).isBusy = true by decide +kernel⟩

theorem prints (cs : List ListedChange) (arguments : List String) :
    (repository.replyAfter arguments (world cs) 1).Prints (ListedChange.listing cs) :=
  ⟨rfl, rfl, rfl⟩

/-- A file that is new, one that was edited, one that was renamed and edited, and one that was
copied in the index and renamed in the working tree. -/
def inStep : List ListedChange :=
  [⟨'?', '?', ⟨"n\u00e9w.txt", by decide, by decide⟩, none, by decide⟩,
    ⟨' ', 'M', ⟨"R  a", by decide, by decide⟩, none, by decide⟩,
    ⟨'R', 'M', ⟨"b", by decide, by decide⟩, some ⟨"R  old", by decide, by decide⟩, by decide⟩,
    ⟨'C', 'R', ⟨"c", by decide, by decide⟩, some ⟨"a", by decide, by decide⟩, by decide⟩]

/-- A file that was renamed in the working tree alone. -/
def astray : List ListedChange :=
  [⟨' ', 'R', ⟨"new.txt", by decide, by decide⟩, some ⟨"old.txt", by decide, by decide⟩,
    by decide⟩]

end Moving

namespace Repository

/-- Paths that look like entries do no harm. -/
theorem status_lossless_iff_moving : ∃ v,
    (Moving.repository.status true).run (Moving.world Moving.inStep) =
      (.ok [⟨"??", "n\u00e9w.txt"⟩, ⟨" M", "R  a"⟩, ⟨"RM", "b"⟩, ⟨"CR", "c"⟩], v) := by
  obtain ⟨entries, v, hrun, hlossless⟩ :=
    status_lossless_iff (Moving.heldFor Moving.inStep (statusWords true)) (Moving.prints _ _)
  have hinStep : ∀ c ∈ Moving.inStep, c.Legible ∧ c.InStep := by
    unfold ListedChange.Legible ListedChange.InStep
    decide
  rw [hlossless.2 hinStep] at hrun
  exact ⟨v, hrun⟩

/-- **A file that was renamed in the working tree alone** is read as two. -/
theorem status_astray : ∃ entries v,
    (Moving.repository.status true).run (Moving.world Moving.astray) = (.ok entries, v) ∧
      entries = [⟨" R", "new.txt"⟩, ⟨"ol", ".txt"⟩] ∧
      entries ≠ Moving.astray.map ListedChange.entry := by
  obtain ⟨v, hrun⟩ :=
    status_run_prints (Moving.heldFor Moving.astray (statusWords true)) (Moving.prints _ _)
  have hread : StatusEntry.ofListing (ListedChange.listing Moving.astray).toList =
      [⟨" R", "new.txt"⟩, ⟨"ol", ".txt"⟩] := by decide +kernel
  rw [hread] at hrun
  exact ⟨_, v, hrun, rfl, by decide +kernel⟩

end Repository

end RepairLoop
