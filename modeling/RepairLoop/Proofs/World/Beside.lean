import RepairLoop.Proofs.World.Obeys
import RepairLoop.Repository.Mutation
/-!
# World — two runs side by side

Two worlds may differ in what is on record of commands and events, and in the baseline; the rest
of a world is its `core`. Work that does not look there comes to the same end in both, and leaves
two worlds that differ no further (`Blind`). This is so for all work in a repository, since git
is told apart by its own calls alone. It is so for commands if their answers depend on nothing but
the command and they leave the files alone (`Outside.Uniform`).
-/

namespace RepairLoop

/-- What a command answers depends on the command alone. It can be run, and writes no files. -/
structure Outside.Uniform (o : Outside) : Prop where
  alone : ∀ calls c, o.command (calls ++ [c]) = o.command [c]
  runs : ∀ c, (o.command [c]).failure = none
  spares : ∀ c, (o.command [c]).changes = []

/-! ## Two pieces of work -/

namespace Act

variable {α β γ δ : Type} {R : World → World → Prop}

/-- The ends of two pieces of work: the same fault, or two results that are related. -/
inductive Ends (Q : α → β → Prop) : Except Fault α → Except Fault β → Prop
  | results {a : α} {b : β} (h : Q a b) : Ends Q (.ok a) (.ok b)
  | faults (e : Fault) : Ends Q (.error e) (.error e)

/-- In worlds that are related by `R` the two come to ends that are related by `Q`, and to worlds
that are related again. -/
def Paired (R : World → World → Prop) (Q : Except Fault α → Except Fault β → Prop) (x : Act α)
    (y : Act β) : Prop :=
  ∀ w v, R w v → Q (x.run w).1 (y.run v).1 ∧ R (x.run w).2 (y.run v).2

/-- The two come to the same end. -/
abbrev Twin (R : World → World → Prop) (x y : Act α) : Prop := Paired R (Ends Eq) x y

/-- The work comes to the same end in worlds that are related. -/
abbrev Blind (R : World → World → Prop) (x : Act α) : Prop := Twin R x x

theorem ends_eq_iff {r s : Except Fault α} : Ends Eq r s ↔ s = r := by
  constructor
  · rintro (⟨rfl⟩ | _) <;> rfl
  · rintro rfl
    cases s with
    | ok a => exact .results rfl
    | error e => exact .faults e

namespace Paired

variable {Q : Except Fault γ → Except Fault δ → Prop} {P : α → β → Prop} {x : Act α} {y : Act β}

/-- **Two pieces of work are paired step by step**; a fault of both is the end. -/
theorem bind {f : α → Act γ} {g : β → Act δ} (hx : Paired R (Ends P) x y)
    (hfault : ∀ e, Q (.error e) (.error e)) (hf : ∀ a b, P a b → Paired R Q (f a) (g b)) :
    Paired R Q (x >>= f) (y >>= g) := by
  intro w v h
  obtain ⟨hends, hworlds⟩ := hx w v h
  rw [run_bind_eq, run_bind_eq]
  generalize x.run w = first at hends hworlds ⊢
  generalize y.run v = second at hends hworlds ⊢
  obtain ⟨r, w'⟩ := first
  obtain ⟨s, v'⟩ := second
  cases hends with
  | results hab => exact hf _ _ hab w' v' hworlds
  | faults e => exact ⟨hfault e, hworlds⟩

theorem pure {Q : Except Fault α → Except Fault β → Prop} {a : α} {b : β} (h : Q (.ok a) (.ok b)) :
    Paired R Q (Pure.pure a) (Pure.pure b) := fun _ _ hworlds => ⟨h, hworlds⟩

/-- A change of the files afterwards does not show in the ends. -/
theorem finally_ {Q : Except Fault α → Except Fault β → Prop} {f : FileTree → FileTree}
    (hx : Paired R Q x y)
    (hset : ∀ w v, R w v → R { w with files := f w.files } { v with files := f v.files }) :
    Paired R Q (finally_ x (setFiles f)) (finally_ y (setFiles f)) := by
  intro w v h
  rw [finally_setFiles_run, finally_setFiles_run]
  exact ⟨(hx w v h).1, hset _ _ (hx w v h).2⟩

end Paired

namespace Twin

variable {x : Act α}

theorem bind {y : Act α} {f g : α → Act γ} (hx : Twin R x y)
    (hf : ∀ a, Twin R (f a) (g a)) : Twin R (x >>= f) (y >>= g) :=
  Paired.bind hx Ends.faults fun a _ hab => hab ▸ hf a

theorem pure {a : α} : Blind R (Pure.pure a) := fun _ _ h => ⟨.results rfl, h⟩

theorem throw {e : Fault} : Blind R (MonadExcept.throw e : Act α) := fun _ _ h => ⟨.faults e, h⟩

theorem attempt (hx : Blind R x) : Blind R (Act.attempt x) := fun w v h =>
  ⟨.results (ends_eq_iff.1 (hx w v h).1).symm, (hx w v h).2⟩

theorem ofExcept {r : Except Fault α} : Blind R (Act.ofExcept r) := by
  cases r with
  | ok a => exact pure
  | error e => exact throw

theorem map {f : α → γ} (hx : Blind R x) : Blind R (f <$> x) := by
  rw [← bind_pure_comp]
  exact hx.bind fun _ => pure

/-- Two related worlds look the same to what comes next. -/
theorem get_bind {f : World → Act α} (hsame : ∀ w v, R w v → f v = f w) (hf : ∀ w, Blind R (f w)) :
    Blind R (get >>= f) := by
  intro w v h
  have hrun : (get >>= f).run v = (f w).run v := congrArg (fun x => x.run v) (hsame w v h)
  rw [hrun]
  exact hf w w v h

theorem when {c : Prop} [Decidable c] {rest : Act γ} (hx : Blind R x) (hrest : Blind R rest) :
    Blind R (do
      if c then
        let _ ← x
      rest) := by
  split
  · exact hx.bind fun _ => hrest
  · exact hrest

end Twin

end Act

open Act (Paired Twin Blind)

/-! ## Worlds that differ in what is on record -/

namespace World

/-- The world without what is on record of commands and events, and without a baseline. -/
def core (w : World) : World := { w with commandCalls := [], events := [], baseline := none }

/-- Work is done as in the world `o`. -/
structure Like (o w : World) : Prop where
  outside : w.outside = o.outside
  here : w.here = o.here
  workshop : w.workshop = o.workshop
  mark : w.containerMark = o.containerMark

/-- Two worlds like `o` have the same core, and the second one has a baseline. -/
structure Beside (o : World) (baseline : Option Sample) (w v : World) : Prop where
  like : Like o w
  core : v.core = w.core
  baseline : v.baseline = baseline

/-- A step changes the core by what the core holds, and neither how work is done nor the
baseline. -/
structure Moves (f : World → World) : Prop where
  core : ∀ w, (f w).core = (f w.core).core
  like : ∀ w, Like w (f w)
  baseline : ∀ w, (f w).baseline = w.baseline

/-- Worlds that are related have the same core, and stay related if the same is done in both. -/
structure Sighted (R : World → World → Prop) : Prop where
  core : ∀ {w v}, R w v → v.core = w.core
  step : ∀ {f : World → World}, Moves f → ∀ {w v}, R w v → R (f w) (f v)

/-- One world, with a baseline. -/
def Unmoved (baseline : Option Sample) (w v : World) : Prop := v = w ∧ w.baseline = baseline

variable {o w v : World} {b : Option Sample}

/-- What is seen of the core is the same where the core is. -/
theorem seen_of_core {α : Type} (h : v.core = w.core) (f : World → α) (hf : ∀ w, f w.core = f w) :
    f v = f w := by
  rw [← hf v, h, hf w]

theorem Like.refl (w : World) : Like w w := ⟨rfl, rfl, rfl, rfl⟩

theorem Like.trans (h : Like o w) (h' : Like w v) : Like o v :=
  ⟨h'.outside.trans h.outside, h'.here.trans h.here, h'.workshop.trans h.workshop,
    h'.mark.trans h.mark⟩

/-- Work is done alike where the core is the same. -/
theorem Like.on (h : Like o w) (hcore : v.core = w.core) : Like o v :=
  h.trans ⟨seen_of_core hcore World.outside fun _ => rfl, seen_of_core hcore World.here fun _ => rfl,
    seen_of_core hcore World.workshop fun _ => rfl,
    seen_of_core hcore World.containerMark fun _ => rfl⟩

/-- The second world is like `o` as well. -/
theorem Beside.like' (h : Beside o b w v) : Like o v := h.like.on h.core

theorem sighted_beside : Sighted (Beside o b) where
  core h := h.core
  step hf _ _ h := ⟨h.like.trans (hf.like _), by rw [hf.core, h.core, ← hf.core],
    (hf.baseline _).trans h.baseline⟩

theorem sighted_unmoved : Sighted (Unmoved b) where
  core h := h.1 ▸ rfl
  step hf _ _ h := ⟨congrArg _ h.1, (hf.baseline _).trans h.2⟩

end World

open World (Moves Sighted)

namespace Act

variable {α : Type} {R : World → World → Prop}

/-- A command of a uniform outside is only recorded. -/
theorem command_uniform {w : World} (h : w.outside.Uniform) (c : CommandCall) :
    (command c).run w =
      (.ok (w.outside.command [c]), { w with commandCalls := w.commandCalls ++ [c] }) := by
  rw [command_run, afterCommand, h.alone, h.runs c, h.spares c]
  rfl

/-- A command leaves the baseline alone. -/
theorem command_unmoved (b : Option Sample) (c : CommandCall) :
    Blind (World.Unmoved b) (command c) := by
  rintro w _ ⟨rfl, hw⟩
  rw [command_run]
  exact ⟨ends_eq_iff.2 rfl, rfl, hw⟩

theorem setFiles_moves (f : FileTree → FileTree) : Moves fun w => { w with files := f w.files } :=
  ⟨fun _ => rfl, fun _ => ⟨rfl, rfl, rfl, rfl⟩, fun _ => rfl⟩

variable (hR : Sighted R)

include hR

/-- **A step is blind if its end and its world are seen from the core.** -/
theorem blind_of_run {x : Act α} {result : World → Except Fault α} {f : World → World}
    (hrun : ∀ w, x.run w = (result w, f w)) (hresult : ∀ w, result w = result w.core) (hf : Moves f) :
    Blind R x := by
  intro w v h
  rw [hrun w, hrun v]
  refine ⟨ends_eq_iff.2 ?_, hR.step hf h⟩
  rw [hresult v, hR.core h, ← hresult w]

theorem setFiles_blind (f : FileTree → FileTree) : Blind R (setFiles f) :=
  blind_of_run hR (fun _ => rfl) (fun _ => rfl) (setFiles_moves f)

theorem emit_blind (e : Event) : Blind R (emit e) :=
  blind_of_run hR (fun _ => rfl) (fun _ => rfl)
    ⟨fun _ => rfl, fun _ => ⟨rfl, rfl, rfl, rfl⟩, fun _ => rfl⟩

theorem yield_blind (time : Amount) : Blind R (yield_ time) :=
  blind_of_run hR (fun _ => rfl) (fun _ => rfl)
    ⟨fun _ => rfl, fun _ => ⟨rfl, rfl, rfl, rfl⟩, fun _ => rfl⟩

theorem supplied_blind (x : StateM Supply α) : Blind R (supplied x) :=
  blind_of_run hR (supplied_run x) (fun _ => rfl)
    ⟨fun _ => rfl, fun _ => ⟨rfl, rfl, rfl, rfl⟩, fun _ => rfl⟩

theorem files_blind : Blind R files :=
  blind_of_run hR files_run (fun _ => rfl) ⟨fun _ => rfl, fun _ => .refl _, fun _ => rfl⟩

/-- **Git is told apart by its own calls**, and sees the files. -/
theorem git_blind (c : GitCall) : Blind R (git c) :=
  blind_of_run hR (git_run c) (fun _ => rfl)
    ⟨fun _ => rfl, fun _ => ⟨rfl, rfl, rfl, rfl⟩, fun _ => rfl⟩

/-- What comes next looks at the core alone. -/
theorem seen_bind {β : Type} (see : World → β) (hsee : ∀ w, see w.core = see w) {f : World → Act α}
    (hsame : ∀ w v, see v = see w → f v = f w) (hf : ∀ w, Blind R (f w)) :
    Blind R (get >>= f) :=
  Twin.get_bind (fun w v h => hsame w v (World.seen_of_core (hR.core h) see hsee)) hf

end Act

/-! ## Work in a repository -/

namespace Repository

variable {R : World → World → Prop} (hR : Sighted R) (r : Repository)

include hR

open Act (git_blind files_blind emit_blind setFiles_blind yield_blind)

theorem at_blind (root : Path) (settings : GitSettings) : Blind R (at_ root settings) := by
  refine Act.seen_bind hR World.here (fun _ => rfl) (fun w v h => ?_) fun w =>
    (files_blind hR).bind fun files => ?_
  · dsimp only [World.absolute]
    rw [h]
  · split
    · exact .pure
    · exact .throw

theorem create_blind (root : Path) (settings : GitSettings) : Blind R (create root settings) := by
  refine Act.seen_bind hR World.here (fun _ => rfl) (fun w v h => ?_) fun w =>
    (git_blind hR _).map.bind fun out => ?_
  · simp only [World.absolute, h]
  · split
    · exact at_blind hR _ _
    · exact .throw

/-- **A call is told apart by what git says**, however often it is tried. -/
theorem runFrom_blind (c : GitCall) (left tried : Nat) : Blind R (r.runFrom c left tried) := by
  induction left generalizing tried with
  | zero => exact (git_blind hR c).map
  | succ left ih =>
    refine (git_blind hR c).map.bind fun out => ?_
    split
    · exact Twin.ofExcept.bind fun _ => (yield_blind hR _).bind fun _ => ih (tried + 1)
    · exact .pure

theorem try_blind (arguments : List String) : Blind R (r.try_ arguments) :=
  r.runFrom_blind hR _ _ _

theorem run_blind (arguments : List String) : Blind R (r.run arguments) := by
  refine (r.try_blind hR arguments).bind fun out => ?_
  split
  · exact .pure
  · exact .throw

theorem head_blind : Blind R r.head := (r.try_blind hR _).bind fun _ => .pure

theorem commitBaseline_blind (message : String) : Blind R (r.commitBaseline message) := by
  have hclean : Blind R (r.isClean true) := ((r.run_blind hR _).bind fun _ => .pure).map
  have hcommit : Blind R (r.commit message [] none) := by
    refine (r.run_blind hR _).bind fun _ => (r.run_blind hR _).bind fun _ =>
      (r.head_blind hR).bind fun head => ?_
    split
    · exact .pure
    · exact .throw
  refine hclean.bind fun clean => ?_
  split
  · exact r.head_blind hR
  · exact hcommit.map

theorem restore_blind (before : Snapshot) : Blind R (r.restore before) := by
  induction before with
  | nil => exact .pure
  | cons entry rest ih =>
    exact (files_blind hR).bind fun _ => Twin.ofExcept.bind fun _ =>
      (setFiles_blind hR _).bind fun _ => ih

/-- **So is the application of a diff**, and what puts back what a diff has touched. -/
theorem applyDiff_blind (diff : String) (threeWay : Bool) :
    Blind R (r.applyDiff diff threeWay false) := by
  have htry (paths : List String) : Blind R (r.tryDiff diff threeWay paths) := by
    refine (files_blind hR).bind fun _ => Twin.ofExcept.bind fun _ => ?_
    refine Act.seen_bind hR World.patchName (fun _ => rfl) (fun w v h => ?_) fun _ =>
      (r.runFrom_blind hR _ _ _).bind fun _ => .pure
    simp only [h]
  have hback (paths : List String) (before : Snapshot) (out : GitOutput) :
      Blind R (r.takeBack paths before out) :=
    (r.restore_blind hR before).bind fun _ => Twin.when (r.try_blind hR _)
      ((emit_blind hR _).bind fun _ => .throw)
  refine Twin.ofExcept.bind fun parsed => (htry _).bind fun tried => ?_
  obtain ⟨before, out⟩ := tried
  dsimp only
  split
  · exact hback _ _ _
  · exact .pure

end Repository

end RepairLoop
