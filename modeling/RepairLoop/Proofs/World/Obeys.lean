import Mathlib.Order.Defs.Unbundled
import RepairLoop.Proofs.Steps
import RepairLoop.Proofs.Supply
import RepairLoop.World.Basic
/-!
# World — what work does, whatever comes of it

Work may be stopped by a fault at any point, and what it did before stays
done. What is said of work is therefore said of either end that it may come
to: `Obeys R Q x` says that the worlds before and after the work are related
by `R`, and that its result, if it has one, is of the kind `Q`. For a
relation that is reflexive and transitive it is enough to look at the steps
(`Obeys.bind`).

The relation of most work is `World.Apart`: it leaves the stores alone,
nothing changes what the outside answers, and no name is given out twice.
-/

/-!
## World — what the single steps of work do

The outcome of each basic step of an `Act`, as the result and the world it
leaves. Steps in a row are taken apart with `run_bind_eq` and
`run_ok_of_bind`.
-/

namespace RepairLoop.Act

variable {α : Type}

theorem supplied_run (x : StateM Supply α) (w : World) :
    (supplied x).run w = (.ok (x.run w.supply).1, { w with supply := (x.run w.supply).2 }) := rfl

theorem ofExcept_run (x : Except Fault α) (w : World) : (ofExcept x).run w = (x, w) := by
  cases x <;> rfl

/-- Work on the supply gives its outcome and leaves everything else. -/
theorem supplying_run (x : ExceptT Fault (StateM Supply) α) (w : World) :
    (supplying x).run w = ((x.run w.supply).1, { w with supply := (x.run w.supply).2 }) := by
  rw [supplying, run_bind_eq, supplied_run]
  exact ofExcept_run _ _

theorem emit_run (e : Event) (w : World) :
    (emit e).run w = (.ok (), { w with events := w.events ++ [e] }) := rfl

/-- Work whose fault is looked at comes to a result in either case. -/
theorem attempt_run (x : Act α) (w : World) :
    (attempt x).run w = (.ok (x.run w).1, (x.run w).2) := rfl

/-- **Work with something done after it in any case** comes to a result if both
do. -/
theorem finally_ok {x : Act α} {after : Act Unit} {a : α} {w w' : World}
    (h : (finally_ x after).run w = (.ok a, w')) :
    ∃ v, x.run w = (.ok a, v) ∧ after.run v = (.ok (), w') := by
  rw [finally_, run_bind_of_ok (attempt_run x w)] at h
  obtain ⟨_, v, hafter, hresult⟩ := run_ok_of_bind h
  rw [ofExcept_run] at hresult
  obtain ⟨hok, rfl⟩ := Prod.mk.inj hresult
  exact ⟨_, Prod.ext hok rfl, hafter⟩

/-- What is done in any case is done behind all of the work. -/
theorem finally_run_of_ok {β : Type} {x : Act β} {f : β → Act α} {after : Act Unit} {b : β}
    {w v : World} (h : x.run w = (.ok b, v)) :
    (finally_ (x >>= f) after).run w = (finally_ (f b) after).run v := by
  rw [finally_, finally_, run_bind_of_ok (attempt_run _ w), run_bind_of_ok (attempt_run _ v),
    run_bind_of_ok h]

/-- Where work with a change of the files after it ends. -/
theorem finally_setFiles_run (x : Act α) (f : FileTree → FileTree) (w : World) :
    (finally_ x (setFiles f)).run w =
      ((x.run w).1, { (x.run w).2 with files := f (x.run w).2.files }) := by
  have hset (v : World) : (setFiles f).run v = (.ok (), { v with files := f v.files }) := rfl
  rw [finally_, run_bind_of_ok (attempt_run x w), run_bind_of_ok (hset _), ofExcept_run]

/-- A result that is seen in another way leaves the world where it was. -/
theorem map_run_snd {β : Type} (f : α → β) (x : Act α) (w : World) :
    ((f <$> x).run w).2 = (x.run w).2 := by
  rw [← bind_pure_comp, run_bind_eq]
  cases x.run w with
  | mk r v => cases r <;> rfl

theorem files_run (w : World) : files.run w = (.ok w.files, w) := rfl

/-- A lookup in the store is what the store says. -/
theorem stored_run (f : Store → Except StoreFault α) (w : World) :
    (stored f).run w = ((f w.store).mapError StoreFault.toFault, w) := by
  have hrun : (stored f).run w =
      (ofExcept ((f w.store).mapError StoreFault.toFault)).run w := rfl
  rw [hrun, ofExcept_run]

/-- **A change that the store refuses leaves the store alone.** -/
theorem storing_run (f : Store → Except StoreFault Store) (w : World) :
    (storing f).run w = match f w.store with
      | .ok s => (.ok (), { w with store := s })
      | .error e => (.error e.toFault, w) := by
  rw [storing, run_bind_eq, stored_run]
  cases f w.store <;> rfl

/-! ### The outside -/

/-- The world after a run of git. -/
def afterGit (call : GitCall) (w : World) : World :=
  { w with
    gitCalls := w.gitCalls ++ [call]
    files := World.changed w.files call.place (w.outside.git (w.gitCalls ++ [call])).changes }

/-- The world after a run of a command. -/
def afterCommand (call : CommandCall) (w : World) : World :=
  { w with
    commandCalls := w.commandCalls ++ [call]
    files := World.changed w.files call.place
      (w.outside.command (w.commandCalls ++ [call])).changes }

/-- **A run of git** is recorded and changes files, whether it fails or
not. -/
theorem git_run (call : GitCall) (w : World) :
    (git call).run w = ((match (w.outside.git (w.gitCalls ++ [call])).failure with
      | some m => .error (.mishap .system m)
      | none => .ok (w.outside.git (w.gitCalls ++ [call]))), afterGit call w) := by
  have hrun : (git call).run w = (match (w.outside.git (w.gitCalls ++ [call])).failure with
      | some m => throw (.mishap .system m)
      | none => pure (w.outside.git (w.gitCalls ++ [call])) : Act GitReply).run
        (afterGit call w) := rfl
  rw [hrun]
  cases (w.outside.git (w.gitCalls ++ [call])).failure <;> rfl

/-- And so is a run of a command. -/
theorem command_run (call : CommandCall) (w : World) :
    (command call).run w = ((match (w.outside.command (w.commandCalls ++ [call])).failure with
      | some f => .error f
      | none => .ok (w.outside.command (w.commandCalls ++ [call]))), afterCommand call w) := by
  have hrun : (command call).run w =
      (match (w.outside.command (w.commandCalls ++ [call])).failure with
      | some f => throw f
      | none => pure (w.outside.command (w.commandCalls ++ [call])) : Act CommandReply).run
        (afterCommand call w) := rfl
  rw [hrun]
  cases (w.outside.command (w.commandCalls ++ [call])).failure <;> rfl

end RepairLoop.Act

namespace RepairLoop

namespace Act

variable {α β : Type} {R S T : World → World → Prop} {Q P : α → Prop} {Q' : β → Prop}

/-- The work relates the world before it to the world after it, and its
results are of a kind. -/
def Obeys (R : World → World → Prop) (Q : α → Prop) (x : Act α) : Prop :=
  ∀ w, R w (x.run w).2 ∧ ∀ a, (x.run w).1 = .ok a → Q a

/-- Any result will do. -/
abbrev Keeps (R : World → World → Prop) (x : Act α) : Prop :=
  Obeys R (fun _ => True) x

namespace Obeys

variable {x : Act α} {f : α → Act β}

/-- What is known of a run that came to a result. -/
theorem of_run (h : Obeys R Q x) {w w' : World} {a : α} (hrun : x.run w = (.ok a, w')) :
    R w w' ∧ Q a := by
  obtain ⟨hr, hq⟩ := h w
  rw [hrun] at hr hq
  exact ⟨hr, hq a rfl⟩

/-- What is known of a run that was stopped. -/
theorem of_stop (h : Obeys R Q x) {w w' : World} {e : Fault} (hrun : x.run w = (.error e, w')) :
    R w w' := by
  have hr := (h w).1
  rwa [hrun] at hr

theorem mono (h : Obeys R Q x) (hq : ∀ a, Q a → P a) : Obeys R P x := fun w =>
  ⟨(h w).1, fun a ha => hq a ((h w).2 a ha)⟩

theorem keeps (h : Obeys R Q x) : Keeps R x := h.mono fun _ _ => trivial

theorem weaken (h : Obeys R Q x) (hr : ∀ w w', R w w' → S w w') : Obeys S Q x := fun w =>
  ⟨hr _ _ (h w).1, (h w).2⟩

/-- **Two steps in a row**, where the second is only taken if the first has
come to a result: the relation of the whole holds of the first alone and of
both together. -/
theorem bind_of (hx : Obeys R Q x) (hf : ∀ a, Q a → Obeys S Q' (f a))
    (hstop : ∀ w w', R w w' → T w w') (hboth : ∀ w w₁ w₂, R w w₁ → S w₁ w₂ → T w w₂) :
    Obeys T Q' (x >>= f) := by
  intro w
  rw [run_bind_eq]
  split
  · rename_i a w' hrun
    obtain ⟨hr, hq⟩ := hx.of_run hrun
    obtain ⟨hs, hq'⟩ := hf a hq w'
    exact ⟨hboth _ _ _ hr hs, hq'⟩
  · rename_i e w' hrun
    exact ⟨hstop _ _ (hx.of_stop hrun), fun b hb => by cases hb⟩

/-- A fault that is looked at is a result. -/
theorem attempt (hx : Obeys R Q x) :
    Obeys R (fun r => ∀ a, r = Except.ok a → Q a) (Act.attempt x) := fun w =>
  ⟨(hx w).1, fun _ hr => Except.ok.inj hr ▸ (hx w).2⟩

variable [IsPreorder World R]

theorem pure {a : α} (h : Q a) : Obeys R Q (Pure.pure a) := fun w =>
  ⟨refl_of R w, fun _ hb => Except.ok.inj hb ▸ h⟩

theorem throw {e : Fault} : Obeys R Q (MonadExcept.throw e) := fun w =>
  ⟨refl_of R w, fun _ hb => by cases hb⟩

/-- **Two steps in a row.** -/
theorem bind (hx : Obeys R Q x) (hf : ∀ a, Q a → Obeys R Q' (f a)) : Obeys R Q' (x >>= f) :=
  bind_of hx hf (fun _ _ h => h) fun _ _ _ h h' => trans_of R h h'

theorem map {g : α → β} (hx : Obeys R Q x) (hg : ∀ a, Q a → Q' (g a)) : Obeys R Q' (g <$> x) := by
  have hmap : g <$> x = x >>= fun a => Pure.pure (g a) := (bind_pure_comp g x).symm
  rw [hmap]
  exact hx.bind fun a ha => pure (hg a ha)

theorem ofExcept {r : Except Fault α} (h : ∀ a, r = .ok a → Q a) :
    Obeys R Q (Act.ofExcept r) := fun w => by
  rw [ofExcept_run]
  exact ⟨refl_of R w, h⟩

theorem finally_ {after : Act Unit} (hx : Obeys R Q x) (hafter : Keeps R after) :
    Obeys R Q (Act.finally_ x after) :=
  hx.attempt.bind fun _ hr => Obeys.bind hafter fun _ _ => ofExcept hr

end Obeys

/-- A step that looks at the world first may depend on what it sees. -/
theorem Obeys.get_bind {f : World → Act β} (h : ∀ w, R w ((f w).run w).2 ∧
    ∀ b, ((f w).run w).1 = .ok b → Q' b) : Obeys R Q' ((MonadState.get : Act World) >>= f) := h

/-- A step that puts another world in the place of the one that is seen. -/
theorem Obeys.set_bind [IsPreorder World R] {w w' : World} {f : PUnit → Act β} (hr : R w w')
    (hf : Obeys R Q' (f ⟨⟩)) : R w (((MonadState.set w' : Act PUnit) >>= f).run w).2 ∧
      ∀ b, (((MonadState.set w' : Act PUnit) >>= f).run w).1 = .ok b → Q' b :=
  ⟨trans_of R hr (hf w').1, (hf w').2⟩

/-- A step that changes the world that is seen. -/
theorem Obeys.modify_bind [IsPreorder World R] {w : World} {g : World → World}
    {f : PUnit → Act β} (hr : R w (g w)) (hf : Obeys R Q' (f ⟨⟩)) :
    R w (((modify g : Act PUnit) >>= f).run w).2 ∧
      ∀ b, (((modify g : Act PUnit) >>= f).run w).1 = .ok b → Q' b :=
  ⟨trans_of R hr (hf (g w)).1, (hf (g w)).2⟩

/-- A step that looks something up in the store may depend on what it
finds. -/
theorem Obeys.stored_bind [IsPreorder World R] {f : Store → Except StoreFault α} {g : α → Act β}
    (h : ∀ w a, f w.store = .ok a → R w ((g a).run w).2 ∧
      ∀ b, ((g a).run w).1 = .ok b → Q' b) : Obeys R Q' (stored f >>= g) := by
  intro w
  rw [run_bind_eq, stored_run]
  cases hf : f w.store with
  | error e => exact ⟨refl_of R w, fun _ hb => by cases hb⟩
  | ok a => exact h w a hf

section

variable {x : Act α} {f : α → Act β}

theorem Keeps.attempt (hx : Keeps R x) : Keeps R (Act.attempt x) :=
  (Obeys.attempt hx).keeps

theorem Keeps.modify {f : World → World} (h : ∀ w, R w (f w)) :
    Keeps R (modify f : Act Unit) := fun w => ⟨h w, fun _ _ => trivial⟩

variable [IsPreorder World R]

/-- Looking at the world does nothing to it. -/
theorem Keeps.get : Keeps R (MonadState.get : Act World) := fun w =>
  ⟨refl_of R w, fun _ _ => trivial⟩

theorem Keeps.bind (hx : Keeps R x) (hf : ∀ a, Obeys R Q' (f a)) : Obeys R Q' (x >>= f) :=
  Obeys.bind hx fun a _ => hf a

/-- A step that is taken only under a condition, and what is done after it in
either case. -/
theorem Keeps.when {c : Prop} [Decidable c] {rest : Act β} (hx : Keeps R x)
    (hrest : Obeys R Q' rest) : Obeys R Q' (if c then x >>= fun _ => rest else rest) := by
  split
  · exact hx.bind fun _ => hrest
  · exact hrest

/-- One of two steps, and what is done after either with its result. -/
theorem Keeps.either {c : Prop} [Decidable c] {y : Act α} (hx : Keeps R x) (hy : Keeps R y)
    (hf : ∀ a, Obeys R Q' (f a)) : Obeys R Q' (if c then x >>= f else y >>= f) := by
  split
  · exact hx.bind hf
  · exact hy.bind hf

theorem Keeps.map {g : α → β} (hx : Keeps R x) : Keeps R (g <$> x) :=
  Obeys.map hx fun _ _ => trivial

theorem Keeps.ofExcept {r : Except Fault α} : Keeps R (Act.ofExcept r) :=
  Obeys.ofExcept fun _ _ => trivial

end

/-! ## Results -/

/-- The results of the work are of a kind, wherever it starts. -/
def Yields (Q : α → Prop) (x : Act α) : Prop := ∀ w a w', x.run w = (.ok a, w') → Q a

namespace Yields

variable {x : Act α} {f : α → Act β}

theorem any : Yields (fun _ => True) x := fun _ _ _ _ => trivial

theorem mono (h : Yields P x) (hq : ∀ a, P a → Q a) : Yields Q x :=
  fun w a w' hrun => hq a (h w a w' hrun)

theorem pure {a : α} (h : Q a) : Yields Q (Pure.pure a) := fun _ _ _ hrun =>
  Except.ok.inj (Prod.mk.inj hrun).1 ▸ h

theorem throw {e : Fault} : Yields Q (MonadExcept.throw e : Act α) := fun _ _ _ hrun => by
  cases (Prod.mk.inj hrun).1

theorem bind (hx : Yields P x) (hf : ∀ a, P a → Yields Q' (f a)) : Yields Q' (x >>= f) := by
  intro w b w' hrun
  obtain ⟨a, v, hfirst, hsecond⟩ := run_ok_of_bind hrun
  exact hf a (hx w a v hfirst) v b w' hsecond

/-- Whatever the first step comes to. -/
theorem after (hf : ∀ a, Yields Q' (f a)) : Yields Q' (x >>= f) := bind any fun a _ => hf a

/-- A fault that is looked at is a result. -/
theorem attempt (hx : Yields Q x) :
    Yields (fun r => ∀ a, r = Except.ok a → Q a) (Act.attempt x) := by
  intro w r w' hrun a hr
  rw [attempt_run] at hrun
  have hresult : (x.run w).1 = .ok a := (Except.ok.inj (Prod.mk.inj hrun).1).trans hr
  exact hx w a _ (Prod.ext hresult rfl)

/-- The result of work with something done after it is that of the work. -/
theorem finally_ {after : Act Unit} (hx : Yields Q x) : Yields Q (Act.finally_ x after) := by
  intro w a w' hrun
  obtain ⟨v, hfirst, -⟩ := finally_ok hrun
  exact hx w a v hfirst

end Yields

theorem Keeps.obeys {x : Act α} (hx : Keeps R x) (hq : Yields Q x) : Obeys R Q x := fun w =>
  ⟨(hx w).1, fun a ha => hq w a _ (Prod.ext ha rfl)⟩

end Act

/-! ## Work that leaves the stores alone -/

/-- The stores are the same, and so are the answers of the outside; the names
that were given out stay so. -/
structure World.Apart (w w' : World) : Prop where
  store : w'.store = w.store
  stores : w'.stores = w.stores
  outside : w'.outside = w.outside
  given : w.supply.given ≤ w'.supply.given

namespace World.Apart

instance : IsPreorder World World.Apart where
  refl _ := ⟨rfl, rfl, rfl, Nat.le_refl _⟩
  trans _ _ _ h h' :=
    ⟨h'.store.trans h.store, h'.stores.trans h.stores, h'.outside.trans h.outside,
      Nat.le_trans h.given h'.given⟩

/-- What leaves the supply alone as well. -/
theorem of_eq {w w' : World} (hstore : w'.store = w.store) (hstores : w'.stores = w.stores)
    (houtside : w'.outside = w.outside) (hsupply : w'.supply = w.supply) : Apart w w' :=
  ⟨hstore, hstores, houtside, Nat.le_of_eq (congrArg Supply.given hsupply.symm)⟩

end World.Apart

namespace Act

open World (Apart)

variable {α : Type}

theorem supplied_apart {x : StateM Supply α} (hx : Supply.Grows x) : Keeps Apart (supplied x) :=
  fun w => ⟨⟨rfl, rfl, rfl, hx w.supply⟩, fun _ _ => trivial⟩

/-- Work on the supply leaves the stores alone, and its results are those
that it has on some supply. -/
theorem supplying_apart {x : ExceptT Fault (StateM Supply) α} {Q : α → Prop}
    (hx : Supply.Grows x.run) (h : ∀ s s' a, x.run s = (.ok a, s') → Q a) :
    Obeys Apart Q (supplying x) := fun w => by
  rw [supplying_run]
  exact ⟨⟨rfl, rfl, rfl, hx w.supply⟩, fun a ha => h w.supply _ a (Prod.ext ha rfl)⟩

theorem emit_apart (e : Event) : Keeps Apart (emit e) := Keeps.modify fun _ => .of_eq rfl rfl rfl rfl

theorem pause_apart (time : Amount) : Keeps Apart (pause time) :=
  Keeps.modify fun _ => .of_eq rfl rfl rfl rfl

theorem yield_apart (time : Amount) : Keeps Apart (yield_ time) :=
  Keeps.modify fun _ => .of_eq rfl rfl rfl rfl

theorem setFiles_apart (f : FileTree → FileTree) : Keeps Apart (setFiles f) :=
  Keeps.modify fun _ => .of_eq rfl rfl rfl rfl

theorem files_apart : Keeps Apart files := fun _ => ⟨.of_eq rfl rfl rfl rfl, fun _ _ => trivial⟩

theorem store_apart : Keeps Apart store := fun _ => ⟨.of_eq rfl rfl rfl rfl, fun _ _ => trivial⟩

theorem now_apart : Keeps Apart now := supplied_apart .readClock

/-- Looking something up leaves everything alone. -/
theorem stored_apart (f : Store → Except StoreFault α) : Keeps Apart (stored f) :=
  store_apart.bind fun _ => Keeps.ofExcept

/-- **A change of the store** relates the worlds if it does so wherever the
store takes it. -/
theorem storing_keeps {R : World → World → Prop} [IsPreorder World R]
    {f : Store → Except StoreFault Store}
    (h : ∀ (w : World) s, f w.store = .ok s → R w { w with store := s }) :
    Keeps R (storing f) := fun w => by
  rw [storing_run]
  cases hf : f w.store with
  | ok s => exact ⟨h w s hf, fun _ _ => trivial⟩
  | error e => exact ⟨refl_of R w, fun _ _ => trivial⟩

/-- **Git may change files, not the stores.** -/
theorem git_apart (call : GitCall) : Keeps Apart (git call) := fun w => by
  rw [git_run]
  exact ⟨.of_eq rfl rfl rfl rfl, fun _ _ => trivial⟩

/-- And no more may a command. -/
theorem command_apart (call : CommandCall) : Keeps Apart (command call) := fun w => by
  rw [command_run]
  exact ⟨.of_eq rfl rfl rfl rfl, fun _ _ => trivial⟩

theorem web_apart (call : WebCall) : Keeps Apart (web call) := fun _ =>
  ⟨.of_eq rfl rfl rfl rfl, fun _ _ => trivial⟩

theorem model_apart (payload : Json) : Keeps Apart (model payload) := fun _ =>
  ⟨.of_eq rfl rfl rfl rfl, fun _ _ => trivial⟩

end Act

end RepairLoop

/-!
## World — where work leads

`Leads P x Q E` says of work that starts in a world of the kind `P`: if it
comes to a result, result and world are of the kind `Q`, and if a fault stops
it, the world is of the kind `E`. Unlike a relation of `Obeys` the two ends
may differ, so what is said of work that was stopped need not hold of work
that was not.
-/

namespace RepairLoop.Act

variable {α β : Type} {P P' E E' : World → Prop} {Q Q' : α → World → Prop}
variable {S : β → World → Prop}

/-- From worlds of a kind the work leads to results in worlds of a kind, or is
stopped in worlds of a kind. -/
def Leads (P : World → Prop) (x : Act α) (Q : α → World → Prop) (E : World → Prop) : Prop :=
  ∀ w, P w → match x.run w with
    | (.ok a, w') => Q a w'
    | (.error _, w') => E w'

/-- Two pieces of work come to the same in worlds of a kind. -/
def Agree (P : World → Prop) (x y : Act α) : Prop := ∀ w, P w → x.run w = y.run w

namespace Leads

variable {x : Act α} {f : α → Act β}

/-- What is known of a run that came to a result. -/
theorem of_run (h : Leads P x Q E) {w w' : World} {a : α} (hp : P w)
    (hrun : x.run w = (.ok a, w')) : Q a w' := by
  have := h w hp
  rwa [hrun] at this

/-- What is known of a run that was stopped. -/
theorem of_stop (h : Leads P x Q E) {w w' : World} {e : Fault} (hp : P w)
    (hrun : x.run w = (.error e, w')) : E w' := by
  have := h w hp
  rwa [hrun] at this

/-- What holds wherever the work ends. -/
theorem ends_iff : Leads P x (fun _ => E) E ↔ ∀ w, P w → E (x.run w).2 := by
  refine forall_congr' fun w => imp_congr_right fun _ => ?_
  cases x.run w with
  | mk r w' => cases r <;> exact Iff.rfl

theorem imp (h : Leads P x Q E) (hp : ∀ w, P' w → P w) (hq : ∀ a w, Q a w → Q' a w)
    (he : ∀ w, E w → E' w) : Leads P' x Q' E' := by
  intro w hw
  cases hrun : x.run w with
  | mk r w' =>
    cases r with
    | ok a => exact hq a w' (h.of_run (hp w hw) hrun)
    | error e => exact he w' (h.of_stop (hp w hw) hrun)

theorem pre (h : Leads P x Q E) (hp : ∀ w, P' w → P w) : Leads P' x Q E :=
  fun w hw => h w (hp w hw)

theorem post (h : Leads P x Q E) (hq : ∀ a w, Q a w → Q' a w) : Leads P x Q' E :=
  h.imp (fun _ hp => hp) hq fun _ he => he

theorem stops (h : Leads P x Q E) (he : ∀ w, E w → E' w) : Leads P x Q E' :=
  h.imp (fun _ hp => hp) (fun _ _ hq => hq) he

/-- What does not depend on the world is known from the start. -/
theorem given {C : Prop} (h : C → Leads P x Q E) : Leads (fun w => C ∧ P w) x Q E :=
  fun w ⟨hc, hw⟩ => h hc w hw

theorem pure {a : α} (h : ∀ w, P w → Q a w) : Leads P (Pure.pure a) Q E := h

theorem throw {e : Fault} (h : ∀ w, P w → E w) : Leads P (MonadExcept.throw e : Act α) Q E := h

/-- **Two steps in a row**: the second starts where the first has led. -/
theorem bind (hx : Leads P x Q E) (hf : ∀ a, Leads (Q a) (f a) S E) :
    Leads P (x >>= f) S E := by
  intro w hw
  rw [run_bind_eq]
  cases hrun : x.run w with
  | mk r w' =>
    cases r with
    | ok a => exact hf a w' (hx.of_run hw hrun)
    | error e => exact hx.of_stop hw hrun

/-- A step that is taken only under a condition, and what is done after it in
either case. -/
theorem when {c : Prop} [Decidable c] {rest : Act β} (hx : Leads P x (fun _ => P) E)
    (hrest : Leads P rest S E) : Leads P (if c then x >>= fun _ => rest else rest) S E := by
  split
  · exact hx.bind fun _ => hrest
  · exact hrest

theorem map {g : α → β} (hx : Leads P x (fun a => S (g a)) E) : Leads P (g <$> x) S E := by
  have hmap : g <$> x = x >>= fun a => Pure.pure (g a) := (bind_pure_comp g x).symm
  rw [hmap]
  exact hx.bind fun a => pure fun _ hw => hw

theorem emit {e : Event} : Leads P (Act.emit e) (fun _ w => ∃ w', P w' ∧ w.store = w'.store) E :=
  fun w hw => ⟨w, hw, rfl⟩

/-- A fault that is looked at stops nothing. -/
theorem attempt (hx : Leads P x Q E') :
    Leads P (Act.attempt x) (fun r w => match r with
      | .ok a => Q a w
      | .error _ => E' w) E := by
  intro w hw
  rw [attempt_run]
  cases hrun : x.run w with
  | mk r w' =>
    cases r with
    | ok a => exact hx.of_run hw hrun
    | error e => exact hx.of_stop hw hrun

/-- **Work with something done after it in any case**: that starts where the
work has led, or where it was stopped. -/
theorem finally_ {after : Act Unit} (hx : Leads P x Q E') (hok : ∀ a, Leads (Q a) after
    (fun _ => Q' a) E) (hstop : Leads E' after (fun _ => E) E) :
    Leads P (Act.finally_ x after) Q' E := by
  refine bind (attempt hx) fun r => ?_
  cases r with
  | ok a => exact (hok a).bind fun _ => pure fun _ hw => hw
  | error e => exact hstop.bind fun _ => throw fun _ hw => hw

/-- What stands behind a fault is never reached. -/
theorem throw_bind {e : Fault} (h : ∀ w, P w → E w) :
    Leads P ((MonadExcept.throw e : Act α) >>= f) S E := h

/-- What is known in two ways is known at once. -/
theorem and (h : Leads P x Q E) (h' : Leads P' x Q' E') :
    Leads (fun w => P w ∧ P' w) x (fun a w => Q a w ∧ Q' a w) (fun w => E w ∧ E' w) := by
  intro w ⟨hp, hp'⟩
  cases hrun : x.run w with
  | mk r w' =>
    cases r with
    | ok a => exact ⟨h.of_run hp hrun, h'.of_run hp' hrun⟩
    | error e => exact ⟨h.of_stop hp hrun, h'.of_stop hp' hrun⟩

/-- The run itself may be kept in mind. -/
theorem traced (h : Leads P x Q E) :
    Leads P x (fun a w' => Q a w' ∧ ∃ w, P w ∧ x.run w = (.ok a, w')) E := by
  intro w hw
  cases hrun : x.run w with
  | mk r w' =>
    cases r with
    | ok a => exact ⟨h.of_run hw hrun, w, hw, hrun⟩
    | error e => exact h.of_stop hw hrun

theorem ofExcept {r : Except Fault α} (hq : ∀ w a, P w → r = .ok a → Q a w)
    (he : ∀ w, P w → E w) : Leads P (Act.ofExcept r) Q E := by
  intro w hw
  rw [ofExcept_run]
  cases hr : r with
  | ok a => exact hq w a hw hr
  | error e => exact he w hw

/-- Work that relates the worlds leads to what it keeps, wherever it ends. -/
theorem of_obeys {R : World → World → Prop} {T : α → Prop} (hx : Obeys R T x)
    (hr : ∀ w w', P w → R w w' → P' w') :
    Leads P x (fun a w => T a ∧ P' w) P' := by
  intro w hw
  cases hrun : x.run w with
  | mk r w' =>
    cases r with
    | ok a =>
      obtain ⟨hrel, ht⟩ := hx.of_run hrun
      exact ⟨ht, hr w w' hw hrel⟩
    | error e => exact hr w w' hw (hx.of_stop hrun)

/-- Work that relates the worlds leads on to where they are related to one
before. -/
theorem of_keeps {R : World → World → Prop} [IsPreorder World R] (hx : Keeps R x) (w : World) :
    Leads (R w) x (fun _ => R w) (R w) :=
  (of_obeys hx fun _ _ hw hr => trans_of R hw hr).post fun _ _ h => h.2

/-- It is enough to start from each world on its own. -/
theorem of_each (h : ∀ w, P w → Leads (· = w) x Q E) : Leads P x Q E :=
  fun w hw => h w hw w rfl

/-- A lookup in the store. -/
theorem stored {g : Store → Except StoreFault α} (hq : ∀ w a, P w → g w.store = .ok a → Q a w)
    (he : ∀ w, P w → E w) : Leads P (Act.stored g) Q E := by
  intro w hw
  rw [stored_run]
  cases hg : g w.store with
  | ok a => exact hq w a hw hg
  | error e => exact he w hw

/-- A change of the store. -/
theorem storing {g : Store → Except StoreFault Store} {Q : Unit → World → Prop}
    (hq : ∀ w s, P w → g w.store = .ok s → Q () { w with store := s }) (he : ∀ w, P w → E w) :
    Leads P (Act.storing g) Q E := by
  intro w hw
  rw [storing_run]
  cases hg : g w.store with
  | ok s => exact hq w s hw hg
  | error e => exact he w hw

end Leads

/-- What follows in a row may be replaced if it comes to the same wherever the
first step leads. -/
theorem Agree.bind {x : Act α} {f g : α → Act β} (hx : Leads P x Q E)
    (hfg : ∀ a, Agree (Q a) (f a) (g a)) : Agree P (x >>= f) (x >>= g) := by
  intro w hw
  rw [run_bind_eq, run_bind_eq]
  cases hrun : x.run w with
  | mk r w' =>
    cases r with
    | ok a => exact hfg a w' (hx.of_run hw hrun)
    | error e => rfl

end RepairLoop.Act
