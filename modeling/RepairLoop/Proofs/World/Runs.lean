import RepairLoop.Proofs.World.Obeys
/-!
# World — the runs of git

What git was asked is recorded in the world, and what it answered follows from
that: the outside gives each answer from the calls up to it. `World.Ran l`
says that between two worlds git was run as the list `l` tells, and there is
one such list (`Ran.unique`). `World.Adds P` says of all these runs that they
are of a kind; it is carried from step to step (`Obeys.bind`), so what work
never asks of git is read off its steps. A step that does not run git at all
is `World.Quiet`, and one that runs nothing and leaves the files alone is
`World.Still`.
-/

namespace RepairLoop

/-- A run of git: what it was asked, and its reply. -/
structure GitRun where
  call : GitCall
  reply : GitReply
  deriving Inhabited

namespace GitRun

/-- What git was asked. -/
def arguments (g : GitRun) : List String := g.call.arguments

/-- Git could be run, and reports no failure. -/
structure Succeeded (g : GitRun) : Prop where
  ran : g.reply.failure = none
  code : g.reply.code = 0

instance (g : GitRun) : Decidable g.Succeeded :=
  decidable_of_iff (g.reply.failure = none ∧ g.reply.code = 0)
    ⟨fun h => ⟨h.1, h.2⟩, fun h => ⟨h.ran, h.code⟩⟩

end GitRun

/-- The runs that some calls come to if others were made before. -/
def Outside.runs (o : Outside) (before : List GitCall) : List GitCall → List GitRun
  | [] => []
  | c :: cs => ⟨c, o.git (before ++ [c])⟩ :: o.runs (before ++ [c]) cs

theorem Outside.runs_append (o : Outside) (before cs ds : List GitCall) :
    o.runs before (cs ++ ds) = o.runs before cs ++ o.runs (before ++ cs) ds := by
  induction cs generalizing before with
  | nil => rw [List.append_nil]; rfl
  | cons c cs ih =>
    rw [List.cons_append, runs, ih, runs, List.cons_append, List.append_assoc]
    rfl

theorem Outside.map_call_runs (o : Outside) (before cs : List GitCall) :
    (o.runs before cs).map GitRun.call = cs := by
  induction cs generalizing before with
  | nil => rfl
  | cons c cs ih => rw [runs, List.map_cons, ih]

namespace World

/-- Between the two worlds git was run as the list says. -/
structure Ran (l : List GitRun) (w w' : World) : Prop where
  outside : w'.outside = w.outside
  calls : w'.gitCalls = w.gitCalls ++ l.map GitRun.call
  replies : w.outside.runs w.gitCalls (l.map GitRun.call) = l

namespace Ran

variable {l l' : List GitRun} {w w' w'' : World}

theorem of_eq (houtside : w'.outside = w.outside) (hcalls : w'.gitCalls = w.gitCalls) :
    Ran [] w w' :=
  ⟨houtside, hcalls.trans (List.append_nil _).symm, rfl⟩

/-- The calls that were recorded tell the runs. -/
theorem of_calls {cs : List GitCall} (houtside : w'.outside = w.outside)
    (hcalls : w'.gitCalls = w.gitCalls ++ cs) : Ran (w.outside.runs w.gitCalls cs) w w' := by
  refine ⟨houtside, ?_, ?_⟩ <;> rw [Outside.map_call_runs]
  exact hcalls

theorem refl (w : World) : Ran [] w w := of_eq rfl rfl

theorem trans (h : Ran l w w') (h' : Ran l' w' w'') : Ran (l ++ l') w w'' := by
  refine ⟨h'.outside.trans h.outside, ?_, ?_⟩
  · rw [h'.calls, h.calls, List.map_append, List.append_assoc]
  · have hlater := h'.replies
    rw [h.outside, h.calls] at hlater
    rw [List.map_append, Outside.runs_append, h.replies, hlater]

/-- **There is one list of the runs between two worlds.** -/
theorem unique (h : Ran l w w') (h' : Ran l' w w') : l = l' := by
  have hcalls : l.map GitRun.call = l'.map GitRun.call :=
    List.append_cancel_left (h.calls.symm.trans h'.calls)
  rw [← h.replies, ← h'.replies, hcalls]

end Ran

/-- All runs of git between the two worlds are of a kind. -/
def Adds (P : GitRun → Prop) (w w' : World) : Prop := ∃ l, Ran l w w' ∧ ∀ g ∈ l, P g

instance (P : GitRun → Prop) : IsPreorder World (Adds P) where
  refl w := ⟨[], Ran.refl w, fun _ hg => (List.not_mem_nil hg).elim⟩
  trans _ _ _ h h' := by
    obtain ⟨l, hran, hl⟩ := h
    obtain ⟨l', hran', hl'⟩ := h'
    exact ⟨l ++ l', hran.trans hran', List.forall_mem_append.2 ⟨hl, hl'⟩⟩

theorem Adds.mono {P Q : GitRun → Prop} {w w' : World} (h : Adds P w w') (hpq : ∀ g, P g → Q g) :
    Adds Q w w' := by
  obtain ⟨l, hran, hl⟩ := h
  exact ⟨l, hran, fun g hg => hpq g (hl g hg)⟩

/-- What is known of all runs is known of each list of them. -/
theorem Adds.of_ran {P : GitRun → Prop} {w w' : World} {l : List GitRun} (h : Adds P w w')
    (hran : Ran l w w') : ∀ g ∈ l, P g := by
  obtain ⟨l', hran', hl⟩ := h
  rwa [hran.unique hran']

end World

/-! ## Steps without git -/

/-- A moment has a time of the calendar if its instant lies there. -/
theorem Moment.toUniversal?_isSome (m : Moment) : m.toUniversal?.isSome = true ↔
    0 ≤ m.instant ∧ m.instant < Int.ofNat Date.limit * Moment.dayLength := by
  rw [toUniversal?, Option.isSome_ite, isRepresentable, Bool.and_eq_true, decide_eq_true_iff,
    decide_eq_true_iff]

/-- The clock was read some times, and names may have been given out. -/
structure Supply.Elapses (s s' : Supply) : Prop where
  given : s.given ≤ s'.given
  tick : s'.tick = s.tick
  now : ∃ n : Nat, s'.now = s.now.later (n * s.tick)

namespace Supply.Elapses

/-- No time needs to have passed. -/
theorem of_now {s s' : Supply} (hgiven : s.given ≤ s'.given) (htick : s'.tick = s.tick)
    (hnow : s'.now = s.now) : Elapses s s' := by
  refine ⟨hgiven, htick, 0, ?_⟩
  have hzero : ((0 : Nat) : Int) * s.tick = 0 := by omega
  rw [hnow, hzero, Moment.later, Int.add_zero]

theorem refl (s : Supply) : Elapses s s := of_now (Nat.le_refl _) rfl rfl

theorem freshName (s : Supply) : Elapses s (Supply.freshName.run s).2 :=
  of_now (Nat.le_succ s.given) rfl rfl

theorem trans {s s' s'' : Supply} (h : Elapses s s') (h' : Elapses s' s'') : Elapses s s'' := by
  obtain ⟨m, hm⟩ := h.now
  obtain ⟨n, hn⟩ := h'.now
  refine ⟨Nat.le_trans h.given h'.given, h'.tick.trans h.tick, m + n, ?_⟩
  have hsum : ((m + n : Nat) : Int) * s.tick = m * s.tick + n * s.tick := by
    rw [Int.natCast_add, Int.add_mul]
  rw [hn, hm, h.tick, hsum, Moment.later, Moment.later, Moment.later, Int.add_assoc]

theorem readClock (s : Supply) : Elapses s (Supply.readClock.run s).2 := by
  refine ⟨Nat.le_refl _, rfl, 1, ?_⟩
  have hone : ((1 : Nat) : Int) * s.tick = s.tick := by omega
  rw [hone]
  rfl

/-- **Between two times of the calendar there are only such**, where the clock
does not run backwards. -/
theorem between {s s' s'' : Supply} (h : Elapses s s') (h' : Elapses s' s'') (htick : 0 ≤ s.tick)
    (hfirst : s.now.toUniversal?.isSome = true) (hlast : s''.now.toUniversal?.isSome = true) :
    s'.now.toUniversal?.isSome = true := by
  obtain ⟨m, hm⟩ := h.now
  obtain ⟨n, hn⟩ := h'.now
  have hearly : 0 ≤ (m : Int) * s.tick := Int.mul_nonneg (Int.natCast_nonneg m) htick
  have hlate : 0 ≤ (n : Int) * s'.tick :=
    Int.mul_nonneg (Int.natCast_nonneg n) (h.tick ▸ htick)
  rw [Moment.toUniversal?_isSome] at hfirst hlast ⊢
  rw [hn] at hlast
  rw [hm] at hlast ⊢
  simp only [Moment.instant, Moment.later] at hfirst hlast ⊢
  omega

end Supply.Elapses

/-- Git was not run, the stores are the same, and the clock may have moved on. -/
structure World.Quiet (w w' : World) : Prop where
  apart : Apart w w'
  gitCalls : w'.gitCalls = w.gitCalls
  clock : w.supply.Elapses w'.supply

namespace World.Quiet

variable {w w' : World}

/-- What leaves the supply alone as well. -/
theorem of_eq (hstore : w'.store = w.store) (hstores : w'.stores = w.stores)
    (houtside : w'.outside = w.outside) (hcalls : w'.gitCalls = w.gitCalls)
    (hsupply : w'.supply = w.supply) : Quiet w w' :=
  ⟨.of_eq hstore hstores houtside hsupply, hcalls, hsupply ▸ .refl _⟩

instance : IsPreorder World Quiet where
  refl _ := of_eq rfl rfl rfl rfl rfl
  trans _ _ _ h h' :=
    ⟨trans_of Apart h.apart h'.apart, h'.gitCalls.trans h.gitCalls, h.clock.trans h'.clock⟩

/-- No run of git is missing from the list without any. -/
theorem ran (h : Quiet w w') : Ran [] w w' := .of_eq h.apart.outside h.gitCalls

theorem adds {P : GitRun → Prop} (h : Quiet w w') : Adds P w w' :=
  ⟨[], h.ran, fun _ hg => (List.not_mem_nil hg).elim⟩

end World.Quiet

/-- And nothing else was run either: the files are the same, and so is where work is done. -/
structure World.Still (w w' : World) : Prop extends Quiet w w' where
  files : w'.files = w.files
  commandCalls : w'.commandCalls = w.commandCalls
  here : w'.here = w.here
  workshop : w'.workshop = w.workshop

instance : IsPreorder World World.Still where
  refl w := ⟨refl_of World.Quiet w, rfl, rfl, rfl, rfl⟩
  trans _ _ _ h h' :=
    ⟨trans_of World.Quiet h.toQuiet h'.toQuiet, h'.files.trans h.files,
      h'.commandCalls.trans h.commandCalls, h'.here.trans h.here, h'.workshop.trans h.workshop⟩

namespace Act

open World (Quiet Still Adds Ran)

theorem emit_still (e : Event) : Keeps Still (emit e) :=
  Keeps.modify fun _ => ⟨.of_eq rfl rfl rfl rfl rfl, rfl, rfl, rfl, rfl⟩

theorem yield_still (time : Amount) : Keeps Still (yield_ time) :=
  Keeps.modify fun _ => ⟨.of_eq rfl rfl rfl rfl rfl, rfl, rfl, rfl, rfl⟩

theorem pause_still (time : Amount) : Keeps Still (pause time) :=
  Keeps.modify fun _ => ⟨.of_eq rfl rfl rfl rfl rfl, rfl, rfl, rfl, rfl⟩

theorem web_still (call : WebCall) : Keeps Still (web call) := fun _ =>
  ⟨⟨.of_eq rfl rfl rfl rfl rfl, rfl, rfl, rfl, rfl⟩, fun _ _ => trivial⟩

theorem model_still (payload : Json) : Keeps Still (model payload) := fun _ =>
  ⟨⟨.of_eq rfl rfl rfl rfl rfl, rfl, rfl, rfl, rfl⟩, fun _ _ => trivial⟩

theorem files_still : Keeps Still files := fun w => ⟨refl_of Still w, fun _ _ => trivial⟩

/-- Work on the supply leaves everything else. -/
theorem supplied_still {α : Type} {x : StateM Supply α}
    (hx : ∀ s, Supply.Elapses s (x.run s).2) : Keeps Still (supplied x) := fun w =>
  ⟨⟨⟨⟨rfl, rfl, rfl, (hx w.supply).given⟩, rfl, hx w.supply⟩, rfl, rfl, rfl, rfl⟩,
    fun _ _ => trivial⟩

theorem now_still : Keeps Still now := supplied_still .readClock

theorem emit_quiet (e : Event) : Keeps Quiet (emit e) :=
  (emit_still e).weaken fun _ _ h => h.toQuiet

theorem setFiles_quiet (f : FileTree → FileTree) : Keeps Quiet (setFiles f) :=
  Keeps.modify fun _ => .of_eq rfl rfl rfl rfl rfl

theorem files_quiet : Keeps Quiet files := files_still.weaken fun _ _ h => h.toQuiet

theorem now_quiet : Keeps Quiet now := now_still.weaken fun _ _ h => h.toQuiet

/-! ## One run -/

/-- The run of git that a call comes to in a world. -/
def runOf (call : GitCall) (w : World) : GitRun := ⟨call, w.outside.git (w.gitCalls ++ [call])⟩

theorem git_ran (call : GitCall) (w : World) : Ran [runOf call w] w ((git call).run w).2 := by
  rw [git_run]
  exact ⟨rfl, rfl, rfl⟩

/-- Git yields the reply of the run, if it could be run. -/
theorem git_ok {call : GitCall} {w w' : World} {reply : GitReply}
    (hrun : (git call).run w = (.ok reply, w')) :
    Ran [⟨call, reply⟩] w w' ∧ reply.failure = none := by
  have hran := git_ran call w
  rw [hrun] at hran
  rw [git_run] at hrun
  split at hrun
  · cases (Prod.mk.inj hrun).1
  · rename_i hnone
    obtain rfl := Except.ok.inj (Prod.mk.inj hrun).1
    exact ⟨hran, hnone⟩

/-- A run of git that could not be run is no success. -/
theorem git_stopped {call : GitCall} {w w' : World} {f : Fault}
    (hrun : (git call).run w = (.error f, w')) :
    Ran [runOf call w] w w' ∧ ¬ (runOf call w).Succeeded := by
  have hran := git_ran call w
  rw [hrun] at hran
  refine ⟨hran, fun hsucceeded => ?_⟩
  have hnone : (w.outside.git (w.gitCalls ++ [call])).failure = none := hsucceeded.ran
  rw [git_run, hnone] at hrun
  cases (Prod.mk.inj hrun).1

theorem git_adds {P : GitRun → Prop} {call : GitCall} (h : ∀ g : GitRun, g.call = call → P g) :
    Keeps (Adds P) (git call) := fun w =>
  ⟨⟨_, git_ran call w, fun _ hg => List.mem_singleton.1 hg ▸ h _ rfl⟩, fun _ _ => trivial⟩

end Act

end RepairLoop
