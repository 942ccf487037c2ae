import RepairLoop.Proofs.Diagnostics
import RepairLoop.Proofs.Trial.Measuring
/-!
# Trial — what is decided without and with measuring

The trial of a patch keeps all attempts at it, and whether the baseline was measured for it. Its
last attempt is the result of the validation (`validate_of_trial`). Two gates that differ in whether
they measure performance go through their trials side by side, until the benchmark stops a patched
copy that was built (`trials_parted`). A benchmark that comes to a result, good or bad, therefore
changes nothing that is decided. It comes to none if its command cannot be split into words or its
output cannot be read (`benchmarks_iff`). The baseline is measured once at most, however often
patches are validated (`Rounds.once`).
-/

namespace RepairLoop

open Act (Blind)
open World (Beside Like Unmoved)

/-! ## Trials -/

/-- The trial of a patch: whether the baseline was measured for it, the attempts that ran out of
time and were made again, and the last attempt. -/
structure Trial where
  measured : Bool
  early : List ValidationResult
  last : ValidationResult
  deriving Inhabited

namespace Trial

/-- All attempts of the trial. -/
def tries (c : Trial) : List ValidationResult := c.early ++ [c.last]

/-- What is decided in the end, and after how many attempts. -/
def decided (c : Trial) : Judgement × Nat := (c.last.judgement, c.tries.length)

/-- A patched copy was built in some attempt. -/
def Built (c : Trial) : Prop := ∃ r ∈ c.tries, r.buildSuccess = true

end Trial

namespace Gate

/-- Attempts at a patch, all of them kept. -/
def attemptsOf (g : Gate) (measured : Bool) (p : Patch) : Nat → Act Trial
  | 0 => do
    let r ← g.attempt p
    pure ⟨measured, [], r⟩
  | left + 1 => do
    let r ← g.attempt p
    if r.errorKind == some .timeout then do
      let c ← g.attemptsOf measured p left
      pure { c with early := r :: c.early }
    else pure ⟨measured, [], r⟩

/-- Sees to it that there is a baseline, and says whether it was measured now. -/
def gauges (g : Gate) : Act Bool := do
  if g.settings.measurePerformance && (← get).baseline.isNone then
    let sample ← match ← Act.attempt g.measureBaseline with
      | .ok sample => pure sample
      | .error _ => pure Sample.none_
    modify fun w => { w with baseline := some sample }
    pure true
  else pure false

/-- Validates a patch, and keeps the trial of it. -/
def trial (g : Gate) (p : Patch) : Act Trial := do
  let measured ← g.gauges
  let c ← g.attemptsOf measured p (g.settings.maxAttempts.toNat - 1)
  Act.emit (event c.last)
  pure c

/-- Validates patches one after the other, and keeps the trials. -/
def trials (g : Gate) : List Patch → Act (List Trial)
  | [] => pure []
  | p :: ps => do
    let c ← g.trial p
    let cs ← g.trials ps
    pure (c :: cs)

variable (g : Gate) {o w v : World}

/-- **A baseline is measured if it is wanted and there is none**; then there is one. -/
theorem gauges_run (w : World) : ∃ u, g.gauges.run w =
      (.ok (g.settings.measurePerformance && w.baseline.isNone), u) ∧
    g.ensureBaseline.run w = (.ok (), u) ∧
    u.baseline.isSome = (w.baseline.isSome || g.settings.measurePerformance) := by
  have hget : (get : Act World).run w = (.ok w, w) := rfl
  rw [gauges, ensureBaseline, run_bind_of_ok hget, run_bind_of_ok hget]
  split
  · rename_i hmissing
    rw [run_bind_of_ok (Act.attempt_run _ w), run_bind_of_ok (Act.attempt_run _ w), hmissing,
      (Bool.and_eq_true_iff.1 hmissing).1, Bool.or_true]
    generalize g.measureBaseline.run w = run
    obtain ⟨_ | sample, u⟩ := run
    · exact ⟨_, rfl, rfl, rfl⟩
    · exact ⟨_, rfl, rfl, rfl⟩
  · rename_i hheld
    rw [Bool.eq_false_iff.2 hheld]
    refine ⟨w, rfl, rfl, ?_⟩
    cases hw : w.baseline with
    | some sample => rfl
    | none => cases hm : g.settings.measurePerformance <;> simp_all

/-- A baseline that is there is kept. -/
theorem gauges_held {g : Gate} (h : w.baseline.isSome = true) :
    g.gauges.run w = (.ok false, w) := by
  have hget : (get : Act World).run w = (.ok w, w) := rfl
  have hheld : ¬ (g.settings.measurePerformance && w.baseline.isNone) = true := by
    rw [Option.isNone_eq_false_iff.2 h, Bool.and_false]
    exact Bool.false_ne_true
  rw [gauges, run_bind_of_ok hget, if_neg hheld]
  rfl

theorem attemptsOf_returns (measured : Bool) (p : Patch) (left : Nat) (w : World) :
    ∃ c v, (g.attemptsOf measured p left).run w = (.ok c, v) := by
  induction left generalizing w with
  | zero =>
    obtain ⟨r, u, hrun⟩ := g.attempt_returns p w
    rw [attemptsOf, run_bind_of_ok hrun]
    exact ⟨_, _, rfl⟩
  | succ left ih =>
    obtain ⟨r, u, hrun⟩ := g.attempt_returns p w
    rw [attemptsOf, run_bind_of_ok hrun]
    split
    · obtain ⟨c, v, hrest⟩ := ih u
      rw [run_bind_of_ok hrest]
      exact ⟨_, _, rfl⟩
    · exact ⟨_, _, rfl⟩

theorem trial_run {p : Patch} {measured : Bool} {c : Trial} {u t : World}
    (hgauges : g.gauges.run w = (.ok measured, u))
    (hattempts : (g.attemptsOf measured p (g.settings.maxAttempts.toNat - 1)).run u = (.ok c, t)) :
    (g.trial p).run w = (.ok c, ((Act.emit (event c.last)).run t).2) := by
  rw [trial, run_bind_of_ok hgauges, run_bind_of_ok hattempts]
  rfl

theorem trials_returns (ps : List Patch) (w : World) :
    ∃ cs v, (g.trials ps).run w = (.ok cs, v) := by
  induction ps generalizing w with
  | nil => exact ⟨[], w, rfl⟩
  | cons p ps ih =>
    obtain ⟨u, hgauges, -, -⟩ := g.gauges_run w
    obtain ⟨c, t, hattempts⟩ := g.attemptsOf_returns _ p _ u
    obtain ⟨cs, v, htrials⟩ := ih _
    rw [trials, run_bind_of_ok (g.trial_run hgauges hattempts), run_bind_of_ok htrials]
    exact ⟨_, _, rfl⟩

theorem attempts_of_attemptsOf {measured : Bool} {p : Patch} {left : Nat} {c : Trial}
    (h : (g.attemptsOf measured p left).run w = (.ok c, v)) :
    (g.attempts p left).run w = (.ok c.last, v) := by
  induction left generalizing w c with
  | zero =>
    rw [attemptsOf] at h
    obtain ⟨r, u, hrun, h⟩ := run_ok_of_bind h
    cases h
    exact hrun
  | succ left ih =>
    rw [attemptsOf] at h
    obtain ⟨r, u, hrun, h⟩ := run_ok_of_bind h
    rw [attempts, run_bind_of_ok hrun]
    split at h
    · rename_i htimeout
      obtain ⟨c', t, hrest, h⟩ := run_ok_of_bind h
      cases h
      have hlast := ih hrest
      rw [if_pos htimeout]
      exact hlast
    · rename_i hother
      cases h
      rw [if_neg hother]
      rfl

/-- **The last attempt of the trial is the result of the validation.** -/
theorem validate_of_trial {p : Patch} {c : Trial} (h : (g.trial p).run w = (.ok c, v)) :
    (g.validate p).run w = (.ok c.last, v) := by
  obtain ⟨u, hgauges, hbaseline, -⟩ := g.gauges_run w
  rw [trial, run_bind_of_ok hgauges] at h
  obtain ⟨c', t, hattempts, h⟩ := run_ok_of_bind h
  cases h
  rw [validate, run_bind_of_ok hbaseline, run_bind_of_ok (g.attempts_of_attemptsOf hattempts)]
  rfl

theorem validateEach_of_trials {ps : List Patch} {cs : List Trial}
    (h : (g.trials ps).run w = (.ok cs, v)) :
    (g.validateEach ps).run w = (.ok (cs.map Trial.last), v) := by
  induction ps generalizing w cs with
  | nil =>
    cases h
    rfl
  | cons p ps ih =>
    rw [trials] at h
    obtain ⟨c, u, htrial, h⟩ := run_ok_of_bind h
    obtain ⟨cs', t, htrials, h⟩ := run_ok_of_bind h
    cases h
    rw [validateEach, run_bind_of_ok (g.validate_of_trial htrial), run_bind_of_ok (ih htrials)]
    rfl

/-! ## Without and with measuring -/

/-- What some trials without and with measuring come to: the same is decided, and then `R`; or the
benchmark stops what was built, and not the same is decided. -/
def Parted (o : World) (cs ds : List Trial) (R : Prop) : Prop :=
  (ds.map Trial.decided = cs.map Trial.decided ∧ (g.Benchmarks o ∨ ∀ c ∈ cs, ¬ c.Built) ∧ R) ∨
    (ds.map Trial.decided ≠ cs.map Trial.decided ∧ ¬ g.Benchmarks o ∧ ∃ c ∈ cs, c.Built)

variable {g} {r r' : ValidationResult} {c d : Trial} {R : Prop}

theorem parted_nil : g.Parted o [] [] True :=
  .inl ⟨rfl, .inr fun _ hc => (List.not_mem_nil hc).elim, trivial⟩

/-- One attempt that decides the same, and no further one. -/
theorem parted_same (hsame : r'.judgement = r.judgement)
    (hfree : g.Benchmarks o ∨ r.buildSuccess = false) (hr : R) (measured measured' : Bool) :
    g.Parted o [⟨measured, [], r⟩] [⟨measured', [], r'⟩] R := by
  refine .inl ⟨?_, hfree.imp_right fun hb => ?_, hr⟩
  · simp [Trial.decided, Trial.tries, hsame]
  · simp [Trial.Built, Trial.tries, hb]

/-- One attempt that is made again. -/
theorem parted_again (hfree : g.Benchmarks o ∨ r.buildSuccess = false) (h : g.Parted o [c] [d] R) :
    g.Parted o [{ c with early := r :: c.early }] [{ d with early := r' :: d.early }] R := by
  have hdecided : [({ d with early := r' :: d.early } : Trial)].map Trial.decided =
      [({ c with early := r :: c.early } : Trial)].map Trial.decided ↔
        [d].map Trial.decided = [c].map Trial.decided := by
    simp [Trial.decided, Trial.tries]
  obtain ⟨hsame', hfree', hr⟩ | ⟨hparted, hstops, c', hc', hbuilt⟩ := h
  · refine .inl ⟨hdecided.2 hsame', ?_, hr⟩
    refine hfree.elim .inl fun hb => hfree'.imp_right fun hunbuilt => ?_
    simpa [Trial.Built, Trial.tries, hb] using hunbuilt
  · obtain rfl := List.mem_singleton.1 hc'
    obtain ⟨x, hx, hb⟩ := hbuilt
    exact .inr ⟨fun h => hparted (hdecided.1 h), hstops, _, List.mem_singleton_self _, x,
      List.mem_cons_of_mem r hx, hb⟩

/-- The benchmark stops the attempt, whatever the other trial goes on with. -/
theorem parted_stopped (hstops : ¬ g.Benchmarks o) (hbuilt : r.buildSuccess = true)
    (hunbuilt : r'.buildSuccess = false) (hc : r ∈ c.tries)
    (hlast : c.last = r ∨ 1 < c.tries.length) (measured : Bool) :
    g.Parted o [c] [⟨measured, [], r'⟩] R := by
  refine .inr ⟨fun hsame => ?_, hstops, c, List.mem_singleton_self c, r, hc, hbuilt⟩
  obtain ⟨hjudged, hlength⟩ := Prod.mk.inj (List.singleton_inj.1 hsame)
  rcases hlast with rfl | hmore
  · have hb : r'.buildSuccess = c.last.buildSuccess := congrArg Judgement.buildSuccess hjudged
    rw [hunbuilt, hbuilt] at hb
    cases hb
  · have hone : (1 : Nat) = c.tries.length := hlength
    omega

/-- The other trials, if the first ones leave the worlds beside each other. -/
theorem trials_parted_cons (h : g.Parted o [c] [d] R) (ps : List Patch)
    (hrest : R → ∃ cs w' ds v',
      ((g.measuring false).trials ps).run w = (.ok cs, w') ∧
      ((g.measuring true).trials ps).run v = (.ok ds, v') ∧ g.Parted o cs ds True) :
    ∃ cs w' ds v', ((g.measuring false).trials ps).run w = (.ok cs, w') ∧
      ((g.measuring true).trials ps).run v = (.ok ds, v') ∧
      g.Parted o (c :: cs) (d :: ds) True := by
  obtain ⟨hsame, hfree, hr⟩ | ⟨hparted, hstops, c', hc', hbuilt⟩ := h
  · obtain ⟨cs, w', ds, v', hoff, hon, hrest⟩ := hrest hr
    refine ⟨cs, w', ds, v', hoff, hon, ?_⟩
    have hhead : d.decided = c.decided := List.singleton_inj.1 hsame
    obtain ⟨hsame', hfree', -⟩ | ⟨hparted', hstops', x, hx, hbuilt⟩ := hrest
    · refine .inl ⟨by rw [List.map_cons, List.map_cons, hhead, hsame'], ?_, trivial⟩
      refine hfree.elim .inl fun hc => hfree'.imp_right fun hcs => ?_
      exact List.forall_mem_cons.2 ⟨hc c (List.mem_singleton_self c), hcs⟩
    · exact .inr ⟨fun h => hparted' (List.cons.inj h).2, hstops', x, List.mem_cons_of_mem c hx,
        hbuilt⟩
  · obtain rfl := List.mem_singleton.1 hc'
    obtain ⟨cs, w', hoff⟩ := (g.measuring false).trials_returns ps w
    obtain ⟨ds, v', hon⟩ := (g.measuring true).trials_returns ps v
    refine ⟨cs, w', ds, v', hoff, hon, .inr ⟨fun h => hparted ?_, hstops, c',
      List.mem_cons_self, hbuilt⟩⟩
    exact congrArg (fun x => [x]) (List.cons.inj h).1

section

variable (hu : o.outside.Uniform)
variable (hglobs : ∀ s ∈ g.settings.artifactGlobs, ∃ search, Search.ofString s = .ok search)
variable {sample : Sample} (hgauged : g.Gauged o sample)

include hu hglobs hgauged

/-- **The attempts part where the benchmark stops the first that was built**, and nowhere else. -/
theorem attemptsOf_parted (h : Beside o (some sample) w v) (measured measured' : Bool) (p : Patch)
    (left : Nat) : ∃ c w' d v',
      ((g.measuring false).attemptsOf measured p left).run w = (.ok c, w') ∧
      ((g.measuring true).attemptsOf measured' p left).run v = (.ok d, v') ∧
      g.Parted o [c] [d] (Beside o (some sample) w' v') := by
  induction left generalizing w v with
  | zero =>
    obtain ⟨r, w', r', v', hoff, hon, hcompared⟩ := g.attempt_compared hu hglobs hgauged h p
    rw [attemptsOf, attemptsOf, run_bind_of_ok hoff, run_bind_of_ok hon]
    refine ⟨_, _, _, _, rfl, rfl, ?_⟩
    rcases hcompared with ⟨hsame, hfree, hworlds⟩ | ⟨hstops, hbuilt, hunbuilt, -⟩
    · exact parted_same hsame hfree hworlds _ _
    · exact parted_stopped (c := ⟨measured, [], r⟩) hstops hbuilt hunbuilt
        (List.mem_singleton_self r) (.inl rfl) _
  | succ left ih =>
    obtain ⟨r, w', r', v', hoff, hon, hcompared⟩ := g.attempt_compared hu hglobs hgauged h p
    rw [attemptsOf, attemptsOf, run_bind_of_ok hoff, run_bind_of_ok hon]
    rcases hcompared with ⟨hsame, hfree, hworlds⟩ | ⟨hstops, hbuilt, hunbuilt, hkind⟩
    · have hkind : r'.errorKind = r.errorKind := congrArg Judgement.errorKind hsame
      rw [hkind]
      split
      · obtain ⟨c, w'', d, v'', hoff', hon', hparted⟩ := ih hworlds
        rw [run_bind_of_ok hoff', run_bind_of_ok hon']
        exact ⟨_, _, _, _, rfl, rfl, parted_again hfree hparted⟩
      · exact ⟨_, _, _, _, rfl, rfl, parted_same hsame hfree hworlds _ _⟩
    · -- what is stopped has not run out of time, so the second gate makes no further attempt
      rw [hkind, if_neg (by decide : ¬ (some ErrorKind.validationError == some .timeout) = true)]
      split
      · obtain ⟨c, w'', hrest⟩ := (g.measuring false).attemptsOf_returns measured p left w'
        rw [run_bind_of_ok hrest]
        refine ⟨_, _, _, _, rfl, rfl, parted_stopped hstops hbuilt hunbuilt List.mem_cons_self
          (.inr ?_) _⟩
        simp [Trial.tries]
      · exact ⟨_, _, _, _, rfl, rfl, parted_stopped (c := ⟨measured, [], r⟩) hstops hbuilt hunbuilt
          (List.mem_singleton_self r) (.inl rfl) _⟩

/-- One trial each, once the baseline is seen to. -/
theorem trial_parted {m m' : Bool} {w₁ v₁ : World}
    (hoff : (g.measuring false).gauges.run w = (.ok m, w₁))
    (hon : (g.measuring true).gauges.run v = (.ok m', v₁))
    (h : Beside o (some sample) w₁ v₁) (p : Patch) : ∃ c w' d v',
      ((g.measuring false).trial p).run w = (.ok c, w') ∧
      ((g.measuring true).trial p).run v = (.ok d, v') ∧
      g.Parted o [c] [d] (Beside o (some sample) w' v') := by
  obtain ⟨c, w', d, v', hoff', hon', hparted⟩ := g.attemptsOf_parted hu hglobs hgauged h m m' p
    (g.settings.maxAttempts.toNat - 1)
  refine ⟨c, _, d, _, (g.measuring false).trial_run hoff hoff',
    (g.measuring true).trial_run hon hon',
    hparted.imp_left fun ⟨hsame, hfree, hworlds⟩ => ⟨hsame, hfree, ?_⟩⟩
  exact (Act.emit_beside _ _ _ _ hworlds).2

/-- **Trials part where the benchmark stops the first copy that was built**, and nowhere else. -/
theorem trials_parted (h : Beside o (some sample) w v) (ps : List Patch) : ∃ cs w' ds v',
    ((g.measuring false).trials ps).run w = (.ok cs, w') ∧
    ((g.measuring true).trials ps).run v = (.ok ds, v') ∧ g.Parted o cs ds True := by
  induction ps generalizing w v with
  | nil => exact ⟨[], w, [], v, rfl, rfl, parted_nil⟩
  | cons p ps ih =>
    have hoff : (g.measuring false).gauges.run w = (.ok false, w) := rfl
    have hon : (g.measuring true).gauges.run v = (.ok false, v) :=
      gauges_held (by rw [h.baseline]; rfl)
    obtain ⟨c, w', d, v', hoff', hon', hparted⟩ := g.trial_parted hu hglobs hgauged hoff hon h p
    obtain ⟨cs, w'', ds, v'', hoff'', hon'', hrest⟩ :=
      trials_parted_cons hparted ps fun hworlds => ih hworlds
    rw [trials, trials, run_bind_of_ok hoff', run_bind_of_ok hon', run_bind_of_ok hoff'',
      run_bind_of_ok hon'']
    exact ⟨_, _, _, _, rfl, rfl, hrest⟩

end

/-! ## The first trial -/

/-- **A new gate measures the baseline**, and goes on beside a world that has not done so. -/
theorem gauges_beside (g : Gate) (hu : o.outside.Uniform)
    (hnew : o.files.has o.workshop.parts = false)
    (hparent : o.files.has o.workshop.parts.dropLast = true) (hfresh : o.baseline = none) :
    ∃ m sample v, (g.measuring true).gauges.run o = (.ok m, v) ∧
      Beside o (some sample) o v ∧ g.Gauged o sample := by
  have hget : (get : Act World).run o = (.ok o, o) := rfl
  have hmissing : ((g.measuring true).settings.measurePerformance && o.baseline.isNone) = true := by
    rw [hfresh]
    rfl
  obtain ⟨hcore, hgauged⟩ := (g.measuring true).measureBaseline_run hu hnew hparent
  rw [gauges, run_bind_of_ok hget, if_pos hmissing, run_bind_of_ok (Act.attempt_run _ o)]
  generalize ((g.measuring true).measureBaseline.run o) = run at hcore hgauged ⊢
  obtain ⟨r, v⟩ := run
  cases r with
  | ok sample =>
    obtain ⟨hbuild, hbenchmark⟩ := hgauged sample rfl
    exact ⟨true, sample, _, rfl, ⟨.refl o, hcore, rfl⟩, hbuild, hbenchmark⟩
  | error e =>
    -- where the baseline cannot be measured it holds no times
    refine ⟨true, Sample.none_, _, rfl, ⟨.refl o, hcore, rfl⟩, fun _ hn => ?_, fun _ hn => ?_⟩ <;>
      cases hn

/-! ## One baseline -/

section

variable (g : Gate) {w u : World}

theorem attemptsOf_kept {measured : Bool} {p : Patch} {left : Nat} {c : Trial}
    (h : (g.attemptsOf measured p left).run w = (.ok c, u)) :
    u.baseline = w.baseline ∧ c.measured = measured := by
  have hattempt {r : ValidationResult} {w v : World} (h : (g.attempt p).run w = (.ok r, v)) :
      v.baseline = w.baseline := by
    have hsame := (attempt_unmoved w.baseline g p w w ⟨rfl, rfl⟩).2.2
    rwa [h] at hsame
  induction left generalizing w c with
  | zero =>
    obtain ⟨r, v, hrun, h⟩ := run_ok_of_bind h
    cases h
    exact ⟨hattempt hrun, rfl⟩
  | succ left ih =>
    obtain ⟨r, v, hrun, h⟩ := run_ok_of_bind h
    split at h
    · obtain ⟨c', t, hrest, h⟩ := run_ok_of_bind h
      cases h
      exact ⟨(ih hrest).1.trans (hattempt hrun), (ih hrest).2⟩
    · cases h
      exact ⟨hattempt hrun, rfl⟩

/-- **A trial that measures finds no baseline and leaves one**; another leaves what it finds. -/
theorem trial_held {p : Patch} {c : Trial} (h : (g.trial p).run w = (.ok c, u)) :
    [c].countP Trial.measured + w.baseline.isSome.toNat = u.baseline.isSome.toNat := by
  obtain ⟨v, hgauges, -, hsome⟩ := g.gauges_run w
  rw [trial, run_bind_of_ok hgauges] at h
  obtain ⟨c', t, hattempts, h⟩ := run_ok_of_bind h
  cases h
  obtain ⟨hkept, hmeasured⟩ := g.attemptsOf_kept hattempts
  have hlast :
      ((Act.emit (event c.last)).run t).2.baseline.isSome.toNat = v.baseline.isSome.toNat :=
    congrArg (fun b : Option Sample => b.isSome.toNat) hkept
  refine Eq.trans ?_ hlast.symm
  rw [hsome, List.countP_singleton, hmeasured, ← Option.not_isSome]
  cases w.baseline.isSome <;> cases g.settings.measurePerformance <;> rfl

theorem trials_held {ps : List Patch} {cs : List Trial} (h : (g.trials ps).run w = (.ok cs, u)) :
    cs.countP Trial.measured + w.baseline.isSome.toNat = u.baseline.isSome.toNat := by
  induction ps generalizing w cs with
  | nil =>
    cases h
    exact Nat.zero_add _
  | cons p ps ih =>
    obtain ⟨c, v, htrial, h⟩ := run_ok_of_bind h
    obtain ⟨cs', t, htrials, h⟩ := run_ok_of_bind h
    cases h
    rw [← ih htrials, ← g.trial_held htrial, ← List.singleton_append, List.countP_append]
    omega

end

/-- **Rounds of validations** with one gate, with the trials of all of them. Between them anything
may be done that leaves the baseline of the gate alone. -/
inductive Rounds (g : Gate) (w : World) : List Trial → World → Prop
  | start : Rounds g w [] w
  | round {cs ds : List Trial} {v v' u : World} {ps : List Patch} (h : Rounds g w cs v)
    (hbetween : v'.baseline = v.baseline) (hrun : (g.trials ps).run v' = (.ok ds, u)) :
    Rounds g w (cs ++ ds) u

/-- **The baseline is measured at most once** in all rounds, and not if there is one at first. -/
theorem Rounds.once {g : Gate} {w u : World} {cs : List Trial} (h : g.Rounds w cs u) :
    cs.countP Trial.measured + w.baseline.isSome.toNat = u.baseline.isSome.toNat := by
  induction h with
  | start => exact Nat.zero_add _
  | round _ hbetween hrun ih =>
    rw [← g.trials_held hrun, hbetween, ← ih, List.countP_append]
    omega

/-! ## When a benchmark comes to a result -/

/-- What the benchmark replies to words outside of containers. -/
def benchReply (g : Gate) (o : World) (words : List String) : CommandReply :=
  o.outside.command [⟨o.workshop, words, .real g.settings.benchmarkStage.timeout⟩]

/-- **Outside of containers a benchmark comes to a result if its command can be split into words
and its output can be read**, or if it has no command. -/
theorem benchmarks_iff {g : Gate} {o : World} (hu : o.outside.Uniform)
    (hplain : g.contained o = false) : g.Benchmarks o ↔
      ∀ line ∈ g.settings.benchmarkStage.command?, ∃ words d, Command.wordsOf line = .ok words ∧
        words ≠ [] ∧
        Diagnostics.extract [(g.benchReply o words).out, (g.benchReply o words).err] = .ok d := by
  have hsandbox : g.sandboxIn o = ⟨o.workshop, none⟩ := by
    rw [sandboxIn, hplain]
    rfl
  have hwords {words : List String} (hne : words ≠ []) :
      ∃ v, (Command.runWords o.workshop words (.real g.settings.benchmarkStage.timeout)).run o =
        (.ok (CommandResult.ofReply words (g.benchReply o words)), v) := by
    rw [Command.runWords, if_neg (by simpa using hne), ← bind_pure_comp,
      run_bind_of_ok (Act.command_uniform hu _)]
    exact ⟨_, rfl⟩
  have hmap {x : Except Json.ReadError Diagnostics} {d : Diagnostics} :
      x.mapError Diagnostics.faultOf = .ok d ↔ x = .ok d := by
    cases x <;> simp [Except.mapError]
  rw [Benchmarks, hsandbox]
  unfold StageSpec.run
  split
  · rename_i hnone
    rw [hnone]
    exact iff_of_true ⟨_, rfl⟩ fun line hline => (Option.not_mem_none line hline).elim
  · rename_i line hline
    rw [hline]
    simp only [Option.mem_some_iff, forall_eq', Sandbox.run, Command.run]
    constructor
    · rintro ⟨r, hr⟩
      obtain ⟨result, v, hresult, hr⟩ := run_ok_of_bind (Prod.ext hr rfl)
      obtain ⟨words, u, hknown, hresult⟩ := run_ok_of_bind hresult
      rw [Act.ofExcept_run] at hknown
      obtain ⟨hsplit, rfl⟩ := Prod.mk.inj hknown
      have hne : words ≠ [] := by
        rintro rfl
        cases hresult
      obtain ⟨u, hreply⟩ := hwords hne
      rw [hreply] at hresult
      cases hresult
      obtain ⟨d, t, hread, -⟩ := run_ok_of_bind hr
      rw [Act.ofExcept_run] at hread
      exact ⟨words, d, hsplit, hne, hmap.1 (Prod.mk.inj hread).1⟩
    · rintro ⟨words, d, hsplit, hne, hread⟩
      obtain ⟨v, hreply⟩ := hwords hne
      have hsplit' : (Act.ofExcept (Command.wordsOf line)).run o = (.ok words, o) := by
        rw [Act.ofExcept_run, hsplit]
      rw [run_bind_of_ok ((run_bind_of_ok hsplit').trans hreply), run_bind_of_ok (a := d) (t := v)]
      · exact ⟨_, rfl⟩
      · rw [Act.ofExcept_run]
        exact congrArg (·, v) (hmap.2 hread)

end Gate

/-! ## Steady work -/

/-- What a command answers depends on the command alone, the artifacts can be searched for, copies
are made at a new place, and validations do not break down. The gate is new, or its baseline holds
the times that the stages take. -/
structure Gate.Steady (g : Gate) (w : World) : Prop where
  uniform : w.outside.Uniform
  globs : ∀ s ∈ g.settings.artifactGlobs, ∃ search, Search.ofString s = .ok search
  new : w.files.has w.workshop.parts = false
  parent : w.files.has w.workshop.parts.dropLast = true
  gauged : ∀ sample ∈ w.baseline, g.Gauged w sample
  sound : w.outside.breakdown = none

/-! ## A small workspace with a benchmark -/

namespace Small

/-- A gate that builds, with a benchmark. -/
def benchGate : Gate := { slowGate with
  settings := { slowGate.settings with benchmarkCommand := some "bench" } }

/-- The world of that gate: every command succeeds, and the benchmark prints a text. -/
def benchWorld (out : String) : World := { slowWorld with
  outside := { slowWorld.outside with command := command } }
where
  command (calls : List CommandCall) : CommandReply :=
    ⟨some 0, if calls.getLast?.map CommandCall.words = some ["bench"] then out else "", "", 1,
      false, false, [], none⟩

theorem benchWorld_uniform (out : String) : (benchWorld out).outside.Uniform := by
  refine ⟨fun calls c => ?_, fun _ => rfl, fun _ => rfl⟩
  show benchWorld.command out (calls ++ [c]) = benchWorld.command out [c]
  rw [benchWorld.command, List.getLast?_concat]
  rfl

theorem extract_counted {n : Nat} (hn : Json.maxDigits < n) :
    Diagnostics.extract [String.ofList (counted n), ""] = .error (.tooManyDigits n) := by
  obtain ⟨hlines, hline⟩ := ofLine_counted hn
  rw [Diagnostics.extract, List.flatMap_cons, hlines, List.singleton_append, Diagnostics.findings,
    hline]
  rfl

theorem bench_steady (out : String) : benchGate.Steady (benchWorld out) where
  uniform := benchWorld_uniform out
  globs s hs := by
    have hall : ∀ s ∈ benchGate.settings.artifactGlobs,
        (Search.ofString s).toOption.isSome = true := by decide +kernel
    have hsome := hall s hs
    cases hread : Search.ofString s with
    | ok search => exact ⟨search, rfl⟩
    | error e =>
      rw [hread] at hsome
      cases hsome
  new := by
    have hnew : slowWorld.files.has slowWorld.workshop.parts = false := by decide +kernel
    exact hnew
  parent := by
    have hparent : slowWorld.files.has slowWorld.workshop.parts.dropLast = true := by
      decide +kernel
    exact hparent
  gauged sample h := (Option.not_mem_none sample h).elim
  sound := rfl

end Small

namespace Gate

/-! ## The main result -/

theorem validateMany_of_trials {g : Gate} {w u : World} {ps : List Patch} {cs : List Trial}
    (hsound : w.outside.breakdown = none) (h : (g.trials ps).run w = (.ok cs, u)) :
    (g.validateMany ps).run w = (.ok (cs.map Trial.last), u) := by
  have hget : (get : Act World).run w = (.ok w, w) := rfl
  rw [validateMany, run_bind_of_ok hget, hsound]
  exact g.validateEach_of_trials h

/-- **The trials of steady work part where the benchmark stops the first copy that was built.** -/
theorem Steady.trials_parted {g : Gate} {w : World} (h : g.Steady w) (ps : List Patch) :
    ∃ cs u ds v, ((g.measuring false).trials ps).run w = (.ok cs, u) ∧
    ((g.measuring true).trials ps).run w = (.ok ds, v) ∧ g.Parted w cs ds True := by
  cases hw : w.baseline with
  | some sample =>
    exact g.trials_parted h.uniform h.globs (h.gauged sample hw) ⟨.refl w, rfl, hw⟩ ps
  | none =>
    cases ps with
    | nil => exact ⟨[], w, [], w, rfl, rfl, parted_nil⟩
    | cons p ps =>
      -- only the first trial measures the baseline, and it does so ahead of its attempts
      have hoff : (g.measuring false).gauges.run w = (.ok false, w) := rfl
      obtain ⟨m, sample, v, hon, hbeside, hgauged⟩ :=
        g.gauges_beside h.uniform h.new h.parent hw
      obtain ⟨c, w', d, v', hoff', hon', hparted⟩ :=
        g.trial_parted h.uniform h.globs hgauged hoff hon hbeside p
      obtain ⟨cs, w'', ds, v'', hoff'', hon'', hrest⟩ := trials_parted_cons hparted ps
        fun hworlds => g.trials_parted h.uniform h.globs hgauged hworlds ps
      rw [trials, trials, run_bind_of_ok hoff', run_bind_of_ok hon', run_bind_of_ok hoff'',
        run_bind_of_ok hon'']
      exact ⟨_, _, _, _, rfl, rfl, hrest⟩

/-- **Measuring changes what is decided exactly if the benchmark comes to no result where a patched
copy was built**, as far as the work is steady. With a benchmark that comes to a result, good or
bad, all patches are therefore decided the same, after as many attempts. The baseline is measured
at most once in any rounds of validations, also if it cannot be measured. -/
theorem validateMany_measuring_iff {g : Gate} {w : World} (h : g.Steady w) (ps : List Patch) :
    (∃ cs u ds v, ((g.measuring false).trials ps).run w = (.ok cs, u) ∧
      ((g.measuring true).trials ps).run w = (.ok ds, v) ∧
      ((g.measuring false).validateMany ps).run w = (.ok (cs.map Trial.last), u) ∧
      ((g.measuring true).validateMany ps).run w = (.ok (ds.map Trial.last), v) ∧
      (ds.map Trial.decided = cs.map Trial.decided ↔
        g.Benchmarks w ∨ ∀ c ∈ cs, ¬ c.Built)) ∧
      ∀ o cs u, g.Rounds o cs u → cs.countP Trial.measured ≤ 1 := by
  constructor
  · obtain ⟨cs, u, ds, v, hoff, hon, hparted⟩ := h.trials_parted ps
    refine ⟨cs, u, ds, v, hoff, hon, validateMany_of_trials h.sound hoff,
      validateMany_of_trials h.sound hon, ?_⟩
    obtain ⟨hsame, hfree, -⟩ | ⟨hdiffer, hstops, c, hc, hbuilt⟩ := hparted
    · exact iff_of_true hsame hfree
    · refine iff_of_false hdiffer ?_
      rintro (hbenchmarks | hunbuilt)
      · exact hstops hbenchmarks
      · exact hunbuilt c hc hbuilt
  · intro o cs u hrounds
    have honce := hrounds.once
    have hone := Bool.toNat_le u.baseline.isSome
    omega

/-- A benchmark that warns changes nothing. -/
theorem validateMany_measuring_iff_warned :
    let g := Small.benchGate
    let w := Small.benchWorld "warning: slow"
    g.Steady w ∧
    ∃ (cs ds : List Trial) (u v : World),
      ((g.measuring false).validateMany [Small.change]).run w = (.ok (cs.map Trial.last), u) ∧
      ((g.measuring true).validateMany [Small.change]).run w = (.ok (ds.map Trial.last), v) ∧
      ds.map Trial.decided = cs.map Trial.decided := by
  intro g w
  have hsteady : g.Steady w := Small.bench_steady "warning: slow"
  have hbenchmarks : g.Benchmarks w := by
    have hran : ((g.settings.benchmarkStage.run (g.sandboxIn w) none).run w).1.toOption.isSome =
        true := by decide +kernel
    cases hr : ((g.settings.benchmarkStage.run (g.sandboxIn w) none).run w).1 with
    | ok r => exact ⟨r, hr⟩
    | error e =>
      rw [hr] at hran
      cases hran
  obtain ⟨⟨cs, u, ds, v, -, -, hoff, hon, hiff⟩, -⟩ :=
    validateMany_measuring_iff hsteady [Small.change]
  exact ⟨hsteady, cs, ds, u, v, hoff, hon, hiff.2 (.inl hbenchmarks)⟩

/-- A benchmark that counts too far stops the attempt at a patch that is good without it. -/
theorem validateMany_measuring_stopped :
    let g := Small.benchGate
    let w := Small.benchWorld (String.ofList (Small.counted 4301))
    g.Steady w ∧
    ∃ cs u ds v,
      ((g.measuring false).trials [Small.change]).run w = (.ok cs, u) ∧
      ((g.measuring true).trials [Small.change]).run w = (.ok ds, v) ∧
      cs.map (fun c => c.last.outcome) = [.success] ∧
      ds.map Trial.decided ≠ cs.map Trial.decided := by
  intro g w
  have hsteady : g.Steady w := Small.bench_steady (String.ofList (Small.counted 4301))
  have hbuilds : ((((g.measuring false).trials [Small.change]).run w).1.toOption.any
      fun cs : List Trial =>
        cs.map (fun c => (c.last.outcome, c.last.buildSuccess)) == [(.success, true)]) = true := by
    decide +kernel
  have hunread : ¬ g.Benchmarks w := by
    rw [benchmarks_iff hsteady.uniform rfl]
    intro hreads
    obtain ⟨words, d, hwords, -, hread⟩ := hreads "bench" rfl
    have hbench : Command.wordsOf "bench" = .ok ["bench"] := rfl
    rw [hbench] at hwords
    cases hwords
    have herror := Small.extract_counted (n := 4301) (by decide)
    cases herror.symm.trans hread
  obtain ⟨cs, u, ds, v, hoff, hon, hparted⟩ := hsteady.trials_parted [Small.change]
  rw [hoff] at hbuilds
  obtain ⟨c, rfl, hc⟩ := List.map_eq_singleton_iff.1 (beq_iff_eq.1 hbuilds)
  obtain ⟨houtcome, hbuilt⟩ := Prod.mk.inj hc
  refine ⟨hsteady, [c], u, ds, v, hoff, hon, congrArg (fun x => [x]) houtcome, ?_⟩
  obtain ⟨-, hfree, -⟩ | ⟨hdiffer, -⟩ := hparted
  · have hunbuilt := (hfree.resolve_left hunread) c (List.mem_singleton_self c)
    exact absurd ⟨c.last, List.mem_concat_self, hbuilt⟩ hunbuilt
  · exact hdiffer

end Gate

end RepairLoop
